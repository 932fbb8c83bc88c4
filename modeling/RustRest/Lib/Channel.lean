import Mathlib

/-!
# Bounded channels

A channel with one receiver, as a log of all that was sent and a cursor. To send takes two steps: a permit is reserved,
while there is room and the receiver has not closed the channel, and then the permit is used. A permit that is held when
the channel is closed can still be used.
-/

structure Channel (T : Type) where
  sent : List T
  received : ℕ
  permits : ℕ
  capacity : ℕ
  closed : Bool

namespace Channel

variable {T : Type} (c : Channel T)

def new (capacity : ℕ) : Channel T := ⟨[], 0, 0, capacity, false⟩

/-- What was sent and not yet received. -/
def queued : List T := c.sent.drop c.received

def taken : List T := c.sent.take c.received

/-- How a reservation ends. -/
inductive Reservation where
  | permit
  | full
  | closed
  deriving DecidableEq

/-- A sender takes a permit, if there is one. -/
def reserve : Reservation × Channel T :=
  if c.closed then (.closed, c)
  else if c.capacity ≤ c.queued.length + c.permits then (.full, c)
  else (.permit, { c with permits := c.permits + 1 })

/-- A permit is used. -/
def push (x : T) : Option (Channel T) :=
  if c.permits = 0 then none else some { c with sent := c.sent ++ [x], permits := c.permits - 1 }

def send (x : T) : Option (Channel T) :=
  match c.reserve with
  | (.permit, c') => c'.push x
  | _ => none

def recv (abandoned : Bool) : Option (Option T × Channel T) :=
  match c.queued with
  | x :: _ => some (some x, { c with received := c.received + 1 })
  | [] => if abandoned || c.closed && c.permits = 0 then some (none, c) else none

/-- The receiver takes the oldest item. -/
def tryRecv : Option T × Channel T :=
  match c.queued with
  | x :: _ => (some x, { c with received := c.received + 1 })
  | [] => (none, c)

/-- No permit is given any more; what is queued stays. -/
def close : Channel T := { c with closed := true }

/-- The cursor is within the log. -/
def Wf : Prop := c.received ≤ c.sent.length

variable {c}

theorem length_queued : c.queued.length = c.sent.length - c.received := List.length_drop

theorem Wf.length_taken (h : c.Wf) : c.taken.length = c.received := List.length_take_of_le h

theorem send_of_room {x : T} (hopen : c.closed = false) (hroom : c.queued.length + c.permits < c.capacity) :
    c.send x = some { c with sent := c.sent ++ [x] } := by
  simp [send, reserve, push, hopen, Nat.not_le.2 hroom]

theorem send_eq_some {x : T} {c' : Channel T} (h : c.send x = some c') : c' = { c with sent := c.sent ++ [x] } := by
  by_cases hopen : c.closed = false
  · by_cases hroom : c.queued.length + c.permits < c.capacity
    · rw [send_of_room hopen hroom] at h
      exact (Option.some.inj h).symm
    · simp [send, reserve, hopen, Nat.not_lt.1 hroom] at h
  · simp [send, reserve, hopen] at h

structure Next (c : Channel T) (x : T) (c' : Channel T) : Prop where
  lt : c.received < c.sent.length
  take : c.sent.take (c.received + 1) = c.taken ++ [x]
  mem : x ∈ c.sent
  queued : c.queued ≠ []
  after : c' = { c with received := c.received + 1 }

theorem next_of_queued_cons {x : T} {rest : List T} (h : c.queued = x :: rest) :
    c.Next x { c with received := c.received + 1 } := by
  have hlt : c.received < c.sent.length := by
    have hlength := congrArg List.length h
    rw [length_queued, List.length_cons] at hlength
    omega
  have hget : c.sent[c.received] = x := by
    have hdrop := List.drop_eq_getElem_cons hlt
    exact (List.cons.inj (hdrop.symm.trans h)).1
  refine ⟨hlt, ?_, hget ▸ List.getElem_mem hlt, h ▸ List.cons_ne_nil _ _, rfl⟩
  rw [← hget, taken, List.take_concat_get']

/-- What `recv` can return. -/
theorem recv_cases {abandoned : Bool} {r : Option T} {c' : Channel T} (h : c.recv abandoned = some (r, c')) :
    (∃ x, r = some x ∧ c.Next x c') ∨
    (r = none ∧ c' = c ∧ c.queued = [] ∧ (abandoned = true ∨ c.closed = true)) := by
  unfold recv at h
  split at h
  · rename_i x rest hqueued
    cases h
    exact Or.inl ⟨x, rfl, next_of_queued_cons hqueued⟩
  · rename_i hqueued
    split at h
    · rename_i hend
      cases h
      refine Or.inr ⟨rfl, rfl, hqueued, ?_⟩
      rcases Bool.or_eq_true_iff.1 hend with habandoned | hclosed
      · exact Or.inl habandoned
      · exact Or.inr (Bool.and_eq_true_iff.1 hclosed).1
    · cases h

theorem tryRecv_cases (c : Channel T) :
    (∃ x, c.tryRecv.1 = some x ∧ c.Next x c.tryRecv.2) ∨ (c.tryRecv = (none, c) ∧ c.queued = []) := by
  unfold tryRecv
  split
  · rename_i x rest hqueued
    exact Or.inl ⟨x, rfl, next_of_queued_cons hqueued⟩
  · rename_i hqueued
    exact Or.inr ⟨rfl, hqueued⟩

end Channel
