import RustRest.Lib.Threads

/-!
# The number of senders

A `WebSocketSender` is counted when it is cloned and when it is dropped, and the number is published to the driver: first
the counter is updated, then the value just computed is sent to a channel that keeps the last value only. Two drops can
send their values in the other order.

Main result: **`last_value_zero_iff`**.
-/

namespace RustRest

open Threads Threads.Prog

structure SenderUpdate where
  previous : ℕ
  ordinal : ℕ

inductive SenderAction : Type → Type where
  | fetchAdd : SenderAction SenderUpdate
  | fetchSub : SenderAction SenderUpdate
  | send (count ordinal : ℕ) : SenderAction Unit

/-- The counter first, then the watch channel. -/
def WebSocketSender.clone : Prog SenderAction Unit := do
  let update ← perform .fetchAdd
  perform (.send (update.previous + 1) update.ordinal)

/-- The counter first, then the watch channel. -/
def WebSocketSender.drop : Prog SenderAction Unit := do
  let update ← perform .fetchSub
  perform (.send (update.previous - 1) update.ordinal)

/-- The counter and the watch channel. `publicSenders` is an `AtomicUsize`, here without a bound: it would wrap only with
as many senders alive. -/
structure SenderCount where
  publicSenders : ℕ
  updates : ℕ
  published : ℕ
  publishedBy : ℕ

def SenderCount.new : SenderCount := ⟨1, 0, 1, 0⟩

def SenderAction.exec : {β : Type} → SenderAction β → SenderCount → Option (β × SenderCount)
  | _, .fetchAdd, s =>
    if s.publicSenders = 0 then none
    else some (⟨s.publicSenders, s.updates + 1⟩,
      { s with publicSenders := s.publicSenders + 1, updates := s.updates + 1 })
  | _, .fetchSub, s =>
    if s.publicSenders = 0 then none
    else some (⟨s.publicSenders, s.updates + 1⟩,
      { s with publicSenders := s.publicSenders - 1, updates := s.updates + 1 })
  | _, .send count ordinal, s => some ((), { s with published := count, publishedBy := ordinal })

def senderMachine : Machine SenderAction Unit Unit SenderCount where
  exec a _ _ s := a.exec s

def anySender (_ : SenderCount) (_ : Unit) (p : Prog SenderAction Unit) : Prop :=
  p = WebSocketSender.clone ∨ p = WebSocketSender.drop

structure SenderCount.Computed (s : SenderCount) (value ordinal : ℕ) : Prop where
  ordinal_le : ordinal ≤ s.updates
  last : ordinal = s.updates → value = s.publicSenders
  earlier : ordinal < s.updates → value ≠ 0

structure SenderCount.Tracked (s : SenderCount) (pending : Multiset (ℕ × ℕ)) : Prop where
  published : s.Computed s.published s.publishedBy
  pending : ∀ x ∈ pending, s.Computed x.1 x.2

section Steps

variable {s : SenderCount} {m : Multiset (ℕ × ℕ)} {n : ℕ}

theorem SenderCount.Computed.update {value ordinal : ℕ} (h : s.Computed value ordinal) (hsome : s.publicSenders ≠ 0) :
    SenderCount.Computed { s with publicSenders := n, updates := s.updates + 1 } value ordinal where
  ordinal_le := h.ordinal_le.trans (Nat.le_succ _)
  last heq := by
    have hle := h.ordinal_le
    dsimp only at heq
    omega
  earlier _ := by
    rcases Nat.lt_or_eq_of_le h.ordinal_le with hlt | heq
    · exact h.earlier hlt
    · rw [h.last heq]
      exact hsome

theorem SenderCount.Tracked.update (h : s.Tracked m) (hsome : s.publicSenders ≠ 0) :
    SenderCount.Tracked { s with publicSenders := n, updates := s.updates + 1 } ({(n, s.updates + 1)} + m) where
  published := h.published.update hsome
  pending x hx := by
    rcases Multiset.mem_add.1 hx with hx | hx
    · rw [Multiset.mem_singleton.1 hx]
      exact ⟨le_rfl, fun _ => rfl, fun hlt => absurd hlt (lt_irrefl _)⟩
    · exact (h.pending x hx).update hsome

theorem SenderCount.Tracked.send {value ordinal : ℕ} (h : s.Tracked ({(value, ordinal)} + m)) :
    SenderCount.Tracked { s with published := value, publishedBy := ordinal } m where
  published := by
    obtain ⟨hle, hlast, hearlier⟩ := h.pending _ (Multiset.mem_add.2 (Or.inl (Multiset.mem_singleton_self _)))
    exact ⟨hle, hlast, hearlier⟩
  pending x hx := by
    obtain ⟨hle, hlast, hearlier⟩ := h.pending x (Multiset.mem_add.2 (Or.inr hx))
    exact ⟨hle, hlast, hearlier⟩

theorem keeps_send (value ordinal : ℕ) :
    (perform (.send value ordinal)).Keeps senderMachine SenderCount.Tracked () {(value, ordinal)} fun _ d => d = 0 := by
  intro e s _ s' m hexec hI
  cases hexec
  exact ⟨0, (zero_add m).symm ▸ hI.send, rfl⟩

/-- An update of the counter by `f`, and the publication of what it came to. -/
theorem keeps_countUpdate (action : SenderAction SenderUpdate) (f : ℕ → ℕ) (hupdate : ∀ s, action.exec s =
      if s.publicSenders = 0 then none
      else some (⟨s.publicSenders, s.updates + 1⟩,
        { s with publicSenders := f s.publicSenders, updates := s.updates + 1 })) :
    (perform action >>= fun update => perform (.send (f update.previous) update.ordinal)).Keeps senderMachine
      SenderCount.Tracked () 0 fun _ d => d = 0 := by
  intro e s update s' m hexec hI
  replace hexec := (hupdate s).symm.trans hexec
  split at hexec
  · cases hexec
  · rename_i hsome
    cases hexec
    rw [zero_add] at hI
    exact ⟨_, hI.update hsome, keeps_send _ _⟩

end Steps

theorem tracked_new : SenderCount.new.Tracked 0 :=
  ⟨⟨le_rfl, fun _ => rfl, fun hlt => absurd hlt (lt_irrefl _)⟩, nofun⟩

/-- **The last value.** In every interleaving of clones and drops that starts with one sender: when all senders are
dropped, the value published last is 0 if and only if it comes from the last update of the counter. -/
theorem last_value_zero_iff {c : Config SenderAction Unit SenderCount Unit}
    (hrun : Run senderMachine anySender ⟨.new, []⟩ c) (hdropped : c.shared.publicSenders = 0) :
    c.shared.published = 0 ↔ c.shared.publishedBy = c.shared.updates := by
  have hstart : ∀ s l p, anySender s l p →
      p.Keeps senderMachine SenderCount.Tracked l 0 fun _ d => d = 0 := by
    rintro s l p (rfl | rfl)
    · exact keeps_countUpdate .fetchAdd (· + 1) fun _ => rfl
    · exact keeps_countUpdate .fetchSub (· - 1) fun _ => rfl
  have hnew : Owned senderMachine SenderCount.Tracked (fun (_ : Unit) d => d = 0) ⟨.new, []⟩ [] := ⟨.nil, tracked_new⟩
  obtain ⟨ds, howned⟩ := hnew.run hstart hrun
  obtain ⟨hle, hlast, hearlier⟩ := howned.2.published
  constructor
  · intro hzero
    by_contra hne
    exact hearlier (lt_of_le_of_ne hle hne) hzero
  · intro heq
    rw [hlast heq, hdropped]

def cloneAndDrops : List (Unit × Prog SenderAction Unit) :=
  [((), WebSocketSender.clone), ((), WebSocketSender.drop), ((), WebSocketSender.drop)]

theorem cloneAndDrops_start :
    Run senderMachine anySender ⟨.new, []⟩ ⟨.new, cloneAndDrops⟩ :=
  .head (.start (Or.inl rfl)) (.head (.start (Or.inr rfl)) (.single (.start (Or.inr rfl))))

/-- The first of two drops updates the counter to 1, the second to 0; the second publishes, then the first. All is done,
and the driver has 1. -/
theorem last_value_not_zero : ∃ c : Config SenderAction Unit SenderCount Unit,
    Run senderMachine anySender ⟨.new, []⟩ c ∧ (∀ t ∈ c.threads, ∃ r, t.2 = .done r) ∧
    c.shared.publicSenders = 0 ∧ c.shared.published = 1 := by
  obtain ⟨c, hrun, hdone, hcounts⟩ := cloneAndDrops_start.exists_perform
    (P := fun c => (∀ t ∈ c.threads, t.2.isDone) ∧ c.shared.publicSenders = 0 ∧ c.shared.published = 1)
    [(0, ()), (0, ()), (1, ()), (2, ()), (2, ()), (1, ())] (by decide +kernel)
  exact ⟨c, hrun, fun t ht => eq_done_of_isDone (hdone t ht), hcounts⟩

/-- The two drops one after the other. -/
theorem last_value_zero_in_order : ∃ c : Config SenderAction Unit SenderCount Unit,
    Run senderMachine anySender ⟨.new, []⟩ c ∧ c.shared.publicSenders = 0 ∧ c.shared.published = 0 := by
  obtain ⟨c, hrun, hcount, hlast⟩ := cloneAndDrops_start.exists_perform
    (P := fun c => c.shared.publicSenders = 0 ∧ c.shared.publishedBy = c.shared.updates)
    [(0, ()), (0, ()), (1, ()), (1, ()), (2, ()), (2, ())] (by decide +kernel)
  exact ⟨c, hrun, hcount, (last_value_zero_iff hrun hcount).2 hlast⟩

end RustRest
