import RustRest.Lib.Channel

/-!
# The stream of a static file

`file_stream` of `router.rs`. A producer task reads the file in chunks and sends them through a channel of capacity one;
the stream receives them. Each of the two keeps a count of its own of what is left of the requested length. The producer
can leave its loop at many places without a word (the lifetime is over, a read is cut off, a send stalls), and before the
first poll the start lease can take the file away.

The environment decides what happens next: a `StaticEvent` is a poll of the stream, the outcome of a read, a send that
succeeds or is given up, an expiry. `StaticRun.step` is the effect of one event, `StaticRun.run` of many.

Main result: **`staticBody_run`**.
-/

namespace RustRest

open List

/-! ## The model -/

def staticStreamChannelCapacity : ℕ := 1

inductive StreamErrorKind where
  | timedOut
  | unexpectedEof
  | other
  deriving Repr, DecidableEq

/-- `io::Error`, as the stream yields it. -/
structure StreamError where
  kind : StreamErrorKind
  message : String
  deriving Repr, DecidableEq

def StreamError.notPolled : StreamError := ⟨.timedOut, "static file body was not polled before its start deadline"⟩

def StreamError.fileEnded : StreamError := ⟨.unexpectedEof, "static file ended before content-length bytes were read"⟩

def StreamError.streamEnded : StreamError :=
  ⟨.unexpectedEof, "static file stream ended before content-length bytes were sent"⟩

/-- `io::Result<Bytes>`. -/
abbrev StreamItem := Except StreamError (List UInt8)

/-- `StaticStreamState`, and the end of the stream. -/
inductive StaticStreamState where
  | pending (len : ℕ)
  | active (remaining : ℕ)
  | finished
  | ended
  deriving DecidableEq

inductive Producer where
  | idle
  | reading (remaining : ℕ) (rest : List UInt8)
  | sending (item : StreamItem) (remaining : ℕ) (rest : List UInt8)

structure StaticRun where
  source : Option (List UInt8)
  producer : Producer
  channel : Channel StreamItem
  state : StaticStreamState
  yielded : List StreamItem

inductive StaticEvent where
  | expire
  | poll
  | leave
  | read (outcome : Except StreamError ℕ)
  | send
  | giveUp

/-- `file_stream` before anything happens. -/
def fileStream (len : ℕ) (file : List UInt8) : StaticRun where
  source := some file
  producer := .idle
  channel := .new staticStreamChannelCapacity
  state := .pending len
  yielded := []

def staticBody (len : ℕ) (file : List UInt8) : StaticRun :=
  -- for no bytes it is `stream::empty`, and the file is dropped
  if len = 0 then { fileStream len file with source := none, state := .finished } else fileStream len file

namespace StaticRun

def fail (s : StaticRun) (error : StreamError) : StaticRun :=
  { s with channel := s.channel.close, state := .finished, yielded := s.yielded ++ [.error error] }

def poll (s : StaticRun) : Option StaticRun :=
  match s.state with
  | .pending len =>
    match s.source with
    | none => some (s.fail .notPolled)
    | some file =>
      some { s with
        source := none, producer := .reading len file, channel := .new staticStreamChannelCapacity, state := .active len }
  | .active remaining =>
    match s.channel.recv (s.producer matches .idle) with
    | some (some (.ok bytes), channel) =>
      some { s with channel, state := .active (remaining - bytes.length), yielded := s.yielded ++ [.ok bytes] }
    | some (some (.error error), channel) => some ({ s with channel }.fail error)
    | some (none, _) => some (if 0 < remaining then s.fail .streamEnded else { s with state := .ended })
    | none => none
  | .finished => some { s with state := .ended }
  | .ended => none

def readOutcome (remaining : ℕ) (rest : List UInt8) : Except StreamError ℕ → Option Producer
  | .error error => some (.sending (.error error) remaining rest)
  | .ok 0 => some (.sending (.error .fileEnded) remaining rest)
  | .ok n =>
    if n ≤ min remaining (64 * 1024) ∧ n ≤ rest.length then
      some (.sending (.ok (rest.take n)) (remaining - n) (rest.drop n))
    else none

def afterSend (remaining : ℕ) (rest : List UInt8) : StreamItem → Producer
  | .ok _ => .reading remaining rest
  | .error _ => .idle

/-- What an event does to the producer, the channel and the stream. -/
def step (s : StaticRun) : StaticEvent → Option StaticRun
  -- the supervisor of the start lease
  | .expire => s.source.map fun _ => { s with source := none }
  | .poll => s.poll
  -- nothing is left to read; the lifetime is over; the read was cut off or its task failed
  | .leave =>
    match s.producer with
    | .reading _ _ => some { s with producer := .idle }
    | _ => none
  | .read outcome =>
    match s.producer with
    | .reading remaining rest =>
      if 0 < remaining then (readOutcome remaining rest outcome).map fun producer => { s with producer } else none
    | _ => none
  | .send =>
    match s.producer with
    | .sending item remaining rest =>
      (s.channel.send item).map fun channel => { s with channel, producer := afterSend remaining rest item }
    | _ => none
  -- the send stalled, the lifetime is over, or the receiver is gone
  | .giveUp =>
    match s.producer with
    | .sending _ _ _ => some { s with producer := .idle }
    | _ => none

def run (s : StaticRun) (events : List StaticEvent) : Option StaticRun := events.foldlM step s

/-! ## What one step can do -/

inductive Move (s : StaticRun) : StaticRun → Prop where
  | expire {file : List UInt8} (hsource : s.source = some file) : Move s { s with source := none }
  | refuse {len : ℕ} (hstate : s.state = .pending len) (hsource : s.source = none) : Move s (s.fail .notPolled)
  | start {len : ℕ} {file : List UInt8} (hstate : s.state = .pending len) (hsource : s.source = some file) :
      Move s { s with
        source := none, producer := .reading len file, channel := .new staticStreamChannelCapacity, state := .active len }
  | receive {remaining : ℕ} {bytes : List UInt8} {channel : Channel StreamItem} (hstate : s.state = .active remaining)
      (hnext : s.channel.Next (.ok bytes) channel) :
      Move s { s with channel, state := .active (remaining - bytes.length), yielded := s.yielded ++ [.ok bytes] }
  | receiveError {remaining : ℕ} {error : StreamError} {channel : Channel StreamItem}
      (hstate : s.state = .active remaining) (hnext : s.channel.Next (.error error) channel) :
      Move s ({ s with channel }.fail error)
  | truncated {remaining : ℕ} (hstate : s.state = .active remaining) (hleft : 0 < remaining) :
      Move s (s.fail .streamEnded)
  | complete (hstate : s.state = .active 0) : Move s { s with state := .ended }
  | finish (hstate : s.state = .finished) : Move s { s with state := .ended }
  | stop (hproducer : s.producer ≠ .idle) : Move s { s with producer := .idle }
  | read {remaining n : ℕ} {rest : List UInt8} (hproducer : s.producer = .reading remaining rest) (hpos : 0 < n)
      (hleft : n ≤ remaining) (hrest : n ≤ rest.length) :
      Move s { s with producer := .sending (.ok (rest.take n)) (remaining - n) (rest.drop n) }
  | readError {remaining : ℕ} {rest : List UInt8} {error : StreamError} (hproducer : s.producer = .reading remaining rest)
      (hleft : 0 < remaining) : Move s { s with producer := .sending (.error error) remaining rest }
  | send {item : StreamItem} {remaining : ℕ} {rest : List UInt8} (hproducer : s.producer = .sending item remaining rest) :
      Move s { s with
        channel := { s.channel with sent := s.channel.sent ++ [item] }, producer := afterSend remaining rest item }

variable {s s' : StaticRun}

theorem poll_move (h : s.poll = some s') : s.Move s' := by
  unfold poll at h
  split at h
  · rename_i len hstate
    split at h
    · rename_i hsource
      cases h
      exact .refuse hstate hsource
    · rename_i file hsource
      cases h
      exact .start hstate hsource
  · rename_i remaining hstate
    split at h
    · rename_i bytes channel hrecv
      cases h
      obtain ⟨x, hx, hnext⟩ | ⟨hx, -⟩ := Channel.recv_cases hrecv
      · cases hx
        exact .receive hstate hnext
      · cases hx
    · rename_i error channel hrecv
      cases h
      obtain ⟨x, hx, hnext⟩ | ⟨hx, -⟩ := Channel.recv_cases hrecv
      · cases hx
        exact .receiveError hstate hnext
      · cases hx
    · rename_i channel hrecv
      split at h
      · rename_i hleft
        cases h
        exact .truncated hstate hleft
      · rename_i hleft
        cases h
        obtain rfl : remaining = 0 := by omega
        exact .complete hstate
    · cases h
  · rename_i hstate
    cases h
    exact .finish hstate
  · cases h

theorem readOutcome_move {remaining : ℕ} {rest : List UInt8} {outcome : Except StreamError ℕ} {producer : Producer}
    (hproducer : s.producer = .reading remaining rest) (hleft : 0 < remaining)
    (h : readOutcome remaining rest outcome = some producer) : s.Move { s with producer } := by
  unfold readOutcome at h
  split at h
  · cases h
    exact .readError hproducer hleft
  · cases h
    exact .readError hproducer hleft
  · rename_i n hn
    split at h
    · rename_i hfits
      cases h
      exact .read hproducer (by rcases n with _ | n <;> simp_all) (by omega) hfits.2
    · cases h

/-- What one step can do. -/
theorem step_move {event : StaticEvent} (h : s.step event = some s') : s.Move s' := by
  cases event with
  | expire =>
    obtain ⟨file, hsource, rfl⟩ := Option.map_eq_some_iff.1 h
    exact .expire hsource
  | poll => exact poll_move h
  | leave =>
    simp only [step] at h
    split at h
    · rename_i remaining rest hproducer
      cases h
      exact .stop (by simp [hproducer])
    · cases h
  | read outcome =>
    simp only [step] at h
    split at h
    · rename_i remaining rest hproducer
      split at h
      · rename_i hleft
        obtain ⟨producer, hread, rfl⟩ := Option.map_eq_some_iff.1 h
        exact readOutcome_move hproducer hleft hread
      · cases h
    · cases h
  | send =>
    simp only [step] at h
    split at h
    · rename_i item remaining rest hproducer
      obtain ⟨channel, hsend, rfl⟩ := Option.map_eq_some_iff.1 h
      rw [Channel.send_eq_some hsend]
      exact .send hproducer
    · cases h
  | giveUp =>
    simp only [step] at h
    split at h
    · rename_i item remaining rest hproducer
      cases h
      exact .stop (by simp [hproducer])
    · cases h

end StaticRun

/-! ## Items that were delivered -/

section Items

variable {len : ℕ} {content : List UInt8} {items : List StreamItem}

def Delivered (len : ℕ) (content : List UInt8) (items : List StreamItem) (rest : List UInt8) (remaining : ℕ) : Prop :=
  ∃ chunks : List (List UInt8),
    items = chunks.map .ok ∧ chunks.flatten ++ rest = content ∧ chunks.flatten.length + remaining = len

def Failed (len : ℕ) (content : List UInt8) (items : List StreamItem) : Prop :=
  ∃ chunks error rest remaining,
    items = chunks ++ [.error error] ∧ Delivered len content chunks rest remaining ∧ 0 < remaining

/-- Chunks, with an error after them or not. -/
def Underway (len : ℕ) (content : List UInt8) (items : List StreamItem) : Prop :=
  (∃ rest remaining, Delivered len content items rest remaining) ∨ Failed len content items

theorem delivered_nil : Delivered len content [] content len := ⟨[], rfl, rfl, Nat.zero_add len⟩

theorem Delivered.remaining_eq {rest rest' : List UInt8} {remaining remaining' : ℕ}
    (h : Delivered len content items rest remaining) (h' : Delivered len content items rest' remaining') :
    remaining = remaining' := by
  obtain ⟨chunks, rfl, -, hlength⟩ := h
  obtain ⟨chunks', hchunks, -, hlength'⟩ := h'
  obtain rfl : chunks = chunks' := map_injective_iff.2 (fun _ _ => Except.ok.inj) hchunks
  omega

variable {remaining : ℕ}

theorem Delivered.snoc {bytes rest : List UInt8}
    (h : Delivered len content items (bytes ++ rest) (bytes.length + remaining)) :
    Delivered len content (items ++ [.ok bytes]) rest remaining := by
  obtain ⟨chunks, rfl, hcontent, hlength⟩ := h
  refine ⟨chunks ++ [bytes], by simp, by simpa using hcontent, ?_⟩
  simp only [flatten_append, flatten_singleton, length_append]
  omega

theorem Delivered.of_append {more : List StreamItem} {rest : List UInt8}
    (h : Delivered len content (items ++ more) rest remaining) :
    ∃ later : List (List UInt8), more = later.map .ok ∧
      Delivered len content items (later.flatten ++ rest) (later.flatten.length + remaining) := by
  obtain ⟨chunks, hitems, hcontent, hlength⟩ := h
  obtain ⟨first, later, rfl, rfl, rfl⟩ := map_eq_append_iff.1 hitems.symm
  refine ⟨later, rfl, first, rfl, by simpa using hcontent, ?_⟩
  simp only [flatten_append, length_append] at hlength
  omega

theorem Delivered.fail {rest : List UInt8} (h : Delivered len content items rest remaining)
    (hleft : 0 < remaining) (error : StreamError) : Failed len content (items ++ [.error error]) :=
  ⟨items, error, rest, remaining, rfl, h, hleft⟩

theorem Underway.of_append {more : List StreamItem} (h : Underway len content (items ++ more)) :
    Underway len content items := by
  rcases eq_nil_or_concat more with rfl | ⟨more, last, rfl⟩
  · simpa using h
  · rcases h with ⟨rest, remaining, h⟩ | ⟨chunks, error, rest, remaining, hitems, h, -⟩
    · obtain ⟨later, -, h⟩ := h.of_append
      exact .inl ⟨_, _, h⟩
    · rw [concat_eq_append, ← append_assoc] at hitems
      obtain ⟨rfl, -⟩ := append_inj' hitems rfl
      obtain ⟨later, -, h⟩ := h.of_append
      exact .inl ⟨_, _, h⟩

theorem Underway.snoc_ok {bytes : List UInt8} (h : Underway len content (items ++ [.ok bytes])) :
    ∃ rest remaining, Delivered len content items (bytes ++ rest) (bytes.length + remaining) := by
  rcases h with ⟨rest, remaining, h⟩ | ⟨chunks, error, rest, remaining, hitems, -⟩
  · obtain ⟨later, hlater, h⟩ := h.of_append
    obtain ⟨chunk, rfl, hchunk⟩ := map_eq_singleton_iff.1 hlater.symm
    cases hchunk
    exact ⟨rest, remaining, by simpa using h⟩
  · obtain ⟨-, hlast⟩ := append_inj' hitems rfl
    cases hlast

theorem Underway.snoc_error {error : StreamError} (h : Underway len content (items ++ [.error error])) :
    Failed len content (items ++ [.error error]) := by
  rcases h with ⟨rest, remaining, h⟩ | h
  · obtain ⟨later, hlater, -⟩ := h.of_append
    obtain ⟨chunk, -, hchunk⟩ := map_eq_singleton_iff.1 hlater.symm
    cases hchunk
  · exact h

theorem Delivered.chunks {rest : List UInt8}
    (h : Delivered len content items rest remaining) : ∃ chunks : List (List UInt8), items = chunks.map .ok ∧
      chunks.flatten <+: content.take len ∧ chunks.flatten.length + remaining = len := by
  obtain ⟨chunks, rfl, hcontent, hlength⟩ := h
  refine ⟨chunks, rfl, ?_, hlength⟩
  exact prefix_take_iff.2 ⟨⟨rest, hcontent⟩, by omega⟩

end Items

/-! ## The invariant -/

/-- What the producer has sent, as it stands. -/
def Producer.Inv (len : ℕ) (content : List UInt8) (sent : List StreamItem) : Producer → Prop
  | .idle => Underway len content sent
  | .reading remaining rest => Delivered len content sent rest remaining
  | .sending (.ok bytes) remaining rest => Delivered len content (sent ++ [.ok bytes]) rest remaining
  | .sending (.error _) remaining rest => Delivered len content sent rest remaining ∧ 0 < remaining

theorem Producer.Inv.underway {len : ℕ} {content : List UInt8} {sent : List StreamItem} {producer : Producer}
    (h : producer.Inv len content sent) : Underway len content sent := by
  match producer, h with
  | .idle, h => exact h
  | .reading _ _, h => exact .inl ⟨_, _, h⟩
  | .sending (.ok bytes) _ _, h =>
    have hsent : Underway len content (sent ++ [.ok bytes]) := .inl ⟨_, _, h⟩
    exact hsent.of_append
  | .sending (.error _) _ _, h => exact .inl ⟨_, _, h.1⟩

namespace StaticRun

structure Flowing (len : ℕ) (content : List UInt8) (remaining : ℕ) (s : StaticRun) : Prop where
  source : s.source = none
  producer : s.producer.Inv len content s.channel.sent
  isOpen : s.channel.closed = false
  permits : s.channel.permits = 0
  capacity : s.channel.capacity = staticStreamChannelCapacity
  wf : s.channel.Wf
  yielded : s.yielded = s.channel.taken
  delivered : ∃ rest, Delivered len content s.yielded rest remaining

def Closed (len : ℕ) (content : List UInt8) (s : StaticRun) : Prop :=
  (∃ rest, Delivered len content s.yielded rest 0) ∨ Failed len content s.yielded

def Inv (len : ℕ) (content : List UInt8) (s : StaticRun) : Prop :=
  match s.state with
  | .pending n =>
    n = len ∧ 0 < len ∧ s.yielded = [] ∧ s.producer = .idle ∧ ∀ file ∈ s.source, file = content
  | .active remaining => s.Flowing len content remaining
  | .finished | .ended => s.Closed len content

variable {len : ℕ} {content : List UInt8} {s s' : StaticRun}

theorem staticBody_inv (len : ℕ) (content : List UInt8) : (staticBody len content).Inv len content := by
  unfold staticBody
  split
  · rename_i hlen
    subst hlen
    exact .inl ⟨content, delivered_nil⟩
  · rename_i hlen
    refine ⟨rfl, by omega, rfl, rfl, ?_⟩
    rintro file hfile
    exact (Option.some.inj hfile).symm

variable {remaining : ℕ}

theorem Flowing.produce {producer : Producer} {sent : List StreamItem}
    (h : s.Flowing len content remaining) (hsent : s.channel.sent <+: sent) (hproducer : producer.Inv len content sent) :
    Flowing len content remaining { s with producer, channel := { s.channel with sent } } := by
  obtain ⟨more, rfl⟩ := hsent
  refine ⟨h.source, hproducer, h.isOpen, h.permits, h.capacity, ?_, ?_, h.delivered⟩
  · simpa [Channel.Wf] using Nat.le_add_right_of_le h.wf
  · rw [h.yielded]
    exact (take_append_of_le_length h.wf).symm

theorem Flowing.next {item : StreamItem} {channel : Channel StreamItem}
    (h : s.Flowing len content remaining) (hnext : s.channel.Next item channel) :
    Underway len content (s.yielded ++ [item]) := by
  have htake := take_append_drop (s.channel.received + 1) s.channel.sent
  rw [hnext.take, ← h.yielded] at htake
  have hsent := h.producer.underway
  rw [← htake] at hsent
  exact hsent.of_append

theorem Flowing.receive {bytes : List UInt8} {channel : Channel StreamItem}
    (h : s.Flowing len content remaining) (hnext : s.channel.Next (.ok bytes) channel) :
    Flowing len content (remaining - bytes.length) { s with
      channel, state := .active (remaining - bytes.length), yielded := s.yielded ++ [.ok bytes] } := by
  obtain ⟨rest, left, hdelivered⟩ := (h.next hnext).snoc_ok
  obtain ⟨_, hcount⟩ := h.delivered
  have hremaining : remaining - bytes.length = left := by
    have := hcount.remaining_eq hdelivered
    omega
  obtain rfl := hnext.after
  refine ⟨h.source, h.producer, h.isOpen, h.permits, h.capacity, hnext.lt, ?_, rest, hremaining ▸ hdelivered.snoc⟩
  rw [h.yielded]
  exact hnext.take.symm

theorem Inv.produce {producer : Producer} {sent : List StreamItem} (h : s.Inv len content) (hrunning : s.producer ≠ .idle)
    (hsent : s.channel.sent <+: sent)
    (hkeep : s.producer.Inv len content s.channel.sent → producer.Inv len content sent) :
    Inv len content { s with producer, channel := { s.channel with sent } } := by
  unfold Inv at h ⊢
  split at h <;> rename_i hstate <;> simp only [hstate]
  · exact absurd h.2.2.2.1 hrunning
  · simpa only [hstate] using h.produce hsent (hkeep h.producer)
  · exact h
  · exact h

/-- **One step keeps the invariant.** -/
theorem Inv.step (h : s.Inv len content) (hmove : s.Move s') : s'.Inv len content := by
  cases hmove with
  | expire hsource =>
    unfold Inv at h ⊢
    split at h <;> rename_i hstate <;> simp only [hstate]
    · obtain ⟨rfl, hlen, hyielded, hidle, -⟩ := h
      exact ⟨rfl, hlen, hyielded, hidle, by simp⟩
    · rw [h.source] at hsource
      cases hsource
    · exact h
    · exact h
  | @refuse n hstate hsource =>
    simp only [Inv, hstate] at h
    obtain ⟨rfl, hlen, hyielded, -⟩ := h
    have hnothing : Delivered n content s.yielded content n := by
      rw [hyielded]
      exact delivered_nil
    exact .inr (hnothing.fail hlen _)
  | @start n file hstate hsource =>
    simp only [Inv, hstate] at h
    obtain ⟨rfl, hlen, hyielded, -, hfile⟩ := h
    obtain rfl := hfile file hsource
    exact ⟨rfl, delivered_nil, rfl, rfl, rfl, Nat.le_refl 0, hyielded, file, hyielded ▸ delivered_nil⟩
  | receive hstate hnext =>
    simp only [Inv, hstate] at h
    exact h.receive hnext
  | receiveError hstate hnext =>
    simp only [Inv, hstate] at h
    exact .inr (h.next hnext).snoc_error
  | truncated hstate hleft =>
    simp only [Inv, hstate] at h
    obtain ⟨rest, hdelivered⟩ := h.delivered
    exact .inr (hdelivered.fail hleft _)
  | complete hstate =>
    simp only [Inv, hstate] at h
    exact .inl h.delivered
  | finish hstate =>
    simp only [Inv, hstate] at h
    exact h
  | stop hproducer => exact h.produce hproducer (prefix_refl _) Producer.Inv.underway
  | @read remaining n rest hproducer hpos hleft hrest =>
    refine h.produce (by simp [hproducer]) (prefix_refl _) fun hsent => ?_
    rw [hproducer] at hsent
    have hlength : (rest.take n).length = n := length_take_of_le hrest
    refine Delivered.snoc ?_
    rw [take_append_drop, hlength, Nat.add_sub_cancel' hleft]
    exact hsent
  | readError hproducer hleft =>
    refine h.produce (by simp [hproducer]) (prefix_refl _) fun hsent => ?_
    rw [hproducer] at hsent
    exact ⟨hsent, hleft⟩
  | @send item remaining rest hproducer =>
    refine h.produce (by simp [hproducer]) (prefix_append _ _) fun hsent => ?_
    rw [hproducer] at hsent
    cases item with
    | ok bytes => exact hsent
    | error error => exact .inr (hsent.1.fail hsent.2 error)

/-- In every run. -/
theorem run_inv {events : List StaticEvent} (h : s.Inv len content) (hrun : s.run events = some s') :
    s'.Inv len content := by
  induction events generalizing s with
  | nil =>
    cases hrun
    exact h
  | cons event events ih =>
    obtain ⟨next, hnext, hrest⟩ := Option.bind_eq_some_iff.1 hrun
    exact ih (h.step (step_move hnext)) hrest

/-! ## Runs end -/

/-- How many steps the start lease, the producer with the items it sends, and the stream's own states can take. -/
def leaseSteps : Option (List UInt8) → ℕ
  | none => 0
  | some _ => 1

@[inherit_doc leaseSteps]
def producerSteps : Producer → ℕ
  | .idle => 0
  | .reading remaining _ => 3 * remaining + 1
  | .sending (.ok _) remaining _ => 3 * remaining + 3
  | .sending (.error _) _ _ => 2

@[inherit_doc leaseSteps]
def stateSteps : StaticStreamState → ℕ
  | .pending len => 3 * len + 4
  | .active _ => 2
  | .finished => 1
  | .ended => 0

/-- How many steps are left at most. -/
def fuel (s : StaticRun) : ℕ :=
  leaseSteps s.source + producerSteps s.producer + s.channel.queued.length + stateSteps s.state

theorem producerSteps_pos {producer : Producer} (h : producer ≠ .idle) : 0 < producerSteps producer := by
  match producer, h with
  | .reading _ _, _ => exact Nat.succ_pos _
  | .sending (.ok _) _ _, _ => exact Nat.succ_pos _
  | .sending (.error _) _ _, _ => exact Nat.succ_pos _

theorem producerSteps_afterSend (item : StreamItem) (remaining : ℕ) (rest : List UInt8) :
    producerSteps (afterSend remaining rest item) + 1 < producerSteps (.sending item remaining rest) := by
  cases item with
  | ok bytes | error error => simp [afterSend, producerSteps]

theorem fuel_lt (hmove : s.Move s') : s'.fuel < s.fuel := by
  cases hmove with
  | expire hsource => simp [fuel, leaseSteps, hsource]
  | refuse hstate hsource =>
    simp only [fuel, fail, hstate, stateSteps, Channel.close, Channel.queued]
    omega
  | start hstate hsource =>
    simp only [fuel, hstate, hsource, stateSteps, leaseSteps, producerSteps, Channel.length_queued, Channel.new,
      length_nil]
    omega
  | receive hstate hnext =>
    obtain rfl := hnext.after
    have hwaits := hnext.lt
    simp only [fuel, hstate, stateSteps, Channel.length_queued]
    omega
  | receiveError hstate hnext =>
    obtain rfl := hnext.after
    simp only [fuel, fail, hstate, stateSteps, Channel.length_queued, Channel.close]
    omega
  | truncated hstate hleft => simp [fuel, fail, hstate, stateSteps, Channel.close, Channel.queued]
  | complete hstate | finish hstate => simp [fuel, hstate, stateSteps]
  | stop hproducer =>
    have hpos := producerSteps_pos hproducer
    have hidle : producerSteps .idle = 0 := rfl
    simp only [fuel, hidle]
    omega
  | read hproducer hpos hleft hrest | readError hproducer hleft =>
    simp only [fuel, hproducer, producerSteps]
    omega
  | @send item remaining rest hproducer =>
    have hsteps := producerSteps_afterSend item remaining rest
    simp only [fuel, hproducer, Channel.length_queued, length_append, length_singleton]
    omega

theorem length_le_fuel {events : List StaticEvent} (hrun : s.run events = some s') :
    events.length + s'.fuel ≤ s.fuel := by
  induction events generalizing s with
  | nil =>
    cases hrun
    simp
  | cons event events ih =>
    obtain ⟨next, hnext, hrest⟩ := Option.bind_eq_some_iff.1 hrun
    have hlt := fuel_lt (step_move hnext)
    have hle := ih hrest
    rw [length_cons]
    omega

theorem poll_of_recv {received : Option StreamItem × Channel StreamItem}
    (hstate : s.state = .active remaining)
    (hrecv : s.channel.recv (s.producer matches .idle) = some received) : ∃ s', s.poll = some s' := by
  unfold poll
  simp only [hstate, hrecv]
  match received with
  | (some (.ok _), _) => exact ⟨_, rfl⟩
  | (some (.error _), _) => exact ⟨_, rfl⟩
  | (none, _) => exact ⟨_, rfl⟩

theorem Flowing.progress (h : s.Flowing len content remaining) (hstate : s.state = .active remaining) :
    ∃ event s', s.step event = some s' := by
  match hqueued : s.channel.queued with
  | item :: items => exact ⟨.poll, poll_of_recv hstate (by rw [Channel.recv, hqueued])⟩
  | [] =>
    match hproducer : s.producer with
    | .idle => exact ⟨.poll, poll_of_recv hstate (by rw [Channel.recv, hqueued, hproducer]; rfl)⟩
    | .reading 0 rest => exact ⟨.leave, Option.isSome_iff_exists.1 (by simp [step, hproducer])⟩
    -- whatever a read returns: here the end of the file
    | .reading (n + 1) rest => exact ⟨.read (.ok 0), Option.isSome_iff_exists.1 (by simp [step, hproducer, readOutcome])⟩
    | .sending item n rest =>
      have hroom : s.channel.queued.length + s.channel.permits < s.channel.capacity := by
        rw [hqueued, h.permits, h.capacity]
        decide
      exact ⟨.send, Option.isSome_iff_exists.1 (by simp [step, hproducer, Channel.send_of_room h.isOpen hroom])⟩

theorem Inv.progress (h : s.Inv len content) (hend : s.state ≠ .ended) : ∃ event s', s.step event = some s' := by
  match hstate : s.state with
  | .pending n =>
    refine ⟨.poll, ?_⟩
    simp only [StaticRun.step, poll, hstate]
    cases s.source with
    | none | some file => exact ⟨_, rfl⟩
  | .active remaining =>
    simp only [Inv, hstate] at h
    exact h.progress hstate
  | .finished => exact ⟨.poll, Option.isSome_iff_exists.1 (by simp [StaticRun.step, poll, hstate])⟩
  | .ended => exact absurd hstate hend

/-! ## What the stream yields -/

def Truthful (len : ℕ) (content : List UInt8) (s : StaticRun) : Prop :=
  ∃ chunks : List (List UInt8), chunks.flatten <+: content.take len ∧ chunks.flatten.length ≤ len ∧
    ((s.yielded = chunks.map .ok ∧ (s.state = .ended → chunks.flatten.length = len)) ∨
      ∃ error, s.yielded = chunks.map .ok ++ [.error error] ∧ chunks.flatten.length < len)

theorem truthful_of_failed (h : Failed len content s.yielded) : s.Truthful len content := by
  obtain ⟨items, error, rest, remaining, hyielded, hdelivered, hleft⟩ := h
  obtain ⟨chunks, rfl, hfirst, hlength⟩ := hdelivered.chunks
  exact ⟨chunks, hfirst, by omega, .inr ⟨error, hyielded, by omega⟩⟩

theorem truthful_of_delivered {rest : List UInt8} (h : Delivered len content s.yielded rest remaining)
    (hend : s.state = .ended → remaining = 0) : s.Truthful len content := by
  obtain ⟨chunks, hyielded, hfirst, hlength⟩ := h.chunks
  refine ⟨chunks, hfirst, by omega, .inl ⟨hyielded, fun hended => ?_⟩⟩
  rw [hend hended] at hlength
  exact hlength

theorem Inv.truthful (h : s.Inv len content) : s.Truthful len content := by
  unfold Inv at h
  split at h
  · rename_i n hstate
    have hnothing : Delivered len content s.yielded content len := by
      rw [h.2.2.1]
      exact delivered_nil
    exact truthful_of_delivered hnothing (by simp [hstate])
  · rename_i remaining hstate
    obtain ⟨rest, hdelivered⟩ := h.delivered
    exact truthful_of_delivered hdelivered (by simp [hstate])
  all_goals
    rcases h with ⟨rest, hdelivered⟩ | hfailed
    · exact truthful_of_delivered hdelivered fun _ => rfl
    · exact truthful_of_failed hfailed

theorem staticBody_fuel (len : ℕ) (content : List UInt8) : (staticBody len content).fuel ≤ 3 * len + 5 := by
  unfold staticBody
  split
  · simp [fuel, fileStream, leaseSteps, producerSteps, stateSteps, Channel.length_queued, Channel.new]
  · simp only [fuel, fileStream, leaseSteps, producerSteps, stateSteps, Channel.length_queued, Channel.new,
      length_nil]
    omega

end StaticRun

/-- **The stream of a static file.** In every run it yields chunks that are the first of the selected bytes, and no more
than `len` of them. It ends cleanly when, and only when, it has yielded all of them, and otherwise with one error. No run
is longer than `3 * len + 5` steps, and a run can stop only where the stream has ended. -/
theorem staticBody_run {len : ℕ} {content : List UInt8} {events : List StaticEvent} {s : StaticRun}
    (hrun : (staticBody len content).run events = some s) :
    s.Truthful len content ∧ events.length ≤ 3 * len + 5 ∧
      (s.state ≠ .ended → ∃ event s', s.step event = some s') := by
  have hinv := StaticRun.run_inv (StaticRun.staticBody_inv len content) hrun
  refine ⟨hinv.truthful, ?_, hinv.progress⟩
  calc events.length
      ≤ events.length + s.fuel := Nat.le_add_right _ _
    _ ≤ (staticBody len content).fuel := StaticRun.length_le_fuel hrun
    _ ≤ 3 * len + 5 := StaticRun.staticBody_fuel len content

/-- Two short reads of a file that is longer than the range, and a clean end. -/
theorem staticBody_run_short_reads :
    ∃ s, (staticBody 3 [1, 2, 3, 4]).run
        [.poll, .read (.ok 2), .send, .poll, .read (.ok 1), .send, .poll, .leave, .poll] = some s ∧
      s.state = .ended ∧ s.yielded = [.ok [1, 2], .ok [3]] ∧ s.Truthful 3 [1, 2, 3, 4] := by
  refine ⟨_, rfl, rfl, rfl, ?_⟩
  exact (staticBody_run (rfl : (staticBody 3 [1, 2, 3, 4]).run
    [.poll, .read (.ok 2), .send, .poll, .read (.ok 1), .send, .poll, .leave, .poll] = some _)).1

/-- `file_stream` itself is not used for no bytes: its lease could expire, and it would end with an error although all
of its bytes were yielded. -/
theorem fileStream_nothing :
    ∃ s, (fileStream 0 []).run [.expire, .poll, .poll] = some s ∧ s.state = .ended ∧
      s.yielded = [.error .notPolled] ∧ ¬ s.Truthful 0 [] := by
  refine ⟨_, rfl, rfl, rfl, ?_⟩
  rintro ⟨chunks, -, -, ⟨hyielded, -⟩ | ⟨error, -, hshort⟩⟩
  · obtain ⟨chunk, -, hchunk⟩ := map_eq_singleton_iff.1 hyielded.symm
    cases hchunk
  · exact absurd hshort (Nat.not_lt_zero _)

end RustRest
