import RustRest.Http1.Head

/-!
# The transport inspector

`Http1InspectedIo::observe` sees every read before Hyper does and pushes one verdict for each request head into the queue
that the service takes them from. One turn of its loop is `observeTurn`; the call of `observe` on the bytes behind a
buffered head is one more turn.
-/

namespace RustRest

open Framing

/-! ## The verdict queue -/

def maxPendingVerdicts : ℕ := 256

/-- `Http1Verdicts`, the verdicts not taken yet. -/
abbrev Http1Verdicts := List HeadVerdict

/-- A verdict is queued, unless 256 wait. -/
def Http1Verdicts.push (pending : Http1Verdicts) (verdict : HeadVerdict) : Bool × Http1Verdicts :=
  if pending.length ≥ maxPendingVerdicts then (false, pending) else (true, pending ++ [verdict])

/-- The oldest verdict, or `Unclassified`. -/
def Http1Verdicts.next : Http1Verdicts → HeadVerdict × Http1Verdicts
  | [] => (.unclassified, [])
  | verdict :: pending => (verdict, pending)

/-! ## The inspector -/

/-- Inside a head, inside a body, or no longer inspecting. -/
inductive InspectState where
  | head
  | body (remaining : ℕ)
  | passthrough
  deriving DecidableEq, Repr

/-- `Http1InspectedIo`, without the transport it wraps. -/
structure Http1InspectedIo where
  state : InspectState
  head : List UInt8
  headScanned : ℕ
  maxHeadBytes : ℕ
  maxHeaders : ℕ
  deriving DecidableEq, Repr

def Http1InspectedIo.new (maxHeadBytes maxHeaders : ℕ) : Http1InspectedIo where
  state := .head
  head := []
  headScanned := 0
  maxHeadBytes := maxHeadBytes
  maxHeaders := maxHeaders

/-- An empty line, with or without carriage return. -/
def containsHeadTerminator (bytes : List UInt8) (scanned : ℕ) : Bool :=
  let window := bytes.drop (scanned - 2)
  decide ([10, 10] <:+: window) || decide ([10, 13, 10] <:+: window)

namespace Http1InspectedIo

/-- The verdict is queued; unless it is persistent, inspection ends. -/
def finishHead (io : Http1InspectedIo) (pending : Http1Verdicts) (verdict : HeadVerdict) (bodyLength : ℕ) :
    Http1InspectedIo × Http1Verdicts :=
  let (accepted, pending) := pending.push verdict
  if verdict = .persistent ∧ accepted = true then
    ({ io with state := if bodyLength = 0 then .head else .body bodyLength }, pending)
  else ({ io with state := .passthrough, head := [], headScanned := 0 }, pending)

/-- A head that is not complete is kept; one that is too long is terminal. -/
def bufferPartialHead (io : Http1InspectedIo) (pending : Http1Verdicts) (bytes : List UInt8) :
    Http1InspectedIo × Http1Verdicts :=
  if bytes.length ≥ io.maxHeadBytes then io.finishHead pending .terminal 0
  else
    let head := trimLeadingEmptyLines (io.head ++ bytes)
    ({ io with head := head, headScanned := head.length }, pending)

variable (httparse : ℕ → HeadScanner RequestHead)

def observeTurn (io : Http1InspectedIo) (pending : Http1Verdicts) (input : List UInt8) :
    (Http1InspectedIo × Http1Verdicts) × List UInt8 :=
  match io.state with
  | .passthrough => ((io, pending), [])
  | .body remaining =>
    let skipped := min remaining input.length
    (({ io with state := if remaining - skipped = 0 then .head else .body (remaining - skipped) }, pending),
      input.drop skipped)
  | .head =>
    if io.head = [] then
      match (inspectHead httparse io.maxHeaders).scan input with
      | .complete length (verdict, bodyLength) => (io.finishHead pending verdict bodyLength, input.drop length)
      | .incomplete => (io.bufferPartialHead pending input, [])
      | .invalid => (io.finishHead pending .terminal 0, [])
    else
      let head := trimLeadingEmptyLines (io.head ++ input)
      let skipped := (io.head ++ input).length - head.length
      let io := { io with head := head, headScanned := io.headScanned - skipped }
      if head = [] then ((io, pending), [])
      -- parsed again only once an empty line may have arrived
      else if !containsHeadTerminator head io.headScanned then
        let io := { io with headScanned := head.length }
        if head.length ≥ io.maxHeadBytes then (io.finishHead pending .terminal 0, []) else ((io, pending), [])
      else match (inspectHead httparse io.maxHeaders).scan head with
        | .complete length (verdict, bodyLength) =>
          let io := { io with head := [], headScanned := 0 }
          (io.finishHead pending verdict bodyLength, head.drop length)
        | .incomplete =>
          if head.length ≥ io.maxHeadBytes then (io.finishHead pending .terminal 0, []) else ((io, pending), [])
        | .invalid => (io.finishHead pending .terminal 0, [])

theorem observeTurn_cases (io : Http1InspectedIo) (input : List UInt8) :
    (∃ (io' : Http1InspectedIo) (rest : List UInt8),
      (∀ pending, observeTurn httparse io pending input = ((io', pending), rest)) ∧
      (io'.state = .passthrough ↔ io.state = .passthrough) ∧ io'.maxHeadBytes = io.maxHeadBytes ∧
      io'.maxHeaders = io.maxHeaders) ∨
    ∃ (io₁ : Http1InspectedIo) (v : HeadVerdict) (l : ℕ) (rest : List UInt8),
      (∀ pending, observeTurn httparse io pending input = (io₁.finishHead pending v l, rest)) ∧
      io.state = .head ∧ io₁.maxHeadBytes = io.maxHeadBytes ∧ io₁.maxHeaders = io.maxHeaders := by
  unfold observeTurn
  cases hstate : io.state with
  | passthrough => exact Or.inl ⟨io, [], fun _ => rfl, by rw [hstate], rfl, rfl⟩
  | body remaining =>
    refine Or.inl ⟨_, _, fun _ => rfl, ?_, rfl, rfl⟩
    dsimp only
    split <;> simp
  | head =>
    dsimp only
    split
    · split
      · exact Or.inr ⟨_, _, _, _, fun _ => rfl, rfl, rfl, rfl⟩
      · unfold bufferPartialHead
        split
        · exact Or.inr ⟨_, _, _, _, fun _ => rfl, rfl, rfl, rfl⟩
        · exact Or.inl ⟨_, _, fun _ => rfl, by simp [hstate], rfl, rfl⟩
      · exact Or.inr ⟨_, _, _, _, fun _ => rfl, rfl, rfl, rfl⟩
    · split
      · exact Or.inl ⟨_, _, fun _ => rfl, by simp, rfl, rfl⟩
      · split
        · split
          · exact Or.inr ⟨_, _, _, _, fun _ => rfl, rfl, rfl, rfl⟩
          · exact Or.inl ⟨_, _, fun _ => rfl, by simp, rfl, rfl⟩
        · split
          · exact Or.inr ⟨_, _, _, _, fun _ => rfl, rfl, rfl, rfl⟩
          · split
            · exact Or.inr ⟨_, _, _, _, fun _ => rfl, rfl, rfl, rfl⟩
            · exact Or.inl ⟨_, _, fun _ => rfl, by simp, rfl, rfl⟩
          · exact Or.inr ⟨_, _, _, _, fun _ => rfl, rfl, rfl, rfl⟩

theorem finishHead_head_le (io : Http1InspectedIo) (pending : Http1Verdicts) (verdict : HeadVerdict) (bodyLength : ℕ) :
    (io.finishHead pending verdict bodyLength).1.head.length ≤ io.head.length := by
  unfold finishHead
  rcases pending.push verdict with ⟨accepted, pending'⟩
  dsimp only
  split
  · exact le_rfl
  · exact Nat.zero_le _

def weight (io : Http1InspectedIo) (input : List UInt8) : ℕ :=
  2 * (io.head.length + input.length) + match io.state with
    | .body _ => 1
    | _ => 0

theorem weight_lt {io io' : Http1InspectedIo} {input input' : List UInt8}
    (h : io'.head.length + input'.length < io.head.length + input.length) : weight io' input' < weight io input := by
  have hle : ∀ s : InspectState, (match s with
      | .body _ => 1
      | _ => 0) ≤ 1 := by
    intro s
    cases s <;> simp
  have := hle io'.state
  unfold weight
  omega

theorem observeTurn_lt (io : Http1InspectedIo) (pending : Http1Verdicts) {input : List UInt8} (hne : input ≠ []) :
    (observeTurn httparse io pending input).2 ≠ [] →
      weight (observeTurn httparse io pending input).1.1 (observeTurn httparse io pending input).2 <
        weight io input := by
  have hpos := List.length_pos_of_ne_nil hne
  unfold observeTurn
  split
  · intro h; exact absurd rfl h
  · rename_i remaining hstate
    intro _
    rcases Nat.eq_zero_or_pos remaining with rfl | hr
    · simp [weight, hstate]
    · refine weight_lt ?_
      simp only [List.length_drop]
      omega
  · split
    · split
      · rename_i length verdict bodyLength hs
        intro _
        have hb := (inspectHead httparse io.maxHeaders).complete_bounds hs
        have hle := finishHead_head_le io pending verdict bodyLength
        refine weight_lt ?_
        simp only [List.length_drop]
        omega
      · intro h; exact absurd rfl h
      · intro h; exact absurd rfl h
    · dsimp only
      have htrim := trim_length_le (io.head ++ input)
      rw [List.length_append] at htrim
      split
      · intro h; exact absurd rfl h
      · split
        · split <;> (intro h; exact absurd rfl h)
        · split
          · rename_i length verdict bodyLength hs
            intro _
            have hb := (inspectHead httparse io.maxHeaders).complete_bounds hs
            refine weight_lt (lt_of_le_of_lt (Nat.add_le_add_right (finishHead_head_le _ _ _ _) _) ?_)
            simp only [List.length_drop, List.length_nil]
            omega
          · split <;> (intro h; exact absurd rfl h)
          · intro h; exact absurd rfl h

/-- The loop over the bytes of one read. -/
def observe (s : Http1InspectedIo × Http1Verdicts) (input : List UInt8) : Http1InspectedIo × Http1Verdicts :=
  if _hne : input = [] then s
  else if _hrest : (observeTurn httparse s.1 s.2 input).2 = [] then (observeTurn httparse s.1 s.2 input).1
  else observe (observeTurn httparse s.1 s.2 input).1 (observeTurn httparse s.1 s.2 input).2
termination_by weight s.1 input
decreasing_by exact observeTurn_lt httparse s.1 s.2 _hne _hrest

theorem observe_keeps {P : Http1InspectedIo × Http1Verdicts → Prop}
    (hturn : ∀ s input, P s → P (observeTurn httparse s.1 s.2 input).1) {s : Http1InspectedIo × Http1Verdicts}
    (h : P s) (input : List UInt8) : P (observe httparse s input) := by
  induction s, input using observe.induct httparse with
  | case1 s => rwa [observe, dif_pos rfl]
  | case2 s input hne hrest =>
    rw [observe, dif_neg hne, dif_pos hrest]
    exact hturn s input h
  | case3 s input hne hrest ih =>
    rw [observe, dif_neg hne, dif_neg hrest]
    exact ih (hturn s input h)

end Http1InspectedIo

end RustRest
