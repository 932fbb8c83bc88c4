import RustRest.Http1.Sequence

/-!
# What the inspector buffers

Between two reads the inspector keeps the bytes of a head that is not complete, and how many of them were searched for an
empty line. Here `observe` is written with its slices and its subtraction checked, and with a limit on the depth of its
calls of itself: what goes wrong is `none`.

Main result: **`inspector_bounded`**.
-/

namespace RustRest

open Framing List

namespace Http1InspectedIo

/-! ## The checked inspector -/

namespace Checked

open RustRest.Checked

theorem of_sliceFrom {bytes behind : List UInt8} {a : ℕ} (h : sliceFrom bytes a = some behind) :
    a ≤ bytes.length ∧ bytes.drop a = behind := by
  unfold sliceFrom at h
  split at h
  · next hle => exact ⟨hle, Option.some.inj h⟩
  · cases h

theorem length_of_sliceFrom {bytes behind : List UInt8} {a : ℕ} (h : sliceFrom bytes a = some behind) :
    a + behind.length = bytes.length := by
  obtain ⟨hle, rfl⟩ := of_sliceFrom h
  rw [length_drop]
  omega

def sub (a b : ℕ) : Option ℕ := if b ≤ a then some (a - b) else none

def trimLoop (buffer : List UInt8) (skipped : ℕ) : Option ℕ :=
  match _hslice : sliceFrom buffer skipped with
  | none => none
  | some (13 :: 10 :: _) => trimLoop buffer (skipped + 2)
  | some (10 :: _) => trimLoop buffer (skipped + 1)
  | some _ => some skipped
termination_by buffer.length - skipped
decreasing_by
  all_goals
    have hlength := length_of_sliceFrom _hslice
    simp only [length_cons] at hlength
    omega

def trimLeadingEmptyLines (buffer : List UInt8) : Option (List UInt8 × ℕ) := do
  let skipped ← trimLoop buffer 0
  let buffer ← sliceFrom buffer skipped
  some (buffer, skipped)

def containsHeadTerminator (bytes : List UInt8) (scanned : ℕ) : Option Bool := do
  let window ← sliceFrom bytes (scanned - 2)
  some (decide ([10, 10] <:+: window) || decide ([10, 13, 10] <:+: window))

/-- How a turn of the loop of `observe` ends. -/
inductive Turn where
  /-- The loop goes on with the rest of the input. -/
  | again (s : Http1InspectedIo × Http1Verdicts) (input : List UInt8)
  /-- `observe` returns. -/
  | returned (s : Http1InspectedIo × Http1Verdicts)
  /-- `observe` calls itself on the bytes behind a buffered head and returns. -/
  | nested (s : Http1InspectedIo × Http1Verdicts) (rest : List UInt8)

variable (httparse : ℕ → HeadScanner RequestHead)

def bufferPartialHead (io : Http1InspectedIo) (pending : Http1Verdicts) (bytes : List UInt8) :
    Option (Http1InspectedIo × Http1Verdicts) :=
  if bytes.length ≥ io.maxHeadBytes then some (io.finishHead pending .terminal 0)
  else do
    let (head, _) ← trimLeadingEmptyLines (io.head ++ bytes)
    some ({ io with head := head, headScanned := head.length }, pending)

def observeTurn (io : Http1InspectedIo) (pending : Http1Verdicts) (input : List UInt8) : Option Turn :=
  match io.state with
  | .passthrough => some (.returned (io, pending))
  | .body remaining => do
    let skipped := min remaining input.length
    let input ← sliceFrom input skipped
    let remaining ← sub remaining skipped
    some (.again ({ io with state := if remaining = 0 then .head else .body remaining }, pending) input)
  | .head =>
    if io.head = [] then
      match (inspectHead httparse io.maxHeaders).scan input with
      | .complete length (verdict, bodyLength) => do
        let input ← sliceFrom input length
        some (.again (io.finishHead pending verdict bodyLength) input)
      | .incomplete => (bufferPartialHead io pending input).map .returned
      | .invalid => some (.returned (io.finishHead pending .terminal 0))
    else do
      let (head, skipped) ← trimLeadingEmptyLines (io.head ++ input)
      -- `saturating_sub`
      let io := { io with head := head, headScanned := io.headScanned - skipped }
      if head = [] then some (.returned (io, pending))
      else do
        let found ← containsHeadTerminator head io.headScanned
        if !found then
          let io := { io with headScanned := head.length }
          some (.returned (if head.length ≥ io.maxHeadBytes then io.finishHead pending .terminal 0 else (io, pending)))
        else match (inspectHead httparse io.maxHeaders).scan head with
          | .complete length (verdict, bodyLength) => do
            -- `split_off`
            let rest ← sliceFrom head length
            let io := { io with head := [], headScanned := 0 }
            some (.nested (io.finishHead pending verdict bodyLength) rest)
          | .incomplete =>
            some (.returned (if head.length ≥ io.maxHeadBytes then io.finishHead pending .terminal 0 else (io, pending)))
          | .invalid => some (.returned (io.finishHead pending .terminal 0))

variable {s : Http1InspectedIo × Http1Verdicts} {io : Http1InspectedIo}

theorem again_cases {pending : Http1Verdicts} {input rest : List UInt8}
    (h : observeTurn httparse io pending input = some (.again s rest)) :
    (∃ remaining, io.state = .body remaining ∧ rest = input.drop (min remaining input.length) ∧ s.1.head = io.head ∧
      (remaining = 0 → s.1.state = .head)) ∨
    ∃ length v l, io.state = .head ∧ io.head = [] ∧
      (inspectHead httparse io.maxHeaders).scan input = .complete length (v, l) ∧ rest = input.drop length ∧
      s = io.finishHead pending v l := by
  unfold observeTurn at h
  cases hstate : io.state with
  | passthrough =>
    rw [hstate] at h
    cases h
  | body remaining =>
    rw [hstate] at h
    obtain ⟨behind, hbehind, h⟩ := Option.bind_eq_some_iff.1 h
    obtain ⟨left, hleft, h⟩ := Option.bind_eq_some_iff.1 h
    cases h
    refine Or.inl ⟨remaining, rfl, (of_sliceFrom hbehind).2.symm, rfl, fun hzero => ?_⟩
    subst hzero
    cases hleft
    rfl
  | head =>
    rw [hstate] at h
    dsimp only at h
    split at h
    · next hnil =>
      split at h
      · next length v l hscan =>
        obtain ⟨behind, hbehind, h⟩ := Option.bind_eq_some_iff.1 h
        cases h
        exact Or.inr ⟨length, v, l, rfl, hnil, hscan, (of_sliceFrom hbehind).2.symm, rfl⟩
      · obtain ⟨s', -, h⟩ := Option.map_eq_some_iff.1 h
        cases h
      · cases h
    · obtain ⟨⟨head, skipped⟩, -, h⟩ := Option.bind_eq_some_iff.1 h
      dsimp only at h
      split at h
      · cases h
      · obtain ⟨found, -, h⟩ := Option.bind_eq_some_iff.1 h
        split at h
        · cases h
        · split at h
          · obtain ⟨behind, -, h⟩ := Option.bind_eq_some_iff.1 h
            cases h
          · cases h
          · cases h

theorem weight_lt_of_again {pending : Http1Verdicts} {input rest : List UInt8}
    (hne : input ≠ [])
    (h : observeTurn httparse io pending input = some (.again s rest)) : weight s.1 rest < weight io input := by
  have hpos := length_pos_of_ne_nil hne
  obtain ⟨remaining, hstate, rfl, hhead, hzero⟩ | ⟨length, v, l, hstate, hhead, hscan, rfl, rfl⟩ := again_cases httparse h
  · rcases Nat.eq_zero_or_pos remaining with rfl | hr
    · simp [weight, hstate, hhead, hzero rfl]
    · refine weight_lt ?_
      rw [hhead, length_drop]
      omega
  · have hbounds := (inspectHead httparse io.maxHeaders).complete_bounds hscan
    have hle := finishHead_head_le io pending v l
    refine weight_lt ?_
    rw [length_drop]
    omega

def observe (depth : ℕ) (s : Http1InspectedIo × Http1Verdicts) (input : List UInt8) :
    Option (Http1InspectedIo × Http1Verdicts) :=
  if _hne : input = [] then some s
  else match _hturn : observeTurn httparse s.1 s.2 input with
    | none => none
    | some (.again s rest) => observe depth s rest
    | some (.returned s) => some s
    | some (.nested s rest) =>
      match depth with
      | 0 => none
      | depth + 1 => observe depth s rest
termination_by (depth, weight s.1 input)
decreasing_by
  · exact Prod.Lex.right _ (weight_lt_of_again httparse _hne _hturn)
  · exact Prod.Lex.left _ _ (Nat.lt_succ_self _)

/-! ## The checks of a turn -/

/-- The check of the loop succeeds. -/
theorem trimLoop_eq (buffer : List UInt8) (skipped : ℕ) (h : skipped ≤ buffer.length) : trimLoop buffer skipped =
    some (buffer.length - (RustRest.trimLeadingEmptyLines (buffer.drop skipped)).length) := by
  fun_induction trimLoop buffer skipped with
  | case1 skipped hslice =>
    rw [sliceFrom_eq h] at hslice
    cases hslice
  | case2 skipped rest hslice ih =>
    have hlength := length_of_sliceFrom hslice
    rw [length_cons, length_cons] at hlength
    have hrest : buffer.drop (skipped + 2) = rest := by
      rw [← drop_drop, (of_sliceFrom hslice).2]
      rfl
    rw [ih (by omega), (of_sliceFrom hslice).2, trim_crlf, hrest]
  | case3 skipped rest hslice ih =>
    have hlength := length_of_sliceFrom hslice
    rw [length_cons] at hlength
    have hrest : buffer.drop (skipped + 1) = rest := by
      rw [← drop_drop, (of_sliceFrom hslice).2]
      rfl
    rw [ih (by omega), (of_sliceFrom hslice).2, trim_lf, hrest]
  | case4 skipped rest hcrlf hlf hslice =>
    have hlength := length_of_sliceFrom hslice
    rw [(of_sliceFrom hslice).2, trim_of_trimmed ⟨hcrlf, hlf⟩]
    congr 1
    omega

theorem trimLeadingEmptyLines_eq (buffer : List UInt8) : trimLeadingEmptyLines buffer =
    some (RustRest.trimLeadingEmptyLines buffer, buffer.length - (RustRest.trimLeadingEmptyLines buffer).length) := by
  obtain ⟨blank, -, hbuffer, -⟩ := trim_spec buffer
  have hdrop : buffer.drop (buffer.length - (RustRest.trimLeadingEmptyLines buffer).length) =
      RustRest.trimLeadingEmptyLines buffer := by
    have hlength : buffer.length - (RustRest.trimLeadingEmptyLines buffer).length = blank.length := by
      have hsum := congrArg List.length hbuffer
      rw [length_append] at hsum
      omega
    rw [hlength]
    nth_rewrite 1 [hbuffer]
    exact drop_left
  unfold trimLeadingEmptyLines
  rw [trimLoop_eq buffer 0 (Nat.zero_le _), drop_zero]
  show (sliceFrom buffer _).bind _ = _
  rw [sliceFrom_eq (Nat.sub_le _ _), hdrop]
  rfl

theorem containsHeadTerminator_eq {bytes : List UInt8} {scanned : ℕ} (h : scanned ≤ bytes.length) :
    containsHeadTerminator bytes scanned = some (RustRest.containsHeadTerminator bytes scanned) := by
  unfold containsHeadTerminator
  rw [sliceFrom_eq (by omega)]
  rfl

theorem bufferPartialHead_eq (io : Http1InspectedIo) (pending : Http1Verdicts) (bytes : List UInt8) :
    bufferPartialHead io pending bytes = some (io.bufferPartialHead pending bytes) := by
  unfold bufferPartialHead Http1InspectedIo.bufferPartialHead
  split
  · rfl
  · rw [trimLeadingEmptyLines_eq]
    rfl

/-- What is left of the input after a turn. -/
def Turn.result : Turn → (Http1InspectedIo × Http1Verdicts) × List UInt8
  | again s input => (s, input)
  | returned s => (s, [])
  | nested s rest => (s, rest)

theorem observeTurn_eq (h : io.headScanned ≤ io.head.length) (pending : Http1Verdicts)
    (input : List UInt8) :
    ∃ turn, observeTurn httparse io pending input = some turn ∧
      turn.result = Http1InspectedIo.observeTurn httparse io pending input ∧
      ∀ s rest, turn = .nested s rest → io.head ≠ [] ∧ s.1.head = [] := by
  unfold observeTurn Http1InspectedIo.observeTurn
  cases hstate : io.state with
  | passthrough => exact ⟨_, rfl, rfl, fun _ _ heq => by cases heq⟩
  | body remaining =>
    dsimp only
    have hmin := Nat.min_le_right remaining input.length
    have hsub : sub remaining (min remaining input.length) = some (remaining - min remaining input.length) :=
      if_pos (Nat.min_le_left _ _)
    rw [sliceFrom_eq hmin, Option.bind_eq_bind, Option.bind_some, hsub]
    exact ⟨_, rfl, rfl, fun _ _ heq => by cases heq⟩
  | head =>
    dsimp only
    split
    · cases hscan : (inspectHead httparse io.maxHeaders).scan input with
      | complete length value =>
        have hbounds := (inspectHead httparse io.maxHeaders).complete_bounds hscan
        dsimp only
        rw [sliceFrom_eq hbounds.2]
        exact ⟨_, rfl, rfl, fun _ _ heq => by cases heq⟩
      | incomplete =>
        dsimp only
        rw [bufferPartialHead_eq]
        exact ⟨_, rfl, rfl, fun _ _ heq => by cases heq⟩
      | invalid => exact ⟨_, rfl, rfl, fun _ _ heq => by cases heq⟩
    · next hne =>
      have hscanned : io.headScanned -
          ((io.head ++ input).length - (RustRest.trimLeadingEmptyLines (io.head ++ input)).length) ≤
            (RustRest.trimLeadingEmptyLines (io.head ++ input)).length := by
        rw [length_append]
        omega
      rw [trimLeadingEmptyLines_eq, Option.bind_eq_bind, Option.bind_some]
      dsimp only
      split
      · exact ⟨_, rfl, rfl, fun _ _ heq => by cases heq⟩
      · rw [containsHeadTerminator_eq hscanned, Option.bind_eq_bind, Option.bind_some]
        split
        · refine ⟨_, rfl, ?_, fun _ _ heq => by cases heq⟩
          split <;> rfl
        · cases hscan : (inspectHead httparse io.maxHeaders).scan (RustRest.trimLeadingEmptyLines (io.head ++ input)) with
          | complete length value =>
            have hbounds := (inspectHead httparse io.maxHeaders).complete_bounds hscan
            dsimp only
            rw [sliceFrom_eq hbounds.2]
            refine ⟨_, rfl, rfl, fun s rest heq => ?_⟩
            cases heq
            exact ⟨hne, eq_nil_of_length_eq_zero (Nat.le_zero.1 (finishHead_head_le _ _ _ _))⟩
          | incomplete =>
            refine ⟨_, rfl, ?_, fun _ _ heq => by cases heq⟩
            dsimp only [Turn.result]
            split <;> rfl
          | invalid => exact ⟨_, rfl, rfl, fun _ _ heq => by cases heq⟩

theorem observe_of_turn {depth : ℕ} {input : List UInt8} {turn : Turn}
    (hne : input ≠ []) (h : observeTurn httparse s.1 s.2 input = some turn) :
    observe httparse depth s input =
      match turn, depth with
      | .again s rest, depth => observe httparse depth s rest
      | .returned s, _ => some s
      | .nested _ _, 0 => none
      | .nested s rest, depth + 1 => observe httparse depth s rest := by
  rw [observe, dif_neg hne]
  split
  · next hturn =>
    rw [h] at hturn
    cases hturn
  · next hturn =>
    rw [h] at hturn
    cases hturn
    rfl
  · next hturn =>
    rw [h] at hturn
    cases hturn
    rfl
  · next hturn =>
    rw [h] at hturn
    cases hturn
    cases depth <;> rfl

end Checked

/-! ## Between two reads -/

/-- What the inspector keeps between two reads. -/
structure Buffered (io : Http1InspectedIo) : Prop where
  short : io.head.length < io.maxHeadBytes
  scanned : io.headScanned ≤ io.head.length
  awaited : io.head ≠ [] → io.state = .head

variable {io : Http1InspectedIo}

theorem buffered_of_nil (hmax : 0 < io.maxHeadBytes) (hhead : io.head = [])
    (hscanned : io.headScanned = 0) : Buffered io where
  short := by rw [hhead]; exact hmax
  scanned := by rw [hscanned]; exact Nat.zero_le _
  awaited hne := absurd hhead hne

theorem finishHead_buffered (hmax : 0 < io.maxHeadBytes) (pending : Http1Verdicts) {v : HeadVerdict}
    {l : ℕ} (h : io.head = [] ∧ io.headScanned = 0 ∨ v = .terminal) : Buffered (io.finishHead pending v l).1 := by
  unfold finishHead
  rcases pending.push v with ⟨accepted, pending'⟩
  dsimp only
  split
  · next hpersistent =>
    obtain ⟨hhead, hscanned⟩ := h.resolve_right fun hterminal => by
      rw [hterminal] at hpersistent
      cases hpersistent.1
    exact buffered_of_nil hmax hhead hscanned
  · exact buffered_of_nil hmax rfl rfl

/-- One turn keeps the buffer within the limit. -/
theorem observeTurn_buffered_keeps (httparse : ℕ → HeadScanner RequestHead) (h : Buffered io)
    (pending : Http1Verdicts) (input : List UInt8) : Buffered (observeTurn httparse io pending input).1.1 := by
  have hmax : 0 < io.maxHeadBytes := Nat.zero_lt_of_lt h.short
  unfold observeTurn
  cases hstate : io.state with
  | passthrough => exact h
  | body remaining =>
    -- no head is awaited behind a body that is not over
    have hhead : io.head = [] := by
      by_contra hne
      rw [h.awaited hne] at hstate
      cases hstate
    exact buffered_of_nil hmax hhead (Nat.le_zero.1 (by simpa [hhead] using h.scanned))
  | head =>
    dsimp only
    split
    · next hnil =>
      have hscanned : io.headScanned = 0 := Nat.le_zero.1 (by simpa [hnil] using h.scanned)
      split
      · exact finishHead_buffered hmax pending (Or.inl ⟨hnil, hscanned⟩)
      · unfold bufferPartialHead
        split
        · exact finishHead_buffered hmax pending (Or.inr rfl)
        · next hshort =>
          have htrim := trim_length_le (io.head ++ input)
          rw [hnil, nil_append] at htrim ⊢
          exact ⟨Nat.lt_of_le_of_lt htrim (Nat.not_le.1 hshort), Nat.le_refl _, fun _ => hstate⟩
      · exact finishHead_buffered hmax pending (Or.inr rfl)
    · have hscanned : io.headScanned - ((io.head ++ input).length - (trimLeadingEmptyLines (io.head ++ input)).length) ≤
          (trimLeadingEmptyLines (io.head ++ input)).length := by
        have hold := h.scanned
        rw [length_append]
        omega
      split
      · next hnil => exact ⟨by rw [hnil]; exact hmax, hscanned, fun hne => absurd hnil hne⟩
      · split
        · split
          · refine finishHead_buffered ?_ pending (Or.inr rfl)
            exact hmax
          · next hshort => exact ⟨Nat.not_le.1 hshort, Nat.le_refl _, fun _ => rfl⟩
        · split
          · refine finishHead_buffered ?_ pending (Or.inl ⟨rfl, rfl⟩)
            exact hmax
          · split
            · refine finishHead_buffered ?_ pending (Or.inr rfl)
              exact hmax
            · next hshort => exact ⟨Nat.not_le.1 hshort, hscanned, fun _ => rfl⟩
          · refine finishHead_buffered ?_ pending (Or.inr rfl)
            exact hmax

variable (httparse : ℕ → HeadScanner RequestHead)

/-- So does a whole read. -/
theorem observe_buffered {s : Http1InspectedIo × Http1Verdicts} (h : Buffered s.1) (input : List UInt8) :
    Buffered (observe httparse s input).1 :=
  observe_keeps (P := fun s => Buffered s.1) httparse
    (fun s input h => observeTurn_buffered_keeps httparse h s.2 input) h input

theorem observe_eq_turn {s : Http1InspectedIo × Http1Verdicts} {input : List UInt8} (hne : input ≠ []) :
    observe httparse s input =
      observe httparse (observeTurn httparse s.1 s.2 input).1 (observeTurn httparse s.1 s.2 input).2 := by
  rw [observe, dif_neg hne]
  split
  · next hrest => rw [hrest, observe, dif_pos rfl]
  · rfl

namespace Checked

variable {s : Http1InspectedIo × Http1Verdicts} {input : List UInt8}

theorem observe_nil (depth : ℕ) : observe httparse depth s [] = some (Http1InspectedIo.observe httparse s []) := by
  rw [observe, dif_pos rfl, Http1InspectedIo.observe, dif_pos rfl]

theorem some_eq_of_returned {s' : Http1InspectedIo × Http1Verdicts} (hne : input ≠ [])
    (h : (s', []) = Http1InspectedIo.observeTurn httparse s.1 s.2 input) :
    some s' = some (Http1InspectedIo.observe httparse s input) := by
  rw [observe_eq_turn httparse hne, ← h, Http1InspectedIo.observe, dif_pos rfl]

theorem observe_eq_of_nil (depth : ℕ) (h : Buffered s.1) (hnil : s.1.head = []) :
    observe httparse depth s input = some (Http1InspectedIo.observe httparse s input) := by
  induction hweight : weight s.1 input using Nat.strong_induction_on generalizing s input with
  | _ w ih =>
    by_cases hne : input = []
    · rw [hne, observe_nil]
    · obtain ⟨turn, hturn, hresult, hnested⟩ := observeTurn_eq httparse h.scanned s.2 input
      have hkeeps := observeTurn_buffered_keeps httparse h s.2 input
      rw [observe_of_turn httparse hne hturn]
      cases turn with
      | again s' rest =>
        -- the buffer stays empty
        have hnil' : s'.1.head = [] := by
          obtain ⟨remaining, -, -, hhead, -⟩ | ⟨length, v, l, -, -, -, -, rfl⟩ := again_cases httparse hturn
          · rw [hhead, hnil]
          · exact eq_nil_of_length_eq_zero (Nat.le_zero.1 (by simpa [hnil] using finishHead_head_le s.1 s.2 v l))
        have hlt : weight s'.1 rest < w := hweight ▸ weight_lt_of_again httparse hne hturn
        rw [observe_eq_turn httparse hne, ← hresult]
        rw [← hresult] at hkeeps
        exact ih _ hlt hkeeps hnil' rfl
      | returned s' => exact some_eq_of_returned httparse hne hresult
      | nested s' rest => exact absurd hnil (hnested s' rest rfl).1

theorem observe_eq (h : Buffered s.1) (input : List UInt8) :
    observe httparse 1 s input = some (Http1InspectedIo.observe httparse s input) := by
  by_cases hnil : s.1.head = []
  · exact observe_eq_of_nil httparse 1 h hnil
  by_cases hne : input = []
  · rw [hne, observe_nil]
  obtain ⟨turn, hturn, hresult, hnested⟩ := observeTurn_eq httparse h.scanned s.2 input
  have hkeeps := observeTurn_buffered_keeps httparse h s.2 input
  rw [observe_of_turn httparse hne hturn]
  cases turn with
  | again s' rest =>
    -- with bytes in the buffer the loop does not go on
    obtain ⟨remaining, hstate, -⟩ | ⟨length, v, l, -, hhead, -⟩ := again_cases httparse hturn
    · rw [h.awaited hnil] at hstate
      cases hstate
    · exact absurd hhead hnil
  | returned s' => exact some_eq_of_returned httparse hne hresult
  | nested s' rest =>
    rw [observe_eq_turn httparse hne, ← hresult]
    rw [← hresult] at hkeeps
    exact observe_eq_of_nil httparse 0 hkeeps (hnested s' rest rfl).2

end Checked

inductive Reached (start : Http1InspectedIo) : Http1InspectedIo → Prop where
  | start : Reached start start
  | observe {io : Http1InspectedIo} (pending : Http1Verdicts) (input : List UInt8) : Reached start io →
      Reached start (Http1InspectedIo.observe httparse (io, pending) input).1

theorem Reached.buffered {start io : Http1InspectedIo} (hstart : Buffered start) (h : Reached httparse start io) :
    Buffered io ∧ io.maxHeadBytes = start.maxHeadBytes := by
  induction h with
  | start => exact ⟨hstart, rfl⟩
  | observe pending input _ ih =>
    exact ⟨observe_buffered httparse ih.1 input, (observe_limits httparse (_, pending) input).1.trans ih.2⟩

/-- **What the inspector buffers.** In every state that reads lead to, with room for a byte at least: the buffer is shorter
than the limit, no more of it is marked as searched than there is, and it is empty unless a head is awaited. The next read,
whatever it is, is observed without a slice or a subtraction out of range, and with at most one call of `observe` inside
the other. -/
theorem inspector_bounded {maxHeadBytes maxHeaders : ℕ} (hmax : 1 ≤ maxHeadBytes) {io : Http1InspectedIo}
    (h : Reached httparse (.new maxHeadBytes maxHeaders) io) :
    io.head.length < maxHeadBytes ∧ io.headScanned ≤ io.head.length ∧ (io.head ≠ [] → io.state = .head) ∧
    ∀ pending input,
      Checked.observe httparse 1 (io, pending) input = some (observe httparse (io, pending) input) := by
  have hnew : Buffered (new maxHeadBytes maxHeaders) := buffered_of_nil hmax rfl rfl
  obtain ⟨hbuffered, hlimit⟩ := h.buffered httparse hnew
  exact ⟨hbuffered.short.trans_eq hlimit, hbuffered.scanned, hbuffered.awaited,
    fun pending input => Checked.observe_eq httparse hbuffered input⟩

/-- A part of a head, and what comes next. -/
theorem inspector_bounded_partial_head :
    let io := (observe postParser (new 40 8, []) (postHead.take 20)).1
    io.head.length < 40 ∧
      Checked.observe postParser 1 (io, []) (postHead.drop 20) = some (observe postParser (io, []) (postHead.drop 20)) := by
  obtain ⟨hshort, -, -, hchecked⟩ :=
    inspector_bounded postParser (by decide : 1 ≤ 40)
      (Reached.observe [] (postHead.take 20) (.start : Reached postParser (new 40 8) _))
  exact ⟨hshort, hchecked [] (postHead.drop 20)⟩

end Http1InspectedIo

end RustRest
