import RustRest.Http1.Inspector

/-!
# The inspector against the sequence of heads

The specification reads the stream as a whole: parse a head, skip its body, parse the next head, until a verdict that is
not `Persistent` (`units` of the head scanner). The inspector sees the stream in pieces and buffers what it cannot decide
yet. `Tracks` relates the two: what the inspector has not accounted for is a run of bytes whose head it cannot know yet.

Main result: **`observe_chunking`**.
-/

namespace RustRest

open Framing Http1InspectedIo List

variable {p : HeadScanner (HeadVerdict × ℕ)}

/-! ## Undecided heads -/

def bodySkip (v : HeadVerdict × ℕ) : Option ℕ := if v.1 = .persistent then some v.2 else none

structure Undecided (p : HeadScanner (HeadVerdict × ℕ)) (b : List UInt8) : Prop where
  not_complete : ∀ n v, p.scan b ≠ .complete n v
  not_invalid : ∀ e, EmptyLineEnd (b.take e) → p.scan (b.take e) ≠ .invalid

theorem undecided_of_incomplete {b : List UInt8} (h : p.scan b = .incomplete) : Undecided p b where
  not_complete n v hc := by rw [h] at hc; cases hc
  not_invalid e _ hi := by
    have := p.invalid_append (b.drop e) hi
    rw [take_append_drop, h] at this
    cases this

theorem not_emptyLineEnd_nil : ¬EmptyLineEnd [] := by decide

theorem undecided_nil : Undecided p [] where
  not_complete _ _ := Scanner.scan_nil_ne_complete
  not_invalid e h := by
    rw [take_nil] at h
    exact absurd h not_emptyLineEnd_nil

theorem containsHeadTerminator_of_end {x y : List UInt8} {scanned : ℕ} (h : EmptyLineEnd x)
    (hs : scanned < x.length) : containsHeadTerminator (x ++ y) scanned = true := by
  have hfound : ∀ pat : List UInt8, pat.length ≤ 3 → pat <:+ x → scanned - 2 + pat.length ≤ x.length →
      pat <:+: (x ++ y).drop (scanned - 2) := by
    rintro pat - ⟨a, rfl⟩ hle
    rw [length_append] at hle
    rw [append_assoc, drop_append_of_le_length (by omega)]
    exact ⟨_, y, by rw [append_assoc]⟩
  unfold containsHeadTerminator
  rw [Bool.or_eq_true, decide_eq_true_iff, decide_eq_true_iff]
  rcases h with h | h
  · have hlen := h.length_le
    simp only [length_cons, length_nil] at hlen
    exact Or.inl (hfound _ (by decide) h (by simp only [length_cons, length_nil]; omega))
  · have hlen := h.length_le
    simp only [length_cons, length_nil] at hlen
    exact Or.inr (hfound _ (by decide) h (by simp only [length_cons, length_nil]; omega))

theorem undecided_extend {h c : List UInt8} {scanned : ℕ} (hu : Undecided p h) (ht : Trimmed h) (hne : h ≠ [])
    (hs : scanned ≤ h.length)
    (hc : containsHeadTerminator (trimLeadingEmptyLines (h ++ c))
      (scanned - ((h ++ c).length - (trimLeadingEmptyLines (h ++ c)).length)) = false) :
    Undecided p (trimLeadingEmptyLines (h ++ c)) := by
  generalize hb : trimLeadingEmptyLines (h ++ c) = b at hc
  -- an empty line in the buffer was there before, and then nothing was trimmed
  have hold : ∀ e, e ≤ b.length → EmptyLineEnd (b.take e) → b.take e = h.take e := by
    intro e he hend
    have hle : e ≤ scanned - ((h ++ c).length - b.length) := by
      by_contra hlt
      have := @containsHeadTerminator_of_end (b.take e) (b.drop e) _ hend
        (show scanned - ((h ++ c).length - b.length) < _ by rw [length_take]; omega)
      rw [take_append_drop, hc] at this
      cases this
    have htwo := hend.two_le
    rw [length_take] at htwo
    rcases trim_append_of_trimmed ht hne c with heq | rfl
    · rw [← hb, heq, take_append_of_le_length (by omega)]
    · simp only [length_singleton] at hs
      omega
  constructor
  · intro n v hn
    have hbounds := p.complete_bounds hn
    exact hu.not_complete n v (p.complete_local hn (hold n hbounds.2 (p.complete_emptyLine hn)).symm)
  · intro e hend hi
    rcases Nat.le_total e b.length with he | he
    · have heq := hold e he hend
      rw [heq] at hend hi
      exact hu.not_invalid e hend hi
    · rw [take_of_length_le he, ← @take_length _ b] at hend hi
      have heq := hold _ le_rfl hend
      rw [heq] at hend hi
      exact hu.not_invalid _ hend hi

/-! ## Tracking -/

inductive Tracks (p : HeadScanner (HeadVerdict × ℕ)) : Http1InspectedIo → List UInt8 → Prop where
  | head {io : Http1InspectedIo} {raw : List UInt8} : io.state = .head → io.head = trimLeadingEmptyLines raw →
      Undecided p io.head → io.headScanned ≤ io.head.length → (raw ≠ [] → p.scan [] ≠ .invalid) → Tracks p io raw
  | body {io : Http1InspectedIo} {remaining : ℕ} : io.state = .body remaining → io.head = [] → io.headScanned = 0 →
      Tracks p io []

def unread (io : Http1InspectedIo) (raw later : List UInt8) : List UInt8 :=
  match io.state with
  | .body remaining => later.drop remaining
  | _ => raw ++ later

inductive Ends (p : HeadScanner (HeadVerdict × ℕ)) (maxHeadBytes : ℕ) (cur : List UInt8) : HeadVerdict → Prop where
  | verdict {n l : ℕ} {v : HeadVerdict} : p.scan cur = .complete n (v, l) → v ≠ .persistent → Ends p maxHeadBytes cur v
  | unparsable : cur ≠ [] → p.scan cur = .invalid → Ends p maxHeadBytes cur .terminal
  | oversized : cur ≠ [] → (∀ n v, p.scan cur ≠ .complete n v) → maxHeadBytes ≤ cur.length →
      Ends p maxHeadBytes cur .terminal

inductive Stops (p : HeadScanner (HeadVerdict × ℕ)) (maxHeadBytes : ℕ) (cur : List UInt8) (pending : Http1Verdicts) :
    Http1Verdicts → Prop where
  | pushed {v : HeadVerdict} : Ends p maxHeadBytes cur v → pending.length < maxPendingVerdicts →
      Stops p maxHeadBytes cur pending (pending ++ [v])
  | dropped {v : HeadVerdict} : Ends p maxHeadBytes cur v → maxPendingVerdicts ≤ pending.length →
      Stops p maxHeadBytes cur pending pending
  | full {n l : ℕ} : p.scan cur = .complete n (.persistent, l) → maxPendingVerdicts ≤ pending.length →
      Stops p maxHeadBytes cur pending pending

theorem Ends.ne_persistent {maxHeadBytes : ℕ} {cur : List UInt8} {v : HeadVerdict} (h : Ends p maxHeadBytes cur v) :
    v ≠ .persistent := by
  cases h with
  | verdict _ hv => exact hv
  | unparsable | oversized => decide

inductive Observed (p : HeadScanner (HeadVerdict × ℕ)) (io : Http1InspectedIo) (raw : List UInt8)
    (pending : Http1Verdicts) (input : List UInt8) (io' : Http1InspectedIo) (pending' : Http1Verdicts)
    (rest : List UInt8) : Prop where
  | tracks (raw' : List UInt8) (vs : List (HeadVerdict × ℕ)) : Tracks p io' raw' →
      pending' = pending ++ vs.map Prod.fst →
      (∀ later, Reads p.toScanner bodySkip (unread io raw (input ++ later)) vs (unread io' raw' (rest ++ later))) →
      Observed p io raw pending input io' pending' rest
  | stops (cur tail : List UInt8) (vs : List (HeadVerdict × ℕ)) : io'.state = .passthrough →
      Stops p io.maxHeadBytes cur (pending ++ vs.map Prod.fst) pending' →
      (∀ later, Reads p.toScanner bodySkip (unread io raw (input ++ later)) vs (cur ++ (tail ++ later))) →
      Observed p io raw pending input io' pending' rest

/-! ## One turn -/

theorem finishHead_cases (io : Http1InspectedIo) (pending : Http1Verdicts) (v : HeadVerdict) (l : ℕ) :
    (v = .persistent ∧ pending.length < maxPendingVerdicts ∧ io.finishHead pending v l =
      ({ io with state := if l = 0 then .head else .body l }, pending ++ [v])) ∨
    ((io.finishHead pending v l).1.state = .passthrough ∧
      (v ≠ .persistent ∧ pending.length < maxPendingVerdicts ∧ (io.finishHead pending v l).2 = pending ++ [v] ∨
        maxPendingVerdicts ≤ pending.length ∧ (io.finishHead pending v l).2 = pending)) := by
  by_cases hroom : pending.length < maxPendingVerdicts
  · have hpush : pending.push v = (true, pending ++ [v]) := if_neg (Nat.not_le.2 hroom)
    by_cases hv : v = .persistent
    · exact Or.inl ⟨hv, hroom, by simp only [finishHead, hpush]; rw [if_pos ⟨hv, trivial⟩]⟩
    · refine Or.inr ⟨?_, Or.inl ⟨hv, hroom, ?_⟩⟩ <;> simp only [finishHead, hpush, hv, false_and, if_false]
  · have hpush : pending.push v = (false, pending) := if_pos (Nat.not_lt.1 hroom)
    refine Or.inr ⟨?_, Or.inr ⟨Nat.not_lt.1 hroom, ?_⟩⟩ <;>
      simp only [finishHead, hpush, Bool.false_eq_true, and_false, if_false]

section Turn

variable {io io₁ : Http1InspectedIo} {raw input b blank : List UInt8} {pending : Http1Verdicts}

theorem observed_ends {v : HeadVerdict} {l : ℕ} (rest : List UInt8) (hstate : io.state = .head)
    (hend : Ends p io.maxHeadBytes (raw ++ input) v) :
    Observed p io raw pending input (io₁.finishHead pending v l).1 (io₁.finishHead pending v l).2 rest := by
  have hread : ∀ later, unread io raw (input ++ later) = raw ++ input ++ later := by
    intro later
    rw [unread, hstate, append_assoc]
  obtain ⟨hv, -⟩ | ⟨hpass, hq⟩ := finishHead_cases io₁ pending v l
  · exact absurd hv hend.ne_persistent
  · refine .stops (raw ++ input) [] [] hpass ?_ fun later => hread later ▸ .nil _
    rw [map_nil, append_nil]
    obtain ⟨-, hroom, hq⟩ | ⟨hfull, hq⟩ := hq
    · rw [hq]
      exact .pushed hend hroom
    · rw [hq]
      exact .dropped hend hfull

theorem observed_complete {n l : ℕ} {v : HeadVerdict} (hstate : io.state = .head) (hblank : EmptyLines blank)
    (heq : raw ++ input = blank ++ b) (hscan : p.scan b = .complete n (v, l)) (hhead : io₁.head = [])
    (hscanned : io₁.headScanned = 0) :
    Observed p io raw pending input (io₁.finishHead pending v l).1 (io₁.finishHead pending v l).2 (b.drop n) := by
  have hread : ∀ later, unread io raw (input ++ later) = blank ++ (b ++ later) := by
    intro later
    rw [unread, hstate, ← append_assoc, ← append_assoc, ← heq]
  have hcomplete : ∀ later, p.scan (blank ++ (b ++ later)) = .complete (n + blank.length) (v, l) := by
    intro later
    rw [scan_blank_append hblank, Scanner.complete_append hscan]
    rfl
  by_cases hv : v = .persistent
  · subst hv
    obtain ⟨-, -, hfin⟩ | ⟨hpass, ⟨hv, -⟩ | ⟨hfull, hq⟩⟩ := finishHead_cases io₁ pending .persistent l
    · rw [hfin]
      have hbounds := (p.complete_bounds hscan).2
      refine .tracks [] [(.persistent, l)] ?_ rfl fun later => ?_
      · by_cases hl : l = 0
        · refine .head (by simp [hl]) hhead ?_ (by simp [hscanned]) (fun h => absurd rfl h)
          simp only [hhead]
          exact undecided_nil
        · exact .body (if_neg hl) hhead hscanned
      · rw [hread]
        have hdrop : (blank ++ (b ++ later)).drop (n + blank.length + l) = (b.drop n ++ later).drop l := by
          rw [show n + blank.length + l = blank.length + (n + l) by omega, drop_length_add_append,
            ← drop_drop, drop_append_of_le_length hbounds]
        have hreads : Reads p.toScanner bodySkip _ _ _ := .single (hcomplete later) rfl
        rw [hdrop] at hreads
        by_cases hl : l = 0
        · subst hl
          simpa [unread] using hreads
        · simpa [unread, hl] using hreads
    · exact absurd rfl hv
    · have hcur : p.scan (raw ++ input) = .complete (n + blank.length) (.persistent, l) := by
        rw [heq]
        simpa using hcomplete []
      refine .stops (raw ++ input) [] [] hpass ?_ fun later => ?_
      · rw [map_nil, append_nil, hq]
        exact .full hcur hfull
      · rw [hread, ← append_assoc, ← heq]
        exact .nil _
  · have hcur : p.scan (raw ++ input) = .complete (n + blank.length) (v, l) := by
      rw [heq]
      simpa using hcomplete []
    exact observed_ends _ hstate (.verdict hcur hv)

end Turn

variable {httparse : ℕ → HeadScanner RequestHead} {io : Http1InspectedIo} {raw : List UInt8}

theorem observeTurn_borrowed (hstate : io.state = .head) (hhead : io.head = []) (hraw : trimLeadingEmptyLines raw = [])
    (hscanned : io.headScanned = 0) (pending : Http1Verdicts) {input : List UInt8} (hne : input ≠ []) :
    Observed (inspectHead httparse io.maxHeaders) io raw pending input (observeTurn httparse io pending input).1.1
      (observeTurn httparse io pending input).1.2 (observeTurn httparse io pending input).2 := by
  obtain ⟨blank, hblank, heq, -⟩ := trim_spec raw
  rw [hraw, append_nil] at heq
  subst heq
  have hshift : ∀ b, (inspectHead httparse io.maxHeaders).scan (raw ++ b) = _ := fun b => scan_blank_append hblank b
  have htrim : trimLeadingEmptyLines (raw ++ input) = trimLeadingEmptyLines input := trim_blank_append hblank input
  simp only [observeTurn, hstate, if_pos hhead]
  split
  · rename_i n v l hscan
    exact observed_complete hstate hblank rfl hscan hhead hscanned
  · rename_i hscan
    unfold bufferPartialHead
    split
    · rename_i hmax
      refine observed_ends _ hstate (.oversized (append_ne_nil_of_right_ne_nil raw hne) ?_ ?_)
      · rw [hshift, hscan]
        exact fun n v h => nomatch h
      · rw [length_append]
        omega
    · refine .tracks (raw ++ input) [] (.head hstate ?_ ?_ le_rfl fun _ => ?_) ?_ fun later => ?_
      · dsimp only
        rw [hhead, nil_append, htrim]
      · dsimp only
        rw [hhead, nil_append]
        refine undecided_of_incomplete ?_
        rw [scan_trim] at hscan
        exact Scan.shift_eq_incomplete.1 hscan
      · intro hnil
        have hinv := (inspectHead httparse io.maxHeaders).invalid_append input hnil
        rw [nil_append, hscan] at hinv
        cases hinv
      · rw [map_nil, append_nil]
      · simp only [unread, hstate, nil_append, append_assoc]
        exact .nil _
  · rename_i hscan
    refine observed_ends _ hstate (.unparsable (append_ne_nil_of_right_ne_nil raw hne) ?_)
    rw [hshift, hscan]
    rfl

theorem observeTurn_buffered (hstate : io.state = .head) (hhead : io.head = trimLeadingEmptyLines raw)
    (hne : io.head ≠ []) (hund : Undecided (inspectHead httparse io.maxHeaders) io.head)
    (hscanned : io.headScanned ≤ io.head.length) (hraw : raw ≠ [])
    (hnil : (inspectHead httparse io.maxHeaders).scan [] ≠ .invalid) (pending : Http1Verdicts) (input : List UInt8) :
    Observed (inspectHead httparse io.maxHeaders) io raw pending input (observeTurn httparse io pending input).1.1
      (observeTurn httparse io pending input).1.2 (observeTurn httparse io pending input).2 := by
  obtain ⟨blank, hblank, heq, htrimmed⟩ := trim_spec raw
  rw [← hhead] at heq htrimmed
  obtain ⟨blank', hblank', heq', -⟩ := trim_spec (raw ++ input)
  have htrim : trimLeadingEmptyLines (raw ++ input) = trimLeadingEmptyLines (io.head ++ input) := by
    conv_lhs => rw [heq, append_assoc]
    exact trim_blank_append hblank _
  have hund' := undecided_extend hund htrimmed hne hscanned (c := input)
  rw [htrim] at heq'
  have hlen : (trimLeadingEmptyLines (io.head ++ input)).length ≤ (raw ++ input).length := htrim ▸ trim_length_le _
  have hlen' := trim_length_le (io.head ++ input)
  have hscan' := @scan_blank_append _ (inspectHead httparse io.maxHeaders) _ hblank'
    (trimLeadingEmptyLines (io.head ++ input))
  rw [← heq'] at hscan'
  -- while nothing is decided, the bytes are kept
  have hkeep : ∀ io' : Http1InspectedIo, io'.state = .head → io'.head = trimLeadingEmptyLines (io.head ++ input) →
      Undecided (inspectHead httparse io.maxHeaders) io'.head → io'.headScanned ≤ io'.head.length →
      Observed (inspectHead httparse io.maxHeaders) io raw pending input io' pending [] := by
    intro io' hs hh hu hsc
    refine .tracks (raw ++ input) [] (.head hs (hh.trans htrim.symm) hu hsc fun _ => hnil) ?_ fun later => ?_
    · rw [map_nil, append_nil]
    · simp only [unread, hstate, hs, nil_append, append_assoc]
      exact .nil _
  have hover : Undecided (inspectHead httparse io.maxHeaders) (trimLeadingEmptyLines (io.head ++ input)) →
      io.maxHeadBytes ≤ (trimLeadingEmptyLines (io.head ++ input)).length →
      Ends (inspectHead httparse io.maxHeaders) io.maxHeadBytes (raw ++ input) .terminal := by
    intro hu hmax
    refine .oversized (append_ne_nil_of_left_ne_nil hraw input) (fun n v h => ?_) (hmax.trans hlen)
    rw [hscan', Scan.shift_eq_complete] at h
    obtain ⟨m, hm, -⟩ := h
    exact hu.not_complete m v hm
  simp only [observeTurn, hstate, if_neg hne]
  split
  · rename_i hempty
    refine hkeep _ rfl rfl ?_ ?_
    · dsimp only
      rw [hempty]
      exact undecided_nil
    · dsimp only
      rw [hempty, length_append, length_nil]
      omega
  · split
    · rename_i hterm
      have hu := hund' (by simpa using hterm)
      split
      · rename_i hmax
        exact observed_ends _ hstate (hover hu hmax)
      · exact hkeep _ rfl rfl hu le_rfl
    · split
      · rename_i n v l hscan
        exact observed_complete hstate hblank' heq' hscan rfl rfl
      · rename_i hscan
        have hu := undecided_of_incomplete hscan
        split
        · rename_i hmax
          exact observed_ends _ hstate (hover hu hmax)
        · refine hkeep _ rfl rfl hu ?_
          dsimp only
          rw [length_append] at hlen' ⊢
          omega
      · rename_i hscan
        refine observed_ends _ hstate (.unparsable (append_ne_nil_of_left_ne_nil hraw input) ?_)
        rw [hscan', hscan]
        rfl

theorem observeTurn_body {remaining : ℕ} (hstate : io.state = .body remaining) (hhead : io.head = [])
    (hscanned : io.headScanned = 0) (pending : Http1Verdicts) (input : List UInt8) :
    Observed p io [] pending input (observeTurn httparse io pending input).1.1
      (observeTurn httparse io pending input).1.2 (observeTurn httparse io pending input).2 := by
  simp only [observeTurn, hstate]
  rcases Nat.lt_or_ge input.length remaining with hlt | hle
  · rw [Nat.min_eq_right hlt.le, drop_length, if_neg (by omega)]
    refine .tracks [] [] (.body rfl hhead hscanned) ?_ fun later => ?_
    · rw [map_nil, append_nil]
    · simp only [unread, hstate, nil_append]
      rw [drop_append, drop_eq_nil_of_le hlt.le, nil_append]
      exact .nil _
  · rw [Nat.min_eq_left hle, Nat.sub_self, if_pos rfl]
    refine .tracks [] [] (.head rfl hhead ?_ (Nat.le_of_eq (by simp [hscanned, hhead])) fun h => absurd rfl h) ?_
      fun later => ?_
    · dsimp only
      rw [hhead]
      exact undecided_nil
    · rw [map_nil, append_nil]
    · simp only [unread, hstate, nil_append]
      rw [drop_append_of_le_length hle]
      exact .nil _

theorem observeTurn_spec (ht : Tracks (inspectHead httparse io.maxHeaders) io raw) (pending : Http1Verdicts)
    {input : List UInt8} (hne : input ≠ []) :
    Observed (inspectHead httparse io.maxHeaders) io raw pending input (observeTurn httparse io pending input).1.1
      (observeTurn httparse io pending input).1.2 (observeTurn httparse io pending input).2 := by
  cases ht with
  | head hstate hhead hund hscanned hnil =>
    by_cases hempty : io.head = []
    · have hzero : io.headScanned = 0 := by
        rw [hempty, length_nil] at hscanned
        omega
      exact observeTurn_borrowed hstate hempty (hhead ▸ hempty) hzero pending hne
    · have hraw : raw ≠ [] := by
        rintro rfl
        exact hempty hhead
      exact observeTurn_buffered hstate hhead hempty hund hscanned hraw (hnil hraw) pending input
  | body hstate hhead hscanned => exact observeTurn_body hstate hhead hscanned pending input

/-! ## Reads -/

theorem finishHead_limits (io : Http1InspectedIo) (pending : Http1Verdicts) (v : HeadVerdict) (l : ℕ) :
    (io.finishHead pending v l).1.maxHeadBytes = io.maxHeadBytes ∧
      (io.finishHead pending v l).1.maxHeaders = io.maxHeaders := by
  unfold finishHead
  rcases pending.push v with ⟨accepted, pending'⟩
  dsimp only
  split <;> exact ⟨rfl, rfl⟩

theorem observeTurn_limits (httparse : ℕ → HeadScanner RequestHead) (io : Http1InspectedIo) (pending : Http1Verdicts)
    (input : List UInt8) :
    (observeTurn httparse io pending input).1.1.maxHeadBytes = io.maxHeadBytes ∧
      (observeTurn httparse io pending input).1.1.maxHeaders = io.maxHeaders := by
  obtain ⟨io', rest, hturn, -, hmax, hheaders⟩ | ⟨io₁, v, l, rest, hturn, -, hmax, hheaders⟩ :=
    observeTurn_cases httparse io input
  · rw [hturn]
    exact ⟨hmax, hheaders⟩
  · rw [hturn, (finishHead_limits io₁ pending v l).1, (finishHead_limits io₁ pending v l).2]
    exact ⟨hmax, hheaders⟩

theorem observe_limits (httparse : ℕ → HeadScanner RequestHead) (s : Http1InspectedIo × Http1Verdicts)
    (input : List UInt8) :
    (observe httparse s input).1.maxHeadBytes = s.1.maxHeadBytes ∧
      (observe httparse s input).1.maxHeaders = s.1.maxHeaders := by
  refine observe_keeps (P := fun s' => s'.1.maxHeadBytes = s.1.maxHeadBytes ∧ s'.1.maxHeaders = s.1.maxHeaders) httparse
    (fun s' input h => ?_) ⟨rfl, rfl⟩ input
  obtain ⟨hmax, hheaders⟩ := observeTurn_limits httparse s'.1 s'.2 input
  exact ⟨hmax.trans h.1, hheaders.trans h.2⟩

theorem Observed.after {io io' io'' : Http1InspectedIo} {raw raw' input input' rest : List UInt8}
    {pending pending' : Http1Verdicts} {vs : List (HeadVerdict × ℕ)}
    (hreads : ∀ later, Reads p.toScanner bodySkip (unread io raw (input ++ later)) vs (unread io' raw' (input' ++ later)))
    (hmax : io'.maxHeadBytes = io.maxHeadBytes)
    (h : Observed p io' raw' (pending ++ vs.map Prod.fst) input' io'' pending' rest) :
    Observed p io raw pending input io'' pending' rest := by
  cases h with
  | tracks raw'' ws ht hpending hws =>
    refine .tracks raw'' (vs ++ ws) ht ?_ fun later => (hreads later).append (hws later)
    rw [hpending, map_append, append_assoc]
  | stops cur tail ws hstate hstops hws =>
    refine .stops cur tail (vs ++ ws) hstate ?_ fun later => (hreads later).append (hws later)
    rw [hmax, append_assoc, ← map_append] at hstops
    exact hstops

variable {s : Http1InspectedIo × Http1Verdicts}

theorem observe_passthrough (h : s.1.state = .passthrough) (input : List UInt8) :
    observe httparse s input = s := by
  have hturn : observeTurn httparse s.1 s.2 input = ((s.1, s.2), []) := by
    unfold observeTurn
    rw [h]
  rw [observe]
  split
  · rfl
  · rw [dif_pos (by rw [hturn]), hturn]

theorem foldl_observe_passthrough (h : s.1.state = .passthrough)
    (reads : List (List UInt8)) : reads.foldl (observe httparse) s = s := by
  induction reads with
  | nil => rfl
  | cons input reads ih => rw [foldl_cons, observe_passthrough h, ih]

variable {raw : List UInt8}

/-- **One read.** -/
theorem observe_spec (ht : Tracks (inspectHead httparse s.1.maxHeaders) s.1 raw) (input : List UInt8) :
    Observed (inspectHead httparse s.1.maxHeaders) s.1 raw s.2 input (observe httparse s input).1
      (observe httparse s input).2 [] := by
  induction s, input using observe.induct httparse generalizing raw with
  | case1 s =>
    rw [observe, dif_pos rfl]
    exact .tracks raw [] ht (by simp) fun later => .nil _
  | case2 s input hne hrest =>
    have hturn := observeTurn_spec ht s.2 hne
    rw [hrest] at hturn
    rw [observe, dif_neg hne, dif_pos hrest]
    exact hturn
  | case3 s input hne hrest ih =>
    obtain ⟨hmax, hheaders⟩ := observeTurn_limits httparse s.1 s.2 input
    rw [observe, dif_neg hne, dif_neg hrest]
    cases observeTurn_spec ht s.2 hne with
    | tracks raw' vs ht' hpending hreads =>
      rw [← hheaders] at ht' hreads
      have h := ih ht'
      rw [hpending] at h
      rw [← hheaders]
      exact .after hreads hmax h
    | stops cur tail vs hstate hstops hreads =>
      rw [observe_passthrough hstate]
      exact .stops cur tail vs hstate hstops hreads

theorem observe_reads_spec (ht : Tracks (inspectHead httparse s.1.maxHeaders) s.1 raw) (reads : List (List UInt8)) :
    Observed (inspectHead httparse s.1.maxHeaders) s.1 raw s.2 reads.flatten (reads.foldl (observe httparse) s).1
      (reads.foldl (observe httparse) s).2 [] := by
  induction reads generalizing s raw with
  | nil => exact .tracks raw [] ht (by simp) fun later => .nil _
  | cons input reads ih =>
    obtain ⟨hmax, hheaders⟩ := observe_limits httparse s input
    rw [flatten_cons, foldl_cons]
    cases observe_spec ht input with
    | tracks raw' vs ht' hpending hreads =>
      rw [← hheaders] at ht' hreads ⊢
      have h := ih ht'
      rw [hpending] at h
      refine .after (fun later => ?_) hmax h
      rw [append_assoc]
      exact hreads (reads.flatten ++ later)
    | stops cur tail vs hstate hstops hreads =>
      rw [foldl_observe_passthrough hstate]
      refine .stops cur (tail ++ reads.flatten) vs hstate hstops fun later => ?_
      rw [append_assoc, append_assoc]
      exact hreads (reads.flatten ++ later)

theorem tracks_new (p : HeadScanner (HeadVerdict × ℕ)) (maxHeadBytes maxHeaders : ℕ) :
    Tracks p (new maxHeadBytes maxHeaders) [] :=
  .head rfl rfl undecided_nil le_rfl fun h => absurd rfl h

theorem observe_new_spec (httparse : ℕ → HeadScanner RequestHead) (maxHeadBytes maxHeaders : ℕ)
    (reads : List (List UInt8)) :
    Observed (inspectHead httparse maxHeaders) (new maxHeadBytes maxHeaders) [] [] reads.flatten
      (reads.foldl (observe httparse) (new maxHeadBytes maxHeaders, [])).1
      (reads.foldl (observe httparse) (new maxHeadBytes maxHeaders, [])).2 [] :=
  @observe_reads_spec httparse (new maxHeadBytes maxHeaders, []) [] (tracks_new _ _ _) reads

/-! ## The sequence of heads -/

def HeadWithin (p : HeadScanner (HeadVerdict × ℕ)) (maxHeadBytes : ℕ) (rest : List UInt8) : Prop :=
  match p.scan rest with
  | .complete length _ => length ≤ maxHeadBytes
  | .incomplete => rest.length < maxHeadBytes
  | .invalid => ∃ e, EmptyLineEnd (rest.take e) ∧ p.scan (rest.take e) = .invalid

/-- All heads of a stream are within the limits. -/
def HeadsWithin (p : HeadScanner (HeadVerdict × ℕ)) (maxHeadBytes : ℕ) (stream : List UInt8) : Prop :=
  ∀ vs rest, Reads p.toScanner bodySkip stream vs rest → rest ≠ [] → HeadWithin p maxHeadBytes rest

theorem headsWithin_nil (p : HeadScanner (HeadVerdict × ℕ)) (maxHeadBytes : ℕ) : HeadsWithin p maxHeadBytes [] := by
  intro vs rest hr hne
  cases hr with
  | nil => exact absurd rfl hne
  | cons hs => exact absurd hs Scanner.scan_nil_ne_complete

theorem HeadsWithin.cons {maxHeadBytes n : ℕ} {v : HeadVerdict × ℕ} {stream : List UInt8}
    (hs : p.scan stream = .complete n v) (hn : n ≤ maxHeadBytes)
    (hnext : ∀ l, bodySkip v = some l → HeadsWithin p maxHeadBytes (stream.drop (n + l))) :
    HeadsWithin p maxHeadBytes stream := by
  intro vs rest hr hne
  cases hr with
  | nil =>
    unfold HeadWithin
    rw [hs]
    exact hn
  | cons hs' hk hr =>
    rw [hs] at hs'
    cases hs'
    exact hnext _ hk _ _ hr hne

def headVerdicts (p : HeadScanner (HeadVerdict × ℕ)) (stream : List UInt8) : List HeadVerdict :=
  (units p.toScanner bodySkip (fun _ => [(.terminal, 0)]) stream).map Prod.fst

theorem undecided_of_trim (hnil : raw ≠ [] → p.scan [] ≠ .invalid)
    (hu : Undecided p (trimLeadingEmptyLines raw)) : Undecided p raw where
  not_complete n v hn := by
    rw [scan_trim, Scan.shift_eq_complete] at hn
    obtain ⟨m, hm, -⟩ := hn
    exact hu.not_complete m v hm
  not_invalid e hend hi := by
    have hne : raw ≠ [] := by
      rintro rfl
      rw [take_nil] at hend
      exact not_emptyLineEnd_nil hend
    obtain ⟨blank, hblank, heq, ht⟩ := trim_spec (raw.take e)
    generalize hb : trimLeadingEmptyLines (raw.take e) = b at heq ht
    rw [heq, scan_blank_append hblank, Scan.shift_eq_invalid] at hi
    have hbne : b ≠ [] := by
      rintro rfl
      exact hnil hne hi
    rw [heq] at hend
    have hend' := hend.of_blank_append ht hbne
    -- what is left of the part is the front of what is left of the whole
    have htrim : trimLeadingEmptyLines raw = b ++ raw.drop e := by
      conv_lhs => rw [← take_append_drop e raw, heq, append_assoc, trim_blank_append hblank]
      rcases trim_append_of_trimmed ht hbne (raw.drop e) with h | rfl
      · exact h
      · exact absurd hend'.two_le (by decide)
    refine hu.not_invalid b.length ?_ ?_
    · rw [htrim, take_left]
      exact hend'
    · rw [htrim, take_left]
      exact hi

theorem Tracks.units_unread {bad : List UInt8 → List (HeadVerdict × ℕ)} {io : Http1InspectedIo}
    (ht : Tracks p io raw)
    (hbad : unread io raw [] ≠ [] → Undecided p (unread io raw []) → p.scan (unread io raw []) = .invalid →
      bad (unread io raw []) = []) :
    units p.toScanner bodySkip bad (unread io raw []) = [] := by
  cases ht with
  | head hstate hhead hund hscanned hnil =>
    rw [hhead] at hund
    have hu := undecided_of_trim hnil hund
    have hread : unread io raw [] = raw := by
      simp only [unread, hstate, append_nil]
    rw [hread] at hbad ⊢
    by_cases hne : raw = []
    · rw [hne, units_nil]
    · cases hs : p.scan raw with
      | complete n v => exact absurd hs (hu.not_complete n v)
      | incomplete => exact units_incomplete hs
      | invalid => rw [units_invalid hne hs, hbad hne hu hs]
  | body hstate => simp only [unread, hstate, drop_nil, units_nil]

theorem Ends.units_eq {maxHeadBytes : ℕ} {cur tail : List UInt8} {v : HeadVerdict} (h : Ends p maxHeadBytes cur v)
    (hwithin : cur ++ tail ≠ [] → HeadWithin p maxHeadBytes (cur ++ tail)) : headVerdicts p (cur ++ tail) = [v] := by
  unfold headVerdicts
  cases h with
  | verdict hscan hv => rw [units_complete (Scanner.complete_append hscan), bodySkip, if_neg hv]; rfl
  | unparsable hne hscan =>
    rw [units_invalid (append_ne_nil_of_left_ne_nil hne tail) (p.invalid_append tail hscan)]
    rfl
  | oversized hne hnot hmax =>
    have hcur := append_ne_nil_of_left_ne_nil hne tail
    have hwithin := hwithin hcur
    unfold HeadWithin at hwithin
    cases hs : p.scan (cur ++ tail) with
    | complete n v =>
      rw [hs] at hwithin
      exact absurd (Scanner.length_lt_of_complete_append hnot hs) (by omega)
    | incomplete =>
      rw [hs] at hwithin
      simp only [length_append] at hwithin
      omega
    | invalid =>
      rw [units_invalid hcur hs]
      rfl

/-- **Chunking.** The head parser `httparse` is any scanner of heads. However a stream within the limits is split into
reads, the verdicts pushed are those of its heads, parsed one after another. -/
theorem observe_chunking (httparse : ℕ → HeadScanner RequestHead) (maxHeadBytes maxHeaders : ℕ) (stream : List UInt8)
    (hwithin : HeadsWithin (inspectHead httparse maxHeaders) maxHeadBytes stream)
    (hheads : (headVerdicts (inspectHead httparse maxHeaders) stream).length < maxPendingVerdicts)
    (reads : List (List UInt8)) (hreads : reads.flatten = stream) :
    (reads.foldl (observe httparse) (new maxHeadBytes maxHeaders, [])).2 =
      headVerdicts (inspectHead httparse maxHeaders) stream := by
  subst hreads
  have hobserved := observe_new_spec httparse maxHeadBytes maxHeaders reads
  -- reading some heads of the stream leaves the others
  have hsplit : ∀ {vs rest}, Reads (inspectHead httparse maxHeaders).toScanner bodySkip reads.flatten vs rest →
      headVerdicts (inspectHead httparse maxHeaders) reads.flatten =
        vs.map Prod.fst ++ headVerdicts (inspectHead httparse maxHeaders) rest := by
    intro vs rest hr
    rw [headVerdicts, hr.units_eq, map_append]
    rfl
  generalize reads.foldl (observe httparse) (new maxHeadBytes maxHeaders, []) = s at hobserved ⊢
  obtain ⟨io, pending⟩ := s
  cases hobserved with
  | tracks raw vs ht hpending hr =>
    have hr := hr []
    rw [append_nil, nil_append] at hr
    have hrest : headVerdicts (inspectHead httparse maxHeaders) (unread io raw []) = [] := by
      rw [headVerdicts, ht.units_unread, map_nil]
      intro hne hu hs
      have := hwithin _ _ hr hne
      unfold HeadWithin at this
      rw [hs] at this
      obtain ⟨e, hend, hi⟩ := this
      exact absurd hi (hu.not_invalid e hend)
    rw [hpending, hsplit hr, hrest, append_nil, nil_append]
  | stops cur tail vs hstate hstops hr =>
    have hr := hr []
    rw [append_nil, append_nil] at hr
    have hlen := congrArg List.length (hsplit hr)
    rw [length_append] at hlen
    rw [nil_append] at hstops
    rw [hsplit hr]
    cases hstops with
    | pushed hend =>
      rw [hend.units_eq (hwithin _ _ hr)]
      rfl
    | dropped _ hfull | full _ hfull => omega

def postHead : List UInt8 := "POST / HTTP/1.1\r\nContent-Length: 2\r\n\r\n".toUTF8.toList

def postParser (_maxHeaders : ℕ) : HeadScanner RequestHead :=
  emptyLineScanner fun b =>
    if b = postHead then some ⟨some "POST", [("Content-Length", [50])]⟩ else none

def postStream : List UInt8 := postHead ++ [111, 107, 13, 10] ++ postHead ++ [111, 107]

theorem headsWithin_postStream : HeadsWithin (inspectHead postParser 8) 40 postStream := by
  have hfirst : (inspectHead postParser 8).scan postStream = .complete 38 (.persistent, 2) := by decide +kernel
  have hsecond : (inspectHead postParser 8).scan (postStream.drop 40) = .complete 40 (.persistent, 2) := by
    decide +kernel
  have hlast : HeadsWithin (inspectHead postParser 8) 40 ((postStream.drop 40).drop 42) := by
    rw [show (postStream.drop 40).drop 42 = [] by decide +kernel]
    exact headsWithin_nil _ _
  refine .cons hfirst (by decide) fun l hl => ?_
  cases hl
  refine .cons hsecond (by decide) fun l hl => ?_
  cases hl
  exact hlast

/-- The reads cut both heads and one body. -/
theorem observe_chunking_two_posts :
    ([postHead.take 20, postHead.drop 20 ++ [111], [107, 13], 10 :: postHead.take 3, postHead.drop 3 ++ [111, 107]].foldl
      (observe postParser) (new 40 8, [])).2 = [.persistent, .persistent] := by
  have hverdicts : headVerdicts (inspectHead postParser 8) postStream = [.persistent, .persistent] := by decide +kernel
  rw [← hverdicts]
  exact observe_chunking postParser 40 8 postStream headsWithin_postStream (by rw [hverdicts]; decide) _
    (by decide +kernel)

end RustRest
