import RustRest.Form.Multipart

/-!
# Delimiter lines

What a delimiter line is, apart from how the parser looks for one, and that the parser finds the first of them.
-/

namespace RustRest

open Search List

/-- `--` after a closing delimiter. -/
def dashes (closing : Bool) : List UInt8 := if closing then [0x2d, 0x2d] else []

def BlankBytes (blanks : List UInt8) : Prop := ∀ b ∈ blanks, b = 0x20 ∨ b = 0x09

def LineEnds (closing : Bool) (rest : List UInt8) : Prop := crlf <+: rest ∨ closing = true ∧ rest = []

/-- A delimiter line at a position, after a line break. -/
def DelimiterLineAt (body delimiter : List UInt8) (position : ℕ) : Prop :=
  ∃ before closing blanks rest, body = before ++ (crlf ++ (delimiter ++ (dashes closing ++ (blanks ++ rest)))) ∧
    position = before.length + 2 ∧ BlankBytes blanks ∧ LineEnds closing rest

section Lines

variable {body delimiter : List UInt8} {position : ℕ}

/-! ## What is parsed -/

variable {closing : Bool} {blanks rest : List UInt8}

theorem LineEnds.takeWhile_blank (hblanks : BlankBytes blanks)
    (hend : LineEnds closing rest) : (blanks ++ rest).takeWhile (fun b => b == 0x20 || b == 0x09) = blanks := by
  rw [takeWhile_append_of_pos fun b hb => by simpa using hblanks b hb]
  rcases hend with ⟨behind, rfl⟩ | ⟨-, rfl⟩
  · rw [crlf, cons_append, takeWhile_cons_of_neg (by decide), append_nil]
  · rw [takeWhile_nil, append_nil]

theorem delimiterLineEnd_eq {cursor : ℕ}
    (h : body.drop cursor = blanks ++ rest) (hcursor : cursor ≤ body.length) (hblanks : BlankBytes blanks)
    (hend : LineEnds closing rest) :
    delimiterLineEnd body closing cursor = some ⟨closing, cursor + blanks.length + min 2 rest.length⟩ := by
  have hrest : body.drop (cursor + blanks.length) = rest := by
    rw [← drop_drop, h, drop_left]
  have hlength := congrArg List.length h
  rw [length_drop, length_append] at hlength
  unfold delimiterLineEnd
  rw [h, hend.takeWhile_blank hblanks]
  dsimp only
  rw [hrest]
  rcases hend with ⟨behind, rfl⟩ | ⟨rfl, rfl⟩
  · have hcrlf : (crlf ++ behind).take 2 = crlf := rfl
    rw [if_pos hcrlf, length_append]
    show some (Delimiter.mk closing (cursor + blanks.length + 2)) = some ⟨closing, _ + min 2 (2 + behind.length)⟩
    rw [Nat.min_eq_left (Nat.le_add_right _ _)]
  · rw [if_neg (by decide), Bool.true_and, if_pos]
    · rfl
    · rw [beq_iff_eq]
      rw [length_nil] at hlength
      omega

theorem take_dashes (hblanks : BlankBytes blanks)
    (hend : LineEnds closing rest) :
    ((dashes closing ++ (blanks ++ rest)).take 2 == [0x2d, 0x2d]) = closing := by
  cases closing with
  | true => rfl
  | false =>
    rw [beq_eq_false_iff_ne]
    show (blanks ++ rest).take 2 ≠ _
    cases blanks with
    | nil =>
      rcases hend with ⟨behind, rfl⟩ | ⟨hclosing, -⟩
      · show crlf ≠ _
        decide
      · cases hclosing
    | cons b blanks =>
      intro heq
      have hb : b = 0x2d := (List.cons.inj heq).1
      rcases hblanks b mem_cons_self with hspace | htab
      · exact absurd (hb.symm.trans hspace) (by decide)
      · exact absurd (hb.symm.trans htab) (by decide)

/-- **A delimiter line is parsed.** -/
theorem parseDelimiterLine_eq (hposition : position ≤ body.length)
    (h : body.drop position = delimiter ++ (dashes closing ++ (blanks ++ rest))) (hblanks : BlankBytes blanks)
    (hend : LineEnds closing rest) : parseDelimiterLine body position delimiter =
      some ⟨closing, position + delimiter.length + (dashes closing).length + blanks.length + min 2 rest.length⟩ := by
  have hlength := congrArg List.length h
  simp only [length_drop, length_append] at hlength
  have hcursor : body.drop (position + delimiter.length) = dashes closing ++ (blanks ++ rest) := by
    rw [← drop_drop, h, drop_left]
  have hbehind : body.drop (position + delimiter.length + (dashes closing).length) = blanks ++ rest := by
    rw [← drop_drop, hcursor, drop_left]
  have hstart : (if closing = true then position + delimiter.length + 2 else position + delimiter.length) =
      position + delimiter.length + (dashes closing).length := by
    cases closing <;> rfl
  unfold parseDelimiterLine
  rw [h, take_left, if_neg (not_not.2 rfl)]
  dsimp only
  rw [hcursor, take_dashes hblanks hend, hstart]
  exact delimiterLineEnd_eq hbehind (by omega) hblanks hend

theorem parseDelimiterLine_crlf {rest : List UInt8} (h : body.drop position = delimiter ++ (crlf ++ rest)) :
    parseDelimiterLine body position delimiter = some ⟨false, position + delimiter.length + 2⟩ := by
  have hline : body.drop position = delimiter ++ (dashes false ++ ([] ++ (crlf ++ rest))) := h
  have hnone : BlankBytes [] := fun b hb => absurd hb not_mem_nil
  have htwo : 2 ≤ (crlf ++ rest).length := by
    rw [length_append]
    exact Nat.le_add_right _ _
  have hlength := congrArg List.length h
  rw [length_drop, length_append] at hlength
  rw [parseDelimiterLine_eq (by omega) hline hnone (.inl (prefix_append _ _)), Nat.min_eq_left htwo]
  rfl

variable {parsed : Delimiter}

theorem delimiterLineEnd_eq_some {cursor : ℕ}
    (h : delimiterLineEnd body closing cursor = some parsed) : parsed.closing = closing ∧
      ∃ blanks rest, body.drop cursor = blanks ++ rest ∧ BlankBytes blanks ∧ LineEnds closing rest := by
  unfold delimiterLineEnd at h
  generalize hblanks : (body.drop cursor).takeWhile (fun b => b == 0x20 || b == 0x09) = blanks at h
  dsimp only at h
  have hblank : BlankBytes blanks := by
    rw [← hblanks]
    intro b hb
    simpa using mem_takeWhile_imp hb
  have hrest : body.drop cursor = blanks ++ body.drop (cursor + blanks.length) := by
    rw [← drop_drop, ← hblanks]
    exact (prefix_iff_eq_append.1 ( takeWhile_prefix _)).symm
  split at h
  · next hcrlf =>
    cases h
    exact ⟨rfl, blanks, _, hrest, hblank, .inl (hcrlf ▸ take_prefix _ _)⟩
  · split at h
    · next hlast =>
      rw [Bool.and_eq_true, beq_iff_eq] at hlast
      cases h
      exact ⟨rfl, blanks, _, hrest, hblank, .inr ⟨hlast.1, drop_eq_nil_of_le (Nat.le_of_eq hlast.2.symm)⟩⟩
    · cases h

/-- **What is parsed is a delimiter line.** -/
theorem parseDelimiterLine_eq_some (h : parseDelimiterLine body position delimiter = some parsed) :
    ∃ blanks rest, body.drop position = delimiter ++ (dashes parsed.closing ++ (blanks ++ rest)) ∧ BlankBytes blanks ∧
      LineEnds parsed.closing rest := by
  unfold parseDelimiterLine at h
  split at h
  · cases h
  · next hfront =>
    have hdelimiter : body.drop position = delimiter ++ body.drop (position + delimiter.length) := by
      conv_lhs => rw [← take_append_drop delimiter.length (body.drop position), not_not.1 hfront, drop_drop]
    dsimp only at h
    generalize hclosing : ((body.drop (position + delimiter.length)).take 2 == [0x2d, 0x2d]) = closing at h
    have hdashes : body.drop (position + delimiter.length) = dashes closing ++
        body.drop (if closing = true then position + delimiter.length + 2 else position + delimiter.length) := by
      cases closing with
      | false => rfl
      | true =>
        conv_lhs => rw [← take_append_drop 2 (body.drop (position + delimiter.length)), beq_iff_eq.1 hclosing,
          drop_drop]
        rfl
    obtain ⟨rfl, blanks, rest, hrest, hblanks, hend⟩ := delimiterLineEnd_eq_some h
    exact ⟨blanks, rest, by rw [hdelimiter, hdashes, hrest], hblanks, hend⟩

theorem next_le_of_parseDelimiterLine (hposition : position ≤ body.length)
    (h : parseDelimiterLine body position delimiter = some parsed) :
    position + delimiter.length ≤ parsed.next ∧ parsed.next ≤ body.length := by
  obtain ⟨blanks, rest, hline, hblanks, hend⟩ := parseDelimiterLine_eq_some h
  have hlength := congrArg List.length hline
  simp only [length_drop, length_append] at hlength
  have hparsed := (parseDelimiterLine_eq hposition hline hblanks hend).symm.trans h
  rw [← Option.some.inj hparsed]
  dsimp only
  omega

/-! ## Lines of the body -/

theorem afterCrlf_iff : afterCrlf body position = true ↔
    2 ≤ position ∧ body.drop (position - 2) = crlf ++ body.drop position := by
  rw [afterCrlf, Bool.and_eq_true, decide_eq_true_eq, beq_iff_eq]
  refine and_congr_right fun htwo => ⟨fun h => ?_, fun h => ?_⟩
  · conv_lhs => rw [← take_append_drop 2 (body.drop (position - 2)), h, drop_drop]
    rw [Nat.sub_add_cancel htwo]
  · rw [h]
    rfl

theorem delimiterLineAt_iff : DelimiterLineAt body delimiter position ↔
    afterCrlf body position = true ∧ ∃ parsed, parseDelimiterLine body position delimiter = some parsed := by
  constructor
  · rintro ⟨before, closing, blanks, rest, rfl, rfl, hblanks, hend⟩
    have hline : (before ++ (crlf ++ (delimiter ++ (dashes closing ++ (blanks ++ rest))))).drop (before.length + 2) =
        delimiter ++ (dashes closing ++ (blanks ++ rest)) := by
      rw [← drop_drop, drop_left]
      rfl
    refine ⟨afterCrlf_iff.2 ⟨Nat.le_add_left _ _, ?_⟩, _, parseDelimiterLine_eq ?_ hline hblanks hend⟩
    · rw [hline, Nat.add_sub_cancel, drop_left]
    · rw [length_append, length_append]
      show before.length + 2 ≤ before.length + (2 + _)
      omega
  · rintro ⟨hbreak, parsed, hparsed⟩
    obtain ⟨htwo, hbreak⟩ := afterCrlf_iff.1 hbreak
    obtain ⟨blanks, rest, hline, hblanks, hend⟩ := parseDelimiterLine_eq_some hparsed
    have hlength := congrArg List.length hbreak
    rw [length_append, length_drop, length_drop] at hlength
    have hcrlf : crlf.length = 2 := rfl
    refine ⟨body.take (position - 2), parsed.closing, blanks, rest, ?_, ?_, hblanks, hend⟩
    · rw [← hline, ← hbreak, take_append_drop]
    · rw [length_take]
      omega

theorem DelimiterLineAt.prefix_drop (h : DelimiterLineAt body delimiter position) : delimiter <+: body.drop position := by
  obtain ⟨-, parsed, hparsed⟩ := delimiterLineAt_iff.1 h
  obtain ⟨blanks, rest, hline, -, -⟩ := parseDelimiterLine_eq_some hparsed
  rw [hline]
  exact prefix_append _ _

/-! ## The search -/

theorem not_delimiterLineAt_of_find {offset relative q : ℕ} (h : find (body.drop offset) delimiter = some relative)
    (hq : offset ≤ q) (hbefore : q < offset + relative) : ¬ DelimiterLineAt body delimiter q := by
  intro hline
  have hfront := hline.prefix_drop
  rw [← Nat.add_sub_cancel' hq, ← drop_drop] at hfront
  obtain ⟨j, hj, hfind⟩ := exists_find hfront
  have hsame : j = relative := Option.some.inj (hfind.symm.trans h)
  omega

theorem candidate_eq_some :
    (if afterCrlf body position then parseDelimiterLine body position delimiter else none) = some parsed ↔
      afterCrlf body position = true ∧ parseDelimiterLine body position delimiter = some parsed := by
  split
  · next hbreak => rw [hbreak, and_iff_right rfl]
  · next hbreak => exact iff_of_false (Option.some_ne_none _).symm fun h => hbreak h.1

theorem findNextDelimiter_spec {offset : ℕ}
    (h : findNextDelimiter body offset delimiter = some (position, parsed)) :
    afterCrlf body position = true ∧ parseDelimiterLine body position delimiter = some parsed ∧
      ∀ q, offset ≤ q → q < position → ¬ DelimiterLineAt body delimiter q := by
  fun_induction findNextDelimiter body offset delimiter with
  | case1 => cases h
  | case2 offset _ relative hfind position' parsed' parsed'' hparsed =>
    obtain ⟨hposition, hnext⟩ := Prod.mk.inj (Option.some.inj h)
    rw [← hposition, ← hnext]
    obtain ⟨hbreak, hline⟩ := candidate_eq_some.1 hparsed
    exact ⟨hbreak, hline, fun q hq hbefore => not_delimiterLineAt_of_find hfind hq hbefore⟩
  | case3 offset _ relative hfind position' parsed' hparsed ih =>
    obtain ⟨hbreak, hline, hfirst⟩ := ih h
    refine ⟨hbreak, hline, fun q hq hbefore hat => ?_⟩
    rcases Nat.lt_trichotomy q position' with hlt | rfl | hgt
    · exact not_delimiterLineAt_of_find hfind hq hlt hat
    · obtain ⟨hbreak, parsed, hat⟩ := delimiterLineAt_iff.1 hat
      cases hparsed.symm.trans (candidate_eq_some.2 ⟨hbreak, hat⟩)
    · exact hfirst q hgt hbefore hat
  | case4 => cases h

theorem findInitialFrom_spec {offset : ℕ}
    (h : findInitialFrom body delimiter offset = some parsed) :
    ∃ position, position ≤ body.length ∧ (position = 0 ∨ afterCrlf body position = true) ∧
      parseDelimiterLine body position delimiter = some parsed := by
  fun_induction findInitialFrom body delimiter offset with
  | case1 => cases h
  | case2 offset hle relative hfind position parsed' parsed'' hparsed =>
    have hrelative := le_length_of_find hfind
    rw [length_drop] at hrelative
    rw [← Option.some.inj h]
    by_cases hstart : (position == 0 || afterCrlf body position) = true
    · have hline : parsed' = parseDelimiterLine body position delimiter := if_pos hstart
      rw [Bool.or_eq_true, beq_iff_eq] at hstart
      exact ⟨position, by omega, hstart, hline.symm.trans hparsed⟩
    · have hnone : parsed' = none := if_neg hstart
      cases hnone.symm.trans hparsed
  | case3 offset _ relative hfind position parsed' hparsed ih => exact ih h
  | case4 => cases h

/-! ## Around a delimiter line -/

theorem le_length_of_afterCrlf (h : afterCrlf body position = true) : position ≤ body.length := by
  have hlength := congrArg List.length (afterCrlf_iff.1 h).2
  rw [length_append, length_drop, length_drop] at hlength
  have htwo : crlf.length = 2 := rfl
  omega

theorem getElem?_of_afterCrlf (h : afterCrlf body position = true) :
    body[position - 2]? = some 0x0d ∧ body[position - 1]? = some 0x0a := by
  obtain ⟨htwo, hbreak⟩ := afterCrlf_iff.1 h
  have hsecond : position - 1 = position - 2 + 1 := by omega
  constructor
  · rw [← List.head?_drop, hbreak]
    rfl
  · rw [hsecond, ← List.head?_drop, ← drop_drop, hbreak]
    rfl

theorem return_not_mem {blanks : List UInt8} (hreturn : 0x0d ∉ delimiter)
    (hblanks : BlankBytes blanks) : 0x0d ∉ delimiter ++ (dashes closing ++ blanks) := by
  rw [mem_append, mem_append, not_or, not_or]
  refine ⟨hreturn, by cases closing <;> decide, fun hmem => ?_⟩
  rcases hblanks _ hmem with h | h
  · exact absurd h (by decide)
  · exact absurd h (by decide)

theorem le_of_return {text rest : List UInt8} {i : ℕ} (h : body.drop position = text ++ rest) (htext : 0x0d ∉ text)
    (hle : position ≤ i) (hi : body[i]? = some 0x0d) : position + text.length ≤ i := by
  by_contra hlt
  have hinside : i - position < text.length := by omega
  have hat : text[i - position]? = some 0x0d := by
    rw [← List.getElem?_append_left hinside, ← h, List.getElem?_drop, Nat.add_sub_cancel' hle, hi]
  exact htext (mem_of_getElem? hat)

theorem parsedLine (hposition : position ≤ body.length) (hreturn : 0x0d ∉ delimiter)
    (h : parseDelimiterLine body position delimiter = some parsed) :
    ∃ text rest, body.drop position = text ++ rest ∧ 0x0d ∉ text ∧
      (parsed.closing = true ∧ parsed.next = position + text.length ∨
        crlf <+: rest ∧ parsed.next = position + text.length + 2) := by
  obtain ⟨blanks, rest, hline, hblanks, hend⟩ := parseDelimiterLine_eq_some h
  have hnext := congrArg Delimiter.next
    (Option.some.inj ((parseDelimiterLine_eq hposition hline hblanks hend).symm.trans h))
  refine ⟨delimiter ++ (dashes parsed.closing ++ blanks), rest, by rw [hline]; simp only [append_assoc],
    return_not_mem hreturn hblanks, ?_⟩
  rw [← hnext, length_append, length_append]
  rcases hend with ⟨behind, rfl⟩ | ⟨hclosing, rfl⟩
  · refine .inr ⟨prefix_append _ _, ?_⟩
    have htwo : 2 ≤ (crlf ++ behind).length := by
      rw [length_append]
      exact Nat.le_add_right _ _
    dsimp only
    rw [Nat.min_eq_left htwo]
    omega
  · refine .inl ⟨hclosing, ?_⟩
    rw [length_nil]
    dsimp only
    omega

theorem afterCrlf_next (hposition : position ≤ body.length) (hreturn : 0x0d ∉ delimiter)
    (h : parseDelimiterLine body position delimiter = some parsed) (hopen : parsed.closing = false) :
    afterCrlf body parsed.next = true := by
  obtain ⟨text, rest, hline, -, ⟨hclosing, -⟩ | ⟨⟨behind, rfl⟩, hnext⟩⟩ := parsedLine hposition hreturn h
  · cases hclosing.symm.trans hopen
  · have hend : body.drop (position + text.length) = crlf ++ behind := by
      rw [← drop_drop, hline, drop_left]
    rw [afterCrlf_iff, hnext, Nat.add_sub_cancel, hend, ← drop_drop, hend]
    exact ⟨Nat.le_add_left _ _, rfl⟩

theorem not_delimiterLineAt_inside {q : ℕ} (hreturn : 0x0d ∉ delimiter)
    (hbreak : afterCrlf body position = true) (h : parseDelimiterLine body position delimiter = some parsed)
    (hq : position < q) (hnext : q < parsed.next) : ¬ DelimiterLineAt body delimiter q := by
  intro hat
  have hreturnAt := (getElem?_of_afterCrlf (delimiterLineAt_iff.1 hat).1).1
  have htwo := (afterCrlf_iff.1 (delimiterLineAt_iff.1 hat).1).1
  obtain ⟨text, rest, hline, htext, hends⟩ := parsedLine (le_length_of_afterCrlf hbreak) hreturn h
  have hend : parsed.next ≤ position + text.length + 2 := by
    rcases hends with ⟨-, hends⟩ | ⟨-, hends⟩
    · omega
    · exact Nat.le_of_eq hends
  rcases Nat.lt_or_ge (q - 2) position with hbefore | hinside
  · -- the symbol before the line is the second one of a line break
    have hfeed := (getElem?_of_afterCrlf hbreak).2
    have hsame : position - 1 = q - 2 := by omega
    rw [hsame, hreturnAt] at hfeed
    exact absurd hfeed (by decide)
  · have hle := le_of_return hline htext hinside hreturnAt
    omega

end Lines

end RustRest
