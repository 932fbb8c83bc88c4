import RustRest.Form.Safety

/-!
# Delimiter lines in header blocks

The header block of a part is located by its empty line, not by the next delimiter line. A delimiter line in it is one of
its header lines, and such a line is accepted when it reads as one: the boundary may have a colon.

Main result: **`delimiters_separate`**.
-/

namespace RustRest

open Search Utf8Cursor List

/-! ## Lines of a text -/

theorem mem_splitCrlf_behind {rest line : List Char} (before : List Char) (h : line ∈ splitCrlf rest) :
    line ∈ splitCrlf (before ++ '\r' :: '\n' :: rest) := by
  have hsplit : ∃ first front, splitCrlf (before ++ '\r' :: '\n' :: rest) = first :: front ++ splitCrlf rest := by
    fun_induction splitCrlf before with
    | case1 => exact ⟨[], [], rfl⟩
    | case2 before ih =>
      obtain ⟨first, front, hfront⟩ := ih
      refine ⟨[], first :: front, ?_⟩
      show [] :: splitCrlf (before ++ '\r' :: '\n' :: rest) = _
      rw [hfront]
      rfl
    | case3 c before hnot ih =>
      obtain ⟨first, front, hfront⟩ := ih
      refine ⟨c :: first, front, ?_⟩
      rw [cons_append, splitCrlf, hfront]
      · rfl
      · -- a line feed behind the symbol would be one of the text before the line break
        intro rest' hc hrest
        cases before with
        | nil => exact absurd (List.cons.inj hrest).1 (by decide)
        | cons d before => exact hnot before hc (by rw [(List.cons.inj hrest).1])
  obtain ⟨first, front, hfront⟩ := hsplit
  rw [hfront]
  exact mem_append_right _ h

/-- A text between line breaks is a line. -/
theorem mem_splitCrlf {before line behind : List Char} (hbefore : before = [] ∨ ∃ x, before = x ++ ['\r', '\n'])
    (hline : '\r' ∉ line) (hbehind : behind = [] ∨ ∃ x, behind = '\r' :: '\n' :: x) :
    line ∈ splitCrlf (before ++ (line ++ behind)) := by
  have hmem : line ∈ splitCrlf (line ++ behind) := by
    rcases hbehind with rfl | ⟨x, rfl⟩
    · rw [append_nil, splitCrlf_of_not_mem hline]
      exact mem_singleton_self _
    · rw [splitCrlf_append hline]
      exact mem_cons_self
  rcases hbefore with rfl | ⟨x, rfl⟩
  · exact hmem
  · rw [append_assoc]
    exact mem_splitCrlf_behind x hmem

theorem HeaderLine.of_append {text behind : List Char} (h : HeaderLine (text ++ behind)) (hbehind : ':' ∉ behind) :
    HeaderLine text := by
  obtain ⟨name, value, hsplit, hne, hname⟩ := h
  obtain ⟨heq, hcolon⟩ := splitOnce_eq_some hsplit
  rcases append_eq_append_iff.1 heq with ⟨front, rfl, hfront⟩ | ⟨back, rfl, hback⟩
  · exact absurd (hfront ▸ mem_append_right _ mem_cons_self) hbehind
  · cases back with
    | nil =>
      have hmem : ':' ∈ [] ++ behind := hback ▸ mem_cons_self
      exact absurd hmem hbehind
    | cons c back =>
      obtain ⟨rfl, -⟩ := List.cons.inj hback
      exact ⟨name, back, splitOnce_append hcolon back, hne, hname⟩

/-! ## Lines of a header block -/

theorem encode_injective {s t : List Char} (h : encode s = encode t) : s = t := by
  rw [← Cursor.utf8_ofList, ← Cursor.utf8_ofList] at h
  exact String.ofList_injective (utf8_injective h)

theorem encode_eq_crlf_append {text : List Char} {rest : List UInt8} (h : encode text = crlf ++ rest) :
    ∃ text', text = '\r' :: '\n' :: text' := by
  obtain ⟨c, t, rfl, hc, ht⟩ := encode_eq_cons h (by decide)
  obtain ⟨d, t', rfl, hd, -⟩ := encode_eq_cons ht (by decide)
  refine ⟨t', ?_⟩
  rw [← Char.ofNat_toNat c, hc, ← Char.ofNat_toNat d, hd]
  rfl

theorem exists_lineEnd (closing : Bool) {blanks : List UInt8} (h : BlankBytes blanks) :
    ∃ text, encode text = dashes closing ++ blanks ∧ '\r' ∉ text ∧ ':' ∉ text := by
  have hblanks : ∃ text, encode text = blanks ∧ '\r' ∉ text ∧ ':' ∉ text := by
    induction blanks with
    | nil => exact ⟨[], rfl, not_mem_nil, not_mem_nil⟩
    | cons b blanks ih =>
      obtain ⟨text, htext, hreturn, hcolon⟩ := ih fun b hb => h b (mem_cons_of_mem _ hb)
      rcases h b mem_cons_self with rfl | rfl
      · exact ⟨' ' :: text, by rw [encode_cons, htext]; rfl, by simpa using hreturn, by simpa using hcolon⟩
      · exact ⟨'\t' :: text, by rw [encode_cons, htext]; rfl, by simpa using hreturn, by simpa using hcolon⟩
  obtain ⟨text, htext, hreturn, hcolon⟩ := hblanks
  cases closing with
  | false => exact ⟨text, htext, hreturn, hcolon⟩
  | true => exact ⟨'-' :: '-' :: text, by rw [encode_cons, encode_cons, htext]; rfl, by simpa using hreturn,
      by simpa using hcolon⟩

section Blocks

variable {body delimiter : List UInt8} {limits : MultipartLimits} {range : PartRange} {part : MultipartPart} {q : ℕ}

theorem return_of_found (h : range.Found body delimiter limits range.start) : body[range.headersEnd]? = some 0x0d := by
  obtain ⟨behind, hbehind⟩ := prefix_of_find h.emptyLine
  rw [drop_drop, Nat.add_sub_cancel' h.le] at hbehind
  rw [← List.head?_drop, ← hbehind]
  rfl

theorem block_before {start : ℕ} (hstart : afterCrlf body start = true) (hq : start ≤ q)
    (hbreak : afterCrlf body q = true) :
    (body.drop start).take (q - start) = [] ∨ ∃ x, (body.drop start).take (q - start) = x ++ crlf := by
  have hreturn := (getElem?_of_afterCrlf hbreak).1
  have hfeed := (getElem?_of_afterCrlf hstart).2
  obtain ⟨htwo, hdrop⟩ := afterCrlf_iff.1 hbreak
  rcases Nat.lt_or_ge q (start + 2) with hnear | hfar
  · left
    rcases Nat.eq_or_lt_of_le hq with rfl | hlt
    · rw [Nat.sub_self, take_zero]
    · -- a line break does not begin with the line feed of another
      have hsame : q - 2 = start - 1 := by omega
      rw [hsame, hfeed] at hreturn
      exact absurd hreturn (by decide)
  · right
    refine ⟨(body.drop start).take (q - 2 - start), ?_⟩
    have hsplit : q - start = q - 2 - start + 2 := by omega
    have hcrlf : ((body.drop start).drop (q - 2 - start)).take 2 = crlf := by
      rw [drop_drop, Nat.add_sub_cancel' (by omega), hdrop]
      rfl
    rw [hsplit, take_add, hcrlf]

theorem block_behind {rest : List UInt8} {closing : Bool} {stop n : ℕ} (hrest : body.drop stop = rest)
    (hend : LineEnds closing rest) (hreturn : body[stop + n]? = some 0x0d) :
    rest.take n = [] ∨ crlf <+: rest.take n := by
  rcases hend with ⟨behind, rfl⟩ | ⟨-, rfl⟩
  · rcases n with _ | _ | n
    · exact .inl take_zero
    · rw [← List.head?_drop, ← drop_drop, hrest] at hreturn
      exact absurd hreturn (by simp [crlf])
    · exact .inr ⟨behind.take n, rfl⟩
  · exact .inl take_nil

theorem headerBlock_line (hreturn : 0x0d ∉ delimiter) (hstart : afterCrlf body range.start = true)
    (h : range.Found body delimiter limits range.start) (hq : range.start ≤ q) (hend : q < range.headersEnd)
    (hline : DelimiterLineAt body delimiter q) : ∃ before closing blanks behind, BlankBytes blanks ∧
      range.headers body = before ++ (delimiter ++ (dashes closing ++ blanks) ++ behind) ∧
      (before = [] ∨ ∃ x, before = x ++ crlf) ∧ (behind = [] ∨ crlf <+: behind) := by
  obtain ⟨hbreak, parsed, hparsed⟩ := delimiterLineAt_iff.1 hline
  obtain ⟨blanks, rest, hdrop, hblanks, hends⟩ := parseDelimiterLine_eq_some hparsed
  have htext : body.drop q = delimiter ++ (dashes parsed.closing ++ blanks) ++ rest := by
    simpa only [append_assoc] using hdrop
  generalize hlength : (delimiter ++ (dashes parsed.closing ++ blanks)).length = length
  have hstop : q + length ≤ range.headersEnd := by
    rw [← hlength]
    exact le_of_return htext (return_not_mem hreturn hblanks) (Nat.le_of_lt hend) (return_of_found h)
  have hrest : body.drop (q + length) = rest := by
    rw [← drop_drop, htext, ← hlength, drop_left]
  have hbehind := block_behind (n := range.headersEnd - (q + length)) hrest hends (by
    rw [Nat.add_sub_cancel' hstop]
    exact return_of_found h)
  refine ⟨_, parsed.closing, blanks, _, hblanks, ?_, block_before hstart hq hbreak, hbehind⟩
  have hsplit : range.headersEnd - range.start = q - range.start + (range.headersEnd - q) := by omega
  have hsub : range.headersEnd - q - length = range.headersEnd - (q + length) := by omega
  have hall : (delimiter ++ (dashes parsed.closing ++ blanks)).length ≤ range.headersEnd - q := by omega
  rw [PartRange.headers, hsplit, take_add, drop_drop, Nat.add_sub_cancel' hq, htext, take_append,
    take_of_length_le hall, hlength, hsub]

end Blocks

def delimiterText (boundary : String) : List Char := '-' :: '-' :: boundary.toList

theorem encode_delimiterText (boundary : String) : encode (delimiterText boundary) = utf8 ("--" ++ boundary) := by
  rw [utf8_append, utf8_eq_flatMap boundary]
  rfl

section Delimiters

variable {boundary : String} {body : List UInt8} {limits : MultipartLimits}

theorem return_not_mem_delimiterText (h : isValidBoundary boundary = true) : '\r' ∉ delimiterText boundary := by
  intro hmem
  refine not_mem_delimiter h ?_
  rw [← encode_delimiterText]
  exact mem_flatMap.2 ⟨'\r', hmem, by decide⟩

variable {range : PartRange} {part : MultipartPart}

theorem headerLine_of_hidden {q : ℕ} (hvalid : isValidBoundary boundary = true)
    (hstart : afterCrlf body range.start = true) (h : range.Holds body (utf8 ("--" ++ boundary)) limits part)
    (hq : range.start ≤ q) (hend : q < range.headersEnd) (hline : DelimiterLineAt body (utf8 ("--" ++ boundary)) q) :
    HeaderLine (delimiterText boundary) := by
  obtain ⟨before, closing, blanks, behind, hblanks, hblock, hbefore, hbehind⟩ :=
    headerBlock_line (not_mem_delimiter hvalid) hstart h.found hq hend hline
  obtain ⟨ending, hending, hreturn, hcolon⟩ := exists_lineEnd closing hblanks
  obtain ⟨text, htext, -, hheaders⟩ := parsePartHeaders_eq_ok h.fields
  have hbytes : encode text.toList = before ++ (encode (delimiterText boundary ++ ending) ++ behind) := by
    rw [encode_append, encode_delimiterText, hending, ← hblock, ← utf8_of_fromUtf8 htext, utf8_eq_flatMap]
    rfl
  -- the bytes around the line are texts, since the line and what follows it begin with ASCII characters
  obtain ⟨s, t, hst, hs, ht⟩ := encode_split hbytes (by
    intro b hb
    cases hb
    decide)
  obtain ⟨line, y, rfl, hlineText, hy⟩ := encode_split ht (by
    intro b hb
    rcases hbehind with rfl | ⟨x, rfl⟩
    · cases hb
    · cases hb
      decide)
  cases encode_injective hlineText
  have hmem : delimiterText boundary ++ ending ∈ splitCrlf text.toList := by
    rw [hst]
    refine mem_splitCrlf ?_ ?_ ?_
    · rcases hbefore with rfl | ⟨x, rfl⟩
      · exact .inl (encode_injective hs)
      · obtain ⟨u, v, rfl, -, hv⟩ := encode_split hs (by
          intro b hb
          cases hb
          decide)
        have hcrlf : encode v = encode ['\r', '\n'] := hv
        exact .inr ⟨u, by rw [encode_injective hcrlf]⟩
    · rw [mem_append, not_or]
      exact ⟨return_not_mem_delimiterText hvalid, hreturn⟩
    · rcases hbehind with rfl | ⟨x, rfl⟩
      · exact .inl (encode_injective hy)
      · exact .inr (encode_eq_crlf_append hy)
  exact (hheaders _ hmem).of_append hcolon

structure Separated (body delimiter : List UInt8) (start : ℕ) (ranges : List PartRange) : Prop where
  separates : ∀ q, DelimiterLineAt body delimiter q → start ≤ q →
    (∀ range ∈ ranges.getLast?, q < range.dataEnd + 2) →
    ∃ before range range' after, ranges = before ++ range :: range' :: after ∧ q = range.dataEnd + 2
  headers : ∀ range ∈ ranges, ∀ q, range.start ≤ q → q < range.headersEnd → ¬ DelimiterLineAt body delimiter q

theorem not_delimiterLineAt_emptyLine {q : ℕ}
    (h : range.Found body (utf8 ("--" ++ boundary)) limits range.start) (hq : range.headersEnd ≤ q)
    (hend : q < range.headersEnd + 4) : ¬ DelimiterLineAt body (utf8 ("--" ++ boundary)) q := by
  intro hline
  obtain ⟨rest, hrest⟩ := hline.prefix_drop
  have hdash : body[q]? = some 0x2d := by
    rw [← List.head?_drop, ← hrest, utf8_append]
    rfl
  obtain ⟨behind, hbehind⟩ := prefix_of_find h.emptyLine
  rw [drop_drop, Nat.add_sub_cancel' h.le] at hbehind
  obtain ⟨k, rfl⟩ := Nat.exists_eq_add_of_le hq
  rw [← List.getElem?_drop, ← hbehind] at hdash
  have hk : k < 4 := by omega
  interval_cases k <;> exact absurd hdash (by simp [crlf])

theorem PartRange.Holds.not_delimiterLineAt {q : ℕ}
    (hvalid : isValidBoundary boundary = true) (hnot : ¬ HeaderLine (delimiterText boundary))
    (hstart : afterCrlf body range.start = true) (h : range.Holds body (utf8 ("--" ++ boundary)) limits part)
    (hq : range.start ≤ q) (hend : q < range.dataEnd + 2) : ¬ DelimiterLineAt body (utf8 ("--" ++ boundary)) q := by
  rcases Nat.lt_or_ge q range.headersEnd with hheaders | hbehind
  · exact fun hline => hnot (headerLine_of_hidden hvalid hstart h hq hheaders hline)
  rcases Nat.lt_or_ge q (range.headersEnd + 4) with hempty | hdata
  · exact not_delimiterLineAt_emptyLine h.found hbehind hempty
  · exact h.found.not_delimiterLineAt hdata hend

theorem PartRange.Holds.delimiterLine {delimiter : List UInt8}
    (h : range.Holds body delimiter limits part) : afterCrlf body (range.dataEnd + 2) = true ∧
      parseDelimiterLine body (range.dataEnd + 2) delimiter = some range.next := by
  obtain ⟨hbreak, hline, -⟩ := findNextDelimiter_spec h.found.delimiterLine
  exact ⟨hbreak, hline⟩

theorem Rounds.exists_cons {pos : ℕ} {ranges : List PartRange} {parts : List MultipartPart} {delimiter : List UInt8}
    (h : Rounds body delimiter limits pos ranges parts) : ∃ range after, ranges = range :: after := by
  cases h with
  | last _ _ | more _ _ _ => exact ⟨_, _, rfl⟩

theorem Rounds.separated {pos : ℕ} {ranges : List PartRange} {parts : List MultipartPart}
    (hvalid : isValidBoundary boundary = true) (hnot : ¬ HeaderLine (delimiterText boundary))
    (hstart : afterCrlf body pos = true) (h : Rounds body (utf8 ("--" ++ boundary)) limits pos ranges parts) :
    Separated body (utf8 ("--" ++ boundary)) pos ranges := by
  induction h with
  | @last range part hholds hclosing =>
    refine ⟨fun q hline hq hlast => ?_, fun range' hrange' q hq hend hline => ?_⟩
    · exact absurd hline (hholds.not_delimiterLineAt hvalid hnot hstart hq (hlast range rfl))
    · cases mem_singleton.1 hrange'
      exact hnot (headerLine_of_hidden hvalid hstart hholds hq hend hline)
  | @more range part ranges parts hholds hopen hrounds ih =>
    obtain ⟨hbreak, hparsed⟩ := hholds.delimiterLine
    have hnext := afterCrlf_next (le_length_of_afterCrlf hbreak) (not_mem_delimiter hvalid) hparsed hopen
    have ih := ih hnext
    obtain ⟨range', after, hranges⟩ := hrounds.exists_cons
    refine ⟨fun q hline hq hlast => ?_, fun range' hrange' q hq hend hline => ?_⟩
    · rcases Nat.lt_trichotomy q (range.dataEnd + 2) with hbefore | hhere | hbehind
      · exact absurd hline (hholds.not_delimiterLineAt hvalid hnot hstart hq hbefore)
      · exact ⟨[], range, range', after, by rw [hranges]; rfl, hhere⟩
      · rcases Nat.lt_or_ge q range.next.next with hinside | hfurther
        · exact absurd hline (not_delimiterLineAt_inside (not_mem_delimiter hvalid) hbreak hparsed hbehind hinside)
        · obtain ⟨before, first, second, rest, heq, hat⟩ := ih.separates q hline hfurther (by
            rw [hranges, List.getLast?_cons_cons, ← hranges] at hlast
            exact hlast)
          exact ⟨range :: before, first, second, rest, by rw [heq]; rfl, hat⟩
    · rcases mem_cons.1 hrange' with rfl | hrange'
      · exact hnot (headerLine_of_hidden hvalid hstart hholds hq hend hline)
      · exact ih.headers range' hrange' q hq hend hline

end Delimiters

/-! ## A body with a hidden delimiter line -/

def hiddenPart : MultipartPart := ⟨"x", none, none, []⟩

def hiddenHeaders (boundary : String) : List UInt8 :=
  utf8 (String.ofList (['\r', '\n'].intercalate (delimiterText boundary :: hiddenPart.headerLines)))

def hiddenBody (boundary : String) : List UInt8 :=
  let delimiter := utf8 ("--" ++ boundary)
  (delimiter ++ crlf) ++
    (hiddenHeaders boundary ++ (crlf ++ (crlf ++ [])) ++ (crlf ++ (delimiter ++ encodeParts delimiter [])))

def hiddenLimits (boundary : String) : MultipartLimits := ⟨1, 2, (hiddenHeaders boundary).length, 0⟩

def hiddenRange (boundary : String) : PartRange :=
  let delimiter := utf8 ("--" ++ boundary)
  let start := (delimiter ++ crlf).length
  let headersEnd := start + (hiddenHeaders boundary).length
  { start, headersEnd, dataEnd := headersEnd + 4, next := ⟨true, headersEnd + 4 + 2 + delimiter.length + 4⟩ }

theorem wellFormed_hiddenPart : hiddenPart.WellFormed :=
  ⟨by decide, by decide, fun _ h => (by cases h), fun _ h => (by cases h)⟩

section Hidden

variable {boundary : String}

theorem printable_delimiterText (h : isValidBoundary boundary = true) :
    ∀ c ∈ delimiterText boundary, isControl c = false := by
  have hbyte : ∀ b : UInt8, (isAsciiAlphanumeric b || (utf8 "'()+_,-./:=? ").contains b) = true →
      b < 0x80 ∧ isControl (Char.ofNat b.toNat) = false := forall_byte (by decide +kernel)
  have hboundary : ∀ c ∈ boundary.toList, isControl c = false := by
    intro c hc
    simp only [isValidBoundary, Bool.and_eq_true] at h
    obtain ⟨b, others, hencode, -, -, hlow, hhigh⟩ := utf8EncodeChar_cases c
    have hmem : b ∈ utf8 boundary := by
      rw [utf8_eq_flatMap]
      exact mem_flatMap.2 ⟨c, hc, hencode ▸ mem_cons_self⟩
    obtain ⟨hascii, hprintable⟩ := hbyte b (all_eq_true.1 h.1.2 b hmem)
    rcases Nat.lt_or_ge c.toNat 128 with hlt | hge
    · rw [(hlow hlt).1, Char.ofNat_toNat] at hprintable
      exact hprintable
    · exact absurd (hhigh hge) (UInt8.not_le.2 hascii)
  intro c hc
  rcases mem_cons.1 hc with rfl | hc
  · rfl
  · rcases mem_cons.1 hc with rfl | hc
    · rfl
    · exact hboundary c hc

theorem parseHeaderLine_delimiterText (hvalid : isValidBoundary boundary = true)
    (h : HeaderLine (delimiterText boundary)) :
    parseHeaderLine 2 ⟨none, none, 0⟩ (delimiterText boundary) = .ok ⟨none, none, 1⟩ := by
  obtain ⟨name, value, hsplit, hne, hname⟩ := h
  obtain ⟨heq, -⟩ := splitOnce_eq_some hsplit
  have hvalue : ∀ c ∈ trim value, isControl c = false := fun c hc => by
    refine printable_delimiterText hvalid c ?_
    rw [heq]
    exact mem_append_right _ (mem_cons_of_mem _ (mem_of_mem_trim hc))
  rw [heq, parseHeaderLine_colon (by decide) hne hname hvalue]
  cases name with
  | nil => exact absurd rfl hne
  | cons c name =>
    obtain ⟨rfl, -⟩ := List.cons.inj heq
    have hother : ∀ {text : String} {rest : List Char}, text.toList = 'c' :: rest →
        eqIgnoreAsciiCase (String.ofList ('-' :: name)) text = false := by
      intro text rest htext
      rw [eqIgnoreAsciiCase, String.toList_ofList, htext, beq_eq_false_iff_ne]
      exact fun hsame => absurd (List.cons.inj hsame).1 (by decide)
    rw [recordHeader, hother rfl, hother rfl]
    rfl

theorem hiddenLine (hvalid : isValidBoundary boundary = true) {line : List Char}
    (hline : line ∈ delimiterText boundary :: hiddenPart.headerLines) : line ≠ [] ∧ ∀ c ∈ line, isControl c = false := by
  rcases mem_cons.1 hline with rfl | hline
  · exact ⟨cons_ne_nil _ _, printable_delimiterText hvalid⟩
  · refine ⟨?_, printable_headerLines wellFormed_hiddenPart line hline⟩
    cases mem_singleton.1 hline
    exact cons_ne_nil _ _

theorem parsePartHeaders_hidden (hvalid : isValidBoundary boundary = true) (h : HeaderLine (delimiterText boundary)) :
    parsePartHeaders (hiddenHeaders boundary) 2 = .ok ("x", none, none) := by
  have hreturn : ∀ line ∈ delimiterText boundary :: hiddenPart.headerLines, '\r' ∉ line := fun line hline hc =>
    absurd ((hiddenLine hvalid hline).2 _ hc) (by decide)
  have hown : parseHeaderLine 2 ⟨none, none, 1⟩ ("Content-Disposition".toList ++ ':' :: ' ' :: hiddenPart.disposition) =
      .ok ⟨some hiddenPart.disposition, none, 2⟩ := by
    rw [parseHeaderLine_eq (by decide) (by decide) contentDisposition_token (bare_disposition hiddenPart)
      (printable_disposition wellFormed_hiddenPart)]
    rfl
  have hfold : hiddenPart.headerLines.foldlM (parseHeaderLine 2) ⟨none, none, 1⟩ =
      .ok ⟨some hiddenPart.disposition, none, 2⟩ := by
    rw [MultipartPart.headerLines, foldlM_cons, hown]
    rfl
  unfold parsePartHeaders hiddenHeaders
  rw [fromUtf8_utf8]
  dsimp only
  rw [String.toList_ofList, splitCrlf_intercalate (cons_ne_nil _ _) hreturn, foldlM_cons,
    parseHeaderLine_delimiterText hvalid h]
  show hiddenPart.headerLines.foldlM (parseHeaderLine 2) ⟨none, none, 1⟩ >>= partHeaders = _
  rw [hfold]
  exact partHeaders_disposition wellFormed_hiddenPart 2

theorem holds_hidden (hvalid : isValidBoundary boundary = true) (h : HeaderLine (delimiterText boundary)) :
    (hiddenRange boundary).Holds (hiddenBody boundary) (utf8 ("--" ++ boundary)) (hiddenLimits boundary) hiddenPart := by
  have hdata : ¬ crlf ++ utf8 ("--" ++ boundary) <:+: crlf ++ [] := by
    intro hinfix
    have hlength := hinfix.length_le
    rw [length_append, length_append, length_nil] at hlength
    have hpos := length_pos_iff.2 (delimiter_ne_nil boundary)
    omega
  have hspan := @partSpan_block [] (hiddenLimits boundary) (utf8 ("--" ++ boundary)) (utf8 ("--" ++ boundary) ++ crlf)
    (hiddenHeaders boundary) []
    (fun behind => find_headerLines behind (cons_ne_nil _ _) fun line hline => hiddenLine hvalid hline)
    (delimiter_ne_nil boundary) (not_mem_delimiter hvalid) hdata (Nat.le_refl _) (Nat.le_refl 0)
  have hheaders : (hiddenRange boundary).headers (hiddenBody boundary) = hiddenHeaders boundary := by
    rw [PartRange.headers, hiddenBody, hiddenRange]
    dsimp only
    rw [drop_left, Nat.add_sub_cancel_left, append_assoc, take_left]
  exact {
    span := hspan
    fields := by
      rw [hheaders]
      exact parsePartHeaders_hidden hvalid h
    data_eq := by
      rw [PartRange.data, PartRange.dataStart, hiddenRange]
      dsimp only
      rw [Nat.sub_self, take_zero]
      rfl }

theorem findInitialDelimiter_hidden (boundary : String) :
    findInitialDelimiter (hiddenBody boundary) (utf8 ("--" ++ boundary)) = some ⟨false, (hiddenRange boundary).start⟩ := by
  have hstart : (hiddenRange boundary).start = 0 + (utf8 ("--" ++ boundary)).length + 2 := by
    rw [Nat.zero_add]
    exact length_append
  rw [hstart, hiddenBody, append_assoc]
  exact findInitialDelimiter_front (parseDelimiterLine_crlf drop_zero)

/-- The body is accepted, as one with one part. -/
theorem hiddenBody_parsed (hvalid : isValidBoundary boundary = true) (h : HeaderLine (delimiterText boundary)) :
    parseMultipart (hiddenBody boundary) boundary (hiddenLimits boundary) = .ok [hiddenPart] := by
  have hrounds := Rounds.last (holds_hidden hvalid h) rfl
  unfold parseMultipart
  dsimp only
  rw [findInitialDelimiter_hidden]
  dsimp only
  rw [if_neg Bool.false_ne_true]
  exact hrounds.parseParts_eq (Nat.le_refl 1)

theorem hiddenHeaders_eq (boundary : String) : hiddenHeaders boundary =
    utf8 ("--" ++ boundary) ++ (crlf ++ utf8 (String.ofList (['\r', '\n'].intercalate hiddenPart.headerLines))) := by
  rw [← encode_delimiterText, ← Cursor.utf8_ofList]
  exact utf8_intercalate_cons _ _ _

theorem delimiterLineAt_hidden (boundary : String) :
    DelimiterLineAt (hiddenBody boundary) (utf8 ("--" ++ boundary)) (hiddenRange boundary).start := by
  have hbody : ∃ rest, hiddenBody boundary =
      utf8 ("--" ++ boundary) ++ (crlf ++ (utf8 ("--" ++ boundary) ++ (crlf ++ rest))) := by
    rw [hiddenBody, hiddenHeaders_eq]
    simp only [append_assoc]
    exact ⟨_, rfl⟩
  obtain ⟨rest, hbody⟩ := hbody
  exact ⟨utf8 ("--" ++ boundary), false, [], crlf ++ rest, hbody, List.length_append,
    fun b hb => absurd hb not_mem_nil, .inl (prefix_append _ _)⟩

end Hidden

/-! ## The result -/

def DelimitersSeparate (body : List UInt8) (boundary : String) (limits : MultipartLimits) (parts : List MultipartPart) :
    Prop :=
  ∃ opening, findInitialDelimiter body (utf8 ("--" ++ boundary)) = some opening ∧ (opening.closing = true ∨
    ∃ ranges, Rounds body (utf8 ("--" ++ boundary)) limits opening.next ranges parts ∧
      Separated body (utf8 ("--" ++ boundary)) opening.next ranges)

theorem delimitersSeparate_of_not_headerLine {boundary : String} (hvalid : isValidBoundary boundary = true)
    (hnot : ¬ HeaderLine (delimiterText boundary)) {body : List UInt8} {limits : MultipartLimits}
    {parts : List MultipartPart} (h : parseMultipart body boundary limits = .ok parts) :
    DelimitersSeparate body boundary limits parts := by
  obtain ⟨opening, hopening, ⟨hclosing, -⟩ | ⟨hopen, -, ranges, hrounds⟩⟩ := parseMultipart_eq_ok h
  · exact ⟨opening, hopening, .inl hclosing⟩
  · obtain ⟨position, hposition, -, hline⟩ := findInitialFrom_spec hopening
    have hstart := afterCrlf_next hposition (not_mem_delimiter hvalid) hline hopen
    exact ⟨opening, hopening, .inr ⟨ranges, hrounds, hrounds.separated hvalid hnot hstart⟩⟩

theorem not_delimitersSeparate_hidden {boundary : String} (hvalid : isValidBoundary boundary = true)
    (h : HeaderLine (delimiterText boundary)) :
    ¬ DelimitersSeparate (hiddenBody boundary) boundary (hiddenLimits boundary) [hiddenPart] := by
  rintro ⟨opening, hopening, hseparate⟩
  cases hopening.symm.trans (findInitialDelimiter_hidden boundary)
  rcases hseparate with hclosing | ⟨ranges, hrounds, hseparated⟩
  · cases hclosing
  · cases hrounds.unique (Rounds.last (holds_hidden hvalid h) rfl)
    have hpos : 0 < (hiddenHeaders boundary).length := by
      rw [hiddenHeaders_eq]
      exact length_pos_iff.2 (append_ne_nil_of_left_ne_nil (delimiter_ne_nil boundary) _)
    refine hseparated.headers _ (mem_singleton_self _) _ (Nat.le_refl _) ?_ (delimiterLineAt_hidden boundary)
    exact Nat.lt_add_of_pos_right hpos

/-- **Delimiter lines separate the parts**, in every body that is accepted, exactly when the delimiter does not read as a
header line. -/
theorem delimiters_separate (boundary : String) (hvalid : isValidBoundary boundary = true) :
    (∀ body limits parts, parseMultipart body boundary limits = .ok parts →
      DelimitersSeparate body boundary limits parts) ↔ ¬ HeaderLine (delimiterText boundary) :=
  ⟨fun hall h => not_delimitersSeparate_hidden hvalid h (hall _ _ _ (hiddenBody_parsed hvalid h)),
    fun hnot _ _ _ h => delimitersSeparate_of_not_headerLine hvalid hnot h⟩

/-- Two parts, with a boundary without a colon. -/
theorem delimiters_separate_two :
    DelimitersSeparate (encodeMultipart "xyz" twoParts) "xyz" ⟨2, 1, 50, 3⟩ twoParts := by
  have hnot : ¬ HeaderLine (delimiterText "xyz") := by
    rintro ⟨name, value, hsplit, -⟩
    have hnone : splitOnce ':' (delimiterText "xyz") = none := by decide
    cases hnone.symm.trans hsplit
  exact (delimiters_separate "xyz" (by decide)).2 hnot _ _ _
    (parseMultipart_fits (by decide) fits_twoParts (by decide))

/-- With the boundary `a:b`, the second line of this body is a delimiter line, and it is read as a header line. -/
theorem hidden_delimiter_line :
    let body := utf8 "--a:b\r\n--a:b\r\nContent-Disposition: form-data; name=\"x\"\r\n\r\n\r\n--a:b--\r\n"
    isValidBoundary "a:b" = true ∧ DelimiterLineAt body (utf8 "--a:b") 7 ∧
      parseMultipart body "a:b" ⟨1, 2, 47, 0⟩ = .ok [⟨"x", none, none, []⟩] ∧
      ¬ DelimitersSeparate body "a:b" ⟨1, 2, 47, 0⟩ [⟨"x", none, none, []⟩] := by
  intro body
  have hvalid : isValidBoundary "a:b" = true := by decide
  have hbody : body = hiddenBody "a:b" := by decide
  have hlimits : hiddenLimits "a:b" = ⟨1, 2, 47, 0⟩ := by
    have hlength : (hiddenHeaders "a:b").length = 47 := by decide
    rw [hiddenLimits, hlength]
  have hheader : HeaderLine (delimiterText "a:b") :=
    ⟨['-', '-', 'a'], ['b'], by decide, by decide, all_eq_true.1 (by decide)⟩
  rw [hbody, ← hlimits]
  exact ⟨hvalid, delimiterLineAt_hidden "a:b", hiddenBody_parsed hvalid hheader,
    not_delimitersSeparate_hidden hvalid hheader⟩

end RustRest
