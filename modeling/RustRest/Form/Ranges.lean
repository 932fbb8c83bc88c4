import RustRest.Form.Lines

/-!
# The ranges of the parts

Where the loop of `parse_multipart` found the parts that it returns.
-/

namespace RustRest

open Search List

structure PartRange extends PartSpan where
  start : ℕ

namespace PartRange

/-- Behind the empty line. -/
def dataStart (range : PartRange) : ℕ := range.headersEnd + 4

def headers (body : List UInt8) (range : PartRange) : List UInt8 :=
  (body.drop range.start).take (range.headersEnd - range.start)

def data (body : List UInt8) (range : PartRange) : List UInt8 :=
  (body.drop range.dataStart).take (range.dataEnd - range.dataStart)

structure Holds (body delimiter : List UInt8) (limits : MultipartLimits) (range : PartRange) (part : MultipartPart) :
    Prop where
  span : partSpan body delimiter limits range.start = .ok range.toPartSpan
  fields : parsePartHeaders (range.headers body) limits.maxHeadersPerPart =
    .ok (part.name, part.filename, part.contentType)
  data_eq : part.data = range.data body

end PartRange

inductive Rounds (body delimiter : List UInt8) (limits : MultipartLimits) :
    ℕ → List PartRange → List MultipartPart → Prop
  | last {range : PartRange} {part : MultipartPart} : range.Holds body delimiter limits part →
      range.next.closing = true → Rounds body delimiter limits range.start [range] [part]
  | more {range : PartRange} {part : MultipartPart} {ranges : List PartRange} {parts : List MultipartPart} :
      range.Holds body delimiter limits part → range.next.closing = false →
      Rounds body delimiter limits range.next.next ranges parts →
      Rounds body delimiter limits range.start (range :: ranges) (part :: parts)

section Ranges

variable {body delimiter : List UInt8} {limits : MultipartLimits} {pos : ℕ}

/-! ## One part -/

/-- What the search for a part finds. -/
structure PartSpan.Found (body delimiter : List UInt8) (limits : MultipartLimits) (pos : ℕ) (span : PartSpan) :
    Prop where
  le : pos ≤ span.headersEnd
  emptyLine : find (body.drop pos) (crlf ++ crlf) = some (span.headersEnd - pos)
  headerBytes : span.headersEnd - pos ≤ limits.maxHeaderBytes
  delimiterLine : findNextDelimiter body (span.headersEnd + 4) delimiter = some (span.dataEnd + 2, span.next)
  data_le : span.headersEnd + 4 ≤ span.dataEnd
  partBytes : span.dataEnd - (span.headersEnd + 4) ≤ limits.maxPartBytes

/-- A part: its header block up to the empty line, its data up to the first delimiter line. -/
theorem partSpan_eq_ok {span : PartSpan} (h : partSpan body delimiter limits pos = .ok span) :
    span.Found body delimiter limits pos := by
  unfold partSpan at h
  split at h
  · cases h
  next relative hfind =>
  split at h
  · cases h
  next hheaders =>
  dsimp only at h
  split at h
  · cases h
  next position next hnext =>
  split at h
  · cases h
  next hdata =>
  split at h
  · cases h
  next hbytes =>
  cases h
  have hposition : position - 2 + 2 = position := by omega
  exact {
    le := Nat.le_add_right _ _
    emptyLine := by rw [Nat.add_sub_cancel_left]; exact hfind
    headerBytes := by rw [Nat.add_sub_cancel_left]; exact Nat.le_of_not_gt hheaders
    delimiterLine := by rw [hposition]; exact hnext
    data_le := by dsimp only; omega
    partBytes := Nat.le_of_not_gt hbytes }

namespace PartSpan.Found

variable {span : PartSpan}

theorem emptyLine_le (h : span.Found body delimiter limits pos) : span.headersEnd + 4 ≤ body.length := by
  have hlength := (prefix_of_find h.emptyLine).length_le
  have hle := h.le
  rw [drop_drop, Nat.add_sub_cancel' hle, length_drop] at hlength
  have hfour : (crlf ++ crlf).length = 4 := rfl
  omega

theorem next_le (h : span.Found body delimiter limits pos) :
    span.dataEnd + 2 + delimiter.length ≤ span.next.next ∧ span.next.next ≤ body.length := by
  obtain ⟨hbreak, hline, -⟩ := findNextDelimiter_spec h.delimiterLine
  exact next_le_of_parseDelimiterLine (le_length_of_afterCrlf hbreak) hline

theorem not_delimiterLineAt (h : span.Found body delimiter limits pos) {q : ℕ} (hq : span.headersEnd + 4 ≤ q)
    (hend : q < span.dataEnd + 2) : ¬ DelimiterLineAt body delimiter q :=
  (findNextDelimiter_spec h.delimiterLine).2.2 q hq hend

end PartSpan.Found

theorem PartRange.Holds.found {range : PartRange} {part : MultipartPart}
    (h : range.Holds body delimiter limits part) : range.Found body delimiter limits range.start :=
  partSpan_eq_ok h.span

theorem PartRange.Holds.range_eq {range range' : PartRange} {part part' : MultipartPart}
    (h : range.Holds body delimiter limits part) (h' : range'.Holds body delimiter limits part')
    (hstart : range.start = range'.start) : range = range' := by
  have hspan := h.span
  rw [hstart, h'.span] at hspan
  obtain ⟨span, start⟩ := range
  obtain ⟨span', start'⟩ := range'
  cases Except.ok.inj hspan
  cases hstart
  rfl

/-! ## The loop -/

theorem PartRange.Holds.parseParts_eq {range : PartRange} {part : MultipartPart} {read : List MultipartPart}
    (h : range.Holds body delimiter limits part) (hcount : read.length < limits.maxParts) :
    parseParts body delimiter limits range.start read =
      if range.next.closing then .ok (read ++ [part])
      else parseParts body delimiter limits range.next.next (read ++ [part]) := by
  have hpart : part = ⟨part.name, part.filename, part.contentType, range.data body⟩ := by rw [← h.data_eq]
  have hfields : parsePartHeaders ((body.drop range.start).take (range.headersEnd - range.start))
      limits.maxHeadersPerPart = .ok (part.name, part.filename, part.contentType) := h.fields
  rw [parseParts, if_neg (Nat.not_le_of_lt hcount)]
  split
  · next herror => cases herror.symm.trans h.span
  · next span hspan =>
    cases hspan.symm.trans h.span
    rw [hfields]
    dsimp only
    rw [hpart]
    rfl

theorem parseParts_eq_ok {read parts : List MultipartPart}
    (h : parseParts body delimiter limits pos read = .ok parts) : ∃ ranges further,
      Rounds body delimiter limits pos ranges further ∧ parts = read ++ further ∧ parts.length ≤ limits.maxParts := by
  fun_induction parseParts body delimiter limits pos read with
  | case1 | case2 | case3 => cases h
  | case4 pos read hcount span hspan name filename contentType hheaders dataStart data parts' hclosing =>
    have hholds : PartRange.Holds body delimiter limits { span with start := pos }
        ⟨name, filename, contentType, data⟩ := ⟨hspan, hheaders, rfl⟩
    refine ⟨_, _, .last hholds hclosing, (Except.ok.inj h).symm, ?_⟩
    rw [← Except.ok.inj h, length_append, length_singleton]
    omega
  | case5 pos read hcount span hspan name filename contentType hheaders dataStart data parts' hopen ih =>
    have hholds : PartRange.Holds body delimiter limits { span with start := pos }
        ⟨name, filename, contentType, data⟩ := ⟨hspan, hheaders, rfl⟩
    obtain ⟨ranges, further, hrounds, hparts, hlength⟩ := ih h
    refine ⟨_, _, .more hholds ((Bool.not_eq_true _).mp hopen) hrounds, ?_, hlength⟩
    rw [hparts, append_assoc, singleton_append]

theorem parseMultipart_eq_ok {boundary : String} {parts : List MultipartPart}
    (h : parseMultipart body boundary limits = .ok parts) : ∃ opening,
      findInitialDelimiter body (utf8 ("--" ++ boundary)) = some opening ∧
      (opening.closing = true ∧ parts = [] ∨ opening.closing = false ∧ parts.length ≤ limits.maxParts ∧
        ∃ ranges, Rounds body (utf8 ("--" ++ boundary)) limits opening.next ranges parts) := by
  unfold parseMultipart at h
  dsimp only at h
  split at h
  · cases h
  next opening hopening =>
  refine ⟨opening, hopening, ?_⟩
  split at h
  · next hclosing =>
    cases h
    exact .inl ⟨hclosing, rfl⟩
  · next hopen =>
    obtain ⟨ranges, further, hrounds, rfl, hlength⟩ := parseParts_eq_ok h
    exact .inr ⟨(Bool.not_eq_true _).mp hopen, hlength, ranges, hrounds⟩

namespace Rounds

variable {ranges : List PartRange} {parts : List MultipartPart}

theorem forall₂ (h : Rounds body delimiter limits pos ranges parts) :
    List.Forall₂ (PartRange.Holds body delimiter limits) ranges parts := by
  induction h with
  | last hholds _ => exact .cons hholds .nil
  | more hholds _ _ ih => exact .cons hholds ih

theorem holds (h : Rounds body delimiter limits pos ranges parts) {range : PartRange} (hrange : range ∈ ranges) :
    ∃ part ∈ parts, range.Holds body delimiter limits part := by
  obtain ⟨i, hi, rfl⟩ := getElem_of_mem hrange
  have hlength := h.forall₂.length_eq
  exact ⟨parts[i], getElem_mem _, h.forall₂.get hi (hlength ▸ hi)⟩

theorem parseParts_eq (h : Rounds body delimiter limits pos ranges parts) {read : List MultipartPart}
    (hcount : read.length + parts.length ≤ limits.maxParts) :
    parseParts body delimiter limits pos read = .ok (read ++ parts) := by
  induction h generalizing read with
  | last hholds hclosing =>
    rw [hholds.parseParts_eq hcount, if_pos hclosing]
  | more hholds hopen _ ih =>
    rw [length_cons] at hcount
    rw [hholds.parseParts_eq (by omega), hopen, if_neg Bool.false_ne_true, ih, append_assoc, singleton_append]
    rw [length_append, length_singleton]
    omega

theorem unique {ranges' : List PartRange} {parts' : List MultipartPart}
    (h : Rounds body delimiter limits pos ranges parts) (h' : Rounds body delimiter limits pos ranges' parts') :
    ranges = ranges' := by
  induction h generalizing ranges' parts' with
  | @last range _ hholds hclosing =>
    generalize hstart : range.start = pos at h'
    cases h' with
    | last hholds' _ => rw [hholds.range_eq hholds' hstart]
    | more hholds' hopen _ =>
      cases hholds.range_eq hholds' hstart
      cases hclosing.symm.trans hopen
  | @more range _ _ _ hholds hopen _ ih =>
    generalize hstart : range.start = pos at h'
    cases h' with
    | last hholds' hclosing =>
      cases hholds.range_eq hholds' hstart
      cases hclosing.symm.trans hopen
    | more hholds' _ hrounds' =>
      cases hholds.range_eq hholds' hstart
      rw [ih hrounds']

theorem le_start (h : Rounds body delimiter limits pos ranges parts) {range : PartRange} (hrange : range ∈ ranges) :
    pos ≤ range.start := by
  induction h with
  | last _ _ =>
    rw [mem_singleton.1 hrange]
  | more hholds _ _ ih =>
    rcases mem_cons.1 hrange with rfl | hrange
    · exact Nat.le_refl _
    · have hnext := (lt_of_partSpan hholds.span).2
      exact Nat.le_trans (Nat.le_of_lt hnext) (ih hrange)

theorem pairwise (h : Rounds body delimiter limits pos ranges parts) :
    ranges.Pairwise fun range range' => range.dataEnd ≤ range'.dataStart := by
  induction h with
  | last _ _ => exact pairwise_singleton _ _
  | more hholds _ hrounds ih =>
    refine pairwise_cons.2 ⟨fun range' hrange' => ?_, ih⟩
    have hnext := hholds.found.next_le.1
    have hstart := hrounds.le_start hrange'
    have hempty : range'.start ≤ range'.headersEnd := by
      obtain ⟨part', hpart', hholds'⟩ := hrounds.holds hrange'
      exact hholds'.found.le
    show _ ≤ range'.headersEnd + 4
    omega

end Rounds

end Ranges

/-! ## The header block -/

def HeaderLine (line : List Char) : Prop :=
  ∃ name value, splitOnce ':' line = some (name, value) ∧ name ≠ [] ∧ ∀ c ∈ name, isTokenChar c = true

section Headers

variable {maxHeaders : ℕ} {headers headers' : PartHeaders}

theorem count_recordHeader {name value : List Char} (h : recordHeader headers name value = .ok headers') :
    headers'.count = headers.count := by
  unfold recordHeader at h
  split at h
  · split at h
    · cases h
    · cases h
      rfl
  · split at h
    · split at h
      · cases h
      · cases h
        rfl
    · cases h
      rfl

theorem parseHeaderLine_eq_ok {line : List Char} (h : parseHeaderLine maxHeaders headers line = .ok headers') :
    headers'.count = headers.count + 1 ∧ headers'.count ≤ maxHeaders ∧ HeaderLine line := by
  unfold parseHeaderLine at h
  dsimp only at h
  split at h
  · cases h
  next hcount =>
  split at h
  · cases h
  split at h
  · cases h
  next name value hsplit =>
  split at h
  · cases h
  next hname =>
  split at h
  · cases h
  rw [Bool.or_eq_true, not_or, Bool.not_eq_true, isEmpty_eq_false_iff, Bool.not_eq_true', Bool.not_eq_false,
    all_eq_true] at hname
  have hrecord := count_recordHeader h
  exact ⟨hrecord, hrecord ▸ Nat.le_of_not_gt hcount, name, value, hsplit, hname⟩

theorem headerLines_eq_ok {lines : List (List Char)} (hle : headers.count ≤ maxHeaders)
    (h : lines.foldlM (parseHeaderLine maxHeaders) headers = .ok headers') :
    headers.count + lines.length ≤ maxHeaders ∧ ∀ line ∈ lines, HeaderLine line := by
  induction lines generalizing headers with
  | nil => exact ⟨hle, fun line hline => absurd hline not_mem_nil⟩
  | cons line lines ih =>
    rw [foldlM_cons] at h
    obtain ⟨next, hnext, hlines⟩ := bind_eq_ok.1 h
    obtain ⟨hcount, hle', hline⟩ := parseHeaderLine_eq_ok hnext
    obtain ⟨hlength, hrest⟩ := ih hle' hlines
    refine ⟨?_, forall_mem_cons.2 ⟨hline, hrest⟩⟩
    rw [length_cons]
    omega

theorem parsePartHeaders_eq_ok {rawHeaders : List UInt8} {fields : String × Option String × Option String}
    (h : parsePartHeaders rawHeaders maxHeaders = .ok fields) : ∃ text, fromUtf8 rawHeaders = some text ∧
      (splitCrlf text.toList).length ≤ maxHeaders ∧ ∀ line ∈ splitCrlf text.toList, HeaderLine line := by
  unfold parsePartHeaders at h
  split at h
  · cases h
  next text htext =>
  obtain ⟨headers, hlines, -⟩ := bind_eq_ok.1 h
  obtain ⟨hlength, hheader⟩ := headerLines_eq_ok (Nat.zero_le maxHeaders) hlines
  exact ⟨text, htext, by simpa using hlength, hheader⟩

end Headers

end RustRest
