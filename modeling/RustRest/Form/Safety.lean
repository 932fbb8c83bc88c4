import RustRest.Form.Disposition
import RustRest.Form.Ranges

/-!
# The multipart parser is safe

`parse_multipart` slices the body at positions that come from its searches. Here the slices are checked: one that does
not lie in the body is a panic. The checked parser does what `parseMultipart` does, for every body, so there is none.

Main result: **`multipart_safe`**.
-/

namespace RustRest

open Search

/-! ## The checked parser -/

namespace Checked

/-- `find_initial_delimiter`, from an offset. -/
def findInitialFrom (body delimiter : List UInt8) (offset : ℕ) : Option (Option Delimiter) :=
  if _hle : offset ≤ body.length - delimiter.length then
    (sliceFrom body offset).bind fun behind =>
      match find behind delimiter with
      | none => some none
      | some relative =>
        let position := offset + relative
        let parsed := if position == 0 || afterCrlf body position then parseDelimiterLine body position delimiter else none
        match parsed with
        | some parsed => some (some parsed)
        | none => findInitialFrom body delimiter (position + 1)
  else some none
termination_by body.length + 1 - offset

def findNextDelimiter (body : List UInt8) (offset : ℕ) (delimiter : List UInt8) : Option (Option (ℕ × Delimiter)) :=
  if _hle : offset ≤ body.length - delimiter.length then
    (sliceFrom body offset).bind fun behind =>
      match find behind delimiter with
      | none => some none
      | some relative =>
        let position := offset + relative
        let parsed := if afterCrlf body position then parseDelimiterLine body position delimiter else none
        match parsed with
        | some parsed => some (some (position, parsed))
        | none => findNextDelimiter body (position + 1) delimiter
  else some none
termination_by body.length + 1 - offset

def partSpan (body delimiter : List UInt8) (limits : MultipartLimits) (pos : ℕ) : Option (Except HttpError PartSpan) :=
  (sliceFrom body pos).bind fun behind =>
    match find behind (crlf ++ crlf) with
    | none => some (.error malformedBody)
    | some relativeHeadersEnd =>
      if relativeHeadersEnd > limits.maxHeaderBytes then
        some (.error (multipartLimit "Las cabeceras de una parte multipart son demasiado grandes"))
      else
        let headersEnd := pos + relativeHeadersEnd
        let dataStart := headersEnd + 4
        (findNextDelimiter body dataStart delimiter).map fun found =>
          match found with
          | none => .error malformedBody
          | some (delimiterStart, next) =>
            if delimiterStart < 2 ∨ delimiterStart - 2 < dataStart then .error malformedBody
            else
              let dataEnd := delimiterStart - 2
              if dataEnd - dataStart > limits.maxPartBytes then
                .error (multipartLimit "Una parte multipart es demasiado grande")
              else .ok { headersEnd, dataEnd, next }

def partHeaders (headers : PartHeaders) : Option (Except HttpError (String × Option String × Option String)) :=
  match headers.disposition with
  | none => some (.error malformedHeaders)
  | some value => (Cursor.parseParameterizedValue (String.ofList value)).map fun parsed =>
    match parsed with
    | none => .error malformedHeaders
    | some (kind, parameters) =>
      if !eqIgnoreAsciiCase kind "form-data" then .error malformedHeaders
      else
        match (uniqueParameter parameters "name").filter (· ≠ "") with
        | none => .error malformedHeaders
        | some name => .ok (name, uniqueParameter parameters "filename", headers.contentType.map String.ofList)

def parsePartHeaders (rawHeaders : List UInt8) (maxHeaders : ℕ) :
    Option (Except HttpError (String × Option String × Option String)) :=
  match fromUtf8 rawHeaders with
  | none => some (.error malformedHeaders)
  | some text =>
    match (splitCrlf text.toList).foldlM (parseHeaderLine maxHeaders) ⟨none, none, 0⟩ with
    | .error error => some (.error error)
    | .ok headers => partHeaders headers

/-! ## The searches -/

section Searches

variable {body delimiter : List UInt8} {limits : MultipartLimits} {pos : ℕ}

/-- The search stays in the body. -/
theorem findInitialFrom_eq (offset : ℕ) :
    findInitialFrom body delimiter offset = some (RustRest.findInitialFrom body delimiter offset) := by
  fun_induction RustRest.findInitialFrom body delimiter offset with
  | case1 offset hle hfind =>
    rw [findInitialFrom, dif_pos hle, sliceFrom_eq (by omega), Option.bind_some, hfind]
  | case2 offset hle relative hfind position parsed parsed' hparsed =>
    rw [findInitialFrom, dif_pos hle, sliceFrom_eq (by omega), Option.bind_some, hfind]
    dsimp only
    split
    · next hsome => rw [← Option.some.inj (hsome.symm.trans hparsed)]
    · next hnone => cases hnone.symm.trans hparsed
  | case3 offset hle relative hfind position parsed hparsed ih =>
    rw [findInitialFrom, dif_pos hle, sliceFrom_eq (by omega), Option.bind_some, hfind]
    dsimp only
    split
    · next hsome => cases hsome.symm.trans hparsed
    · exact ih
  | case4 offset hlt => rw [findInitialFrom, dif_neg hlt]

/-- The search stays in the body. -/
theorem findNextDelimiter_eq (offset : ℕ) :
    findNextDelimiter body offset delimiter = some (RustRest.findNextDelimiter body offset delimiter) := by
  fun_induction RustRest.findNextDelimiter body offset delimiter with
  | case1 offset hle hfind =>
    rw [findNextDelimiter, dif_pos hle, sliceFrom_eq (by omega), Option.bind_some, hfind]
  | case2 offset hle relative hfind position parsed parsed' hparsed =>
    rw [findNextDelimiter, dif_pos hle, sliceFrom_eq (by omega), Option.bind_some, hfind]
    dsimp only
    split
    · next hsome => rw [← Option.some.inj (hsome.symm.trans hparsed)]
    · next hnone => cases hnone.symm.trans hparsed
  | case3 offset hle relative hfind position parsed hparsed ih =>
    rw [findNextDelimiter, dif_pos hle, sliceFrom_eq (by omega), Option.bind_some, hfind]
    dsimp only
    split
    · next hsome => cases hsome.symm.trans hparsed
    · exact ih
  | case4 offset hlt => rw [findNextDelimiter, dif_neg hlt]

/-- A part at a position in the body is found without a panic. -/
theorem partSpan_eq (hpos : pos ≤ body.length) :
    partSpan body delimiter limits pos = some (RustRest.partSpan body delimiter limits pos) := by
  unfold partSpan RustRest.partSpan
  rw [sliceFrom_eq hpos, Option.bind_some]
  cases find (body.drop pos) (crlf ++ crlf) with
  | none => rfl
  | some relative =>
    dsimp only
    by_cases hheaders : relative > limits.maxHeaderBytes
    · rw [if_pos hheaders, if_pos hheaders]
    · rw [if_neg hheaders, if_neg hheaders, findNextDelimiter_eq]
      rfl

theorem partSpan_eq_some {read : Except HttpError PartSpan} (h : partSpan body delimiter limits pos = some read) :
    RustRest.partSpan body delimiter limits pos = read := by
  by_cases hpos : pos ≤ body.length
  · exact Option.some.inj ((partSpan_eq hpos).symm.trans h)
  · unfold partSpan sliceFrom at h
    rw [if_neg hpos] at h
    cases h

theorem partHeaders_eq (headers : PartHeaders) : partHeaders headers = some (RustRest.partHeaders headers) := by
  unfold partHeaders RustRest.partHeaders
  cases headers.disposition with
  | none => rfl
  | some value =>
    dsimp only
    rw [Cursor.cursor_eq, String.toList_ofList, Option.bind_some]
    cases parseParameterizedValue value with
    | none | some parsed => rfl

theorem parsePartHeaders_eq (rawHeaders : List UInt8) (maxHeaders : ℕ) :
    parsePartHeaders rawHeaders maxHeaders = some (RustRest.parsePartHeaders rawHeaders maxHeaders) := by
  unfold parsePartHeaders RustRest.parsePartHeaders
  cases fromUtf8 rawHeaders with
  | none => rfl
  | some text =>
    dsimp only
    cases (splitCrlf text.toList).foldlM (parseHeaderLine maxHeaders) ⟨none, none, 0⟩ with
    | error error => rfl
    | ok headers => exact partHeaders_eq headers

end Searches

/-! ## The loop -/

def parseParts (body delimiter : List UInt8) (limits : MultipartLimits) (pos : ℕ) (parts : List MultipartPart) :
    Option (Except HttpError (List MultipartPart)) :=
  if parts.length ≥ limits.maxParts then some (.error (multipartLimit "Demasiadas partes multipart"))
  else
    match _hspan : partSpan body delimiter limits pos with
    | none => none
    | some (.error error) => some (.error error)
    | some (.ok span) =>
      (sliceBetween body pos span.headersEnd).bind fun rawHeaders =>
        (parsePartHeaders rawHeaders limits.maxHeadersPerPart).bind fun read =>
          match read with
          | .error error => some (.error error)
          | .ok (name, filename, contentType) =>
            (sliceBetween body (span.headersEnd + 4) span.dataEnd).bind fun data =>
              let parts := parts ++ [{ name, filename, contentType, data }]
              if span.next.closing then some (.ok parts) else parseParts body delimiter limits span.next.next parts
termination_by body.length - pos
decreasing_by
  have hlt := lt_of_partSpan (partSpan_eq_some _hspan)
  omega

def parseMultipart (body : List UInt8) (boundary : String) (limits : MultipartLimits) :
    Option (Except HttpError (List MultipartPart)) :=
  let delimiter := utf8 ("--" ++ boundary)
  (findInitialFrom body delimiter 0).bind fun found =>
    match found with
    | none => some (.error malformedBody)
    | some first => if first.closing then some (.ok []) else parseParts body delimiter limits first.next []

section Parser

variable {body delimiter : List UInt8} {limits : MultipartLimits}

theorem slices {pos : ℕ} {span : PartSpan} (h : RustRest.partSpan body delimiter limits pos = .ok span) :
    partSpan body delimiter limits pos = some (.ok span) ∧
      sliceBetween body pos span.headersEnd = some ((body.drop pos).take (span.headersEnd - pos)) ∧
      sliceBetween body (span.headersEnd + 4) span.dataEnd =
        some ((body.drop (span.headersEnd + 4)).take (span.dataEnd - (span.headersEnd + 4))) := by
  have hfound := partSpan_eq_ok h
  have hle := hfound.le
  have hempty := hfound.emptyLine_le
  obtain ⟨hdata, hnext⟩ := hfound.next_le
  refine ⟨?_, sliceBetween_eq hle (by omega), sliceBetween_eq hfound.data_le (by omega)⟩
  rw [partSpan_eq (by omega), h]

theorem parseParts_error {pos : ℕ} {parts : List MultipartPart} {error : HttpError}
    (hcount : ¬ parts.length ≥ limits.maxParts) (h : partSpan body delimiter limits pos = some (.error error)) :
    parseParts body delimiter limits pos parts = some (.error error) := by
  rw [parseParts, if_neg hcount]
  split
  · next hnone => cases hnone.symm.trans h
  · next error' herror =>
    cases herror.symm.trans h
    rfl
  · next span hspan => cases hspan.symm.trans h

theorem parseParts_ok {pos : ℕ} {parts : List MultipartPart} {span : PartSpan}
    (hcount : ¬ parts.length ≥ limits.maxParts) (h : RustRest.partSpan body delimiter limits pos = .ok span) :
    parseParts body delimiter limits pos parts =
      (match RustRest.parsePartHeaders ((body.drop pos).take (span.headersEnd - pos)) limits.maxHeadersPerPart with
      | .error error => some (.error error)
      | .ok (name, filename, contentType) =>
        let data := (body.drop (span.headersEnd + 4)).take (span.dataEnd - (span.headersEnd + 4))
        let parts := parts ++ [{ name, filename, contentType, data }]
        if span.next.closing then some (.ok parts) else parseParts body delimiter limits span.next.next parts) := by
  obtain ⟨hspan, hheaders, hdata⟩ := slices h
  rw [parseParts, if_neg hcount]
  split
  · next hnone => cases hnone.symm.trans hspan
  · next error herror => cases herror.symm.trans hspan
  · next span' hspan' =>
    cases hspan'.symm.trans hspan
    rw [hheaders, hdata, Option.bind_some, parsePartHeaders_eq, Option.bind_some]
    rfl

theorem parseParts_eq {pos : ℕ} (parts : List MultipartPart) (hpos : pos ≤ body.length) :
    parseParts body delimiter limits pos parts = some (RustRest.parseParts body delimiter limits pos parts) := by
  fun_induction RustRest.parseParts body delimiter limits pos parts with
  | case1 pos parts hcount => rw [parseParts, if_pos hcount]
  | case2 pos parts hcount error hspan => exact parseParts_error hcount (by rw [partSpan_eq hpos, hspan])
  | case3 pos parts hcount span hspan error hheaders =>
    rw [parseParts_ok hcount hspan, hheaders]
  | case4 pos parts hcount span hspan name filename contentType hheaders dataStart data parts' hclosing =>
    rw [parseParts_ok hcount hspan, hheaders]
    exact if_pos hclosing
  | case5 pos parts hcount span hspan name filename contentType hheaders dataStart data parts' hopen ih =>
    rw [parseParts_ok hcount hspan, hheaders]
    dsimp only
    rw [if_neg hopen]
    exact ih (partSpan_eq_ok hspan).next_le.2

theorem parseMultipart_eq (boundary : String) :
    parseMultipart body boundary limits = some (RustRest.parseMultipart body boundary limits) := by
  unfold parseMultipart RustRest.parseMultipart findInitialDelimiter
  dsimp only
  rw [findInitialFrom_eq, Option.bind_some]
  cases hopening : RustRest.findInitialFrom body (utf8 ("--" ++ boundary)) 0 with
  | none => rfl
  | some opening =>
    dsimp only
    by_cases hclosing : opening.closing = true
    · rw [if_pos hclosing, if_pos hclosing]
    · rw [if_neg hclosing, if_neg hclosing]
      obtain ⟨position, hposition, -, hline⟩ := findInitialFrom_spec hopening
      exact parseParts_eq [] (next_le_of_parseDelimiterLine hposition hline).2

end Parser

end Checked

/-! ## The parts in the body -/

structure PartRange.Within (body delimiter : List UInt8) (limits : MultipartLimits) (range : PartRange) : Prop where
  inOrder : range.start ≤ range.headersEnd ∧ range.dataStart ≤ range.dataEnd ∧ range.dataEnd ≤ body.length
  emptyLine : crlf ++ crlf <+: body.drop range.headersEnd
  headerBytes : (range.headers body).length ≤ limits.maxHeaderBytes
  headerCount : ∃ text, fromUtf8 (range.headers body) = some text ∧
    (splitCrlf text.toList).length ≤ limits.maxHeadersPerPart
  partBytes : (range.data body).length ≤ limits.maxPartBytes
  noDelimiterLine : ∀ q, range.dataStart ≤ q → q < range.dataEnd + 2 → ¬ DelimiterLineAt body delimiter q

theorem PartRange.Holds.within {body delimiter : List UInt8} {limits : MultipartLimits} {range : PartRange}
    {part : MultipartPart} (h : range.Holds body delimiter limits part) : range.Within body delimiter limits := by
  have hfound := h.found
  obtain ⟨text, htext, hcount, -⟩ := parsePartHeaders_eq_ok h.fields
  obtain ⟨hdata, hnext⟩ := hfound.next_le
  have hempty := prefix_of_find hfound.emptyLine
  rw [List.drop_drop, Nat.add_sub_cancel' hfound.le] at hempty
  exact {
    inOrder := ⟨hfound.le, hfound.data_le, by omega⟩
    emptyLine := hempty
    headerBytes := Nat.le_trans (List.length_take_le _ _) hfound.headerBytes
    headerCount := ⟨text, htext, hcount⟩
    partBytes := Nat.le_trans (List.length_take_le _ _) hfound.partBytes
    noDelimiterLine := fun _ hq hend => hfound.not_delimiterLineAt hq hend }

/-- **The parser is safe.** No slice is out of range. The parts that it returns are not too many. Each of them has its
range in the body, with its header block and its data within the limits and without a delimiter line in the data, and
the ranges of the data are apart, in order. -/
theorem multipart_safe (body : List UInt8) (boundary : String) (limits : MultipartLimits) :
    Checked.parseMultipart body boundary limits = some (parseMultipart body boundary limits) ∧
    ∀ parts, parseMultipart body boundary limits = .ok parts → parts.length ≤ limits.maxParts ∧
      ∃ ranges : List PartRange, List.Forall₂ (fun range part => range.Within body (utf8 ("--" ++ boundary)) limits ∧
          parsePartHeaders (range.headers body) limits.maxHeadersPerPart =
            .ok (part.name, part.filename, part.contentType) ∧ part.data = range.data body) ranges parts ∧
        ranges.Pairwise fun range range' => range.dataEnd ≤ range'.dataStart := by
  refine ⟨Checked.parseMultipart_eq boundary, fun parts hparts => ?_⟩
  obtain ⟨opening, -, ⟨-, rfl⟩ | ⟨-, hcount, ranges, hrounds⟩⟩ := parseMultipart_eq_ok hparts
  · exact ⟨Nat.zero_le _, [], .nil, .nil⟩
  · exact ⟨hcount, ranges, hrounds.forall₂.imp fun range part h => ⟨h.within, h.fields, h.data_eq⟩, hrounds.pairwise⟩

/-- Two parts, the second without data. -/
def twoParts : List MultipartPart := [⟨"a", none, none, [0x0d, 0x0a, 0x2d]⟩, ⟨"b", none, none, []⟩]

theorem fits_twoParts : ∀ part ∈ twoParts, part.Fits (utf8 ("--" ++ "xyz")) ⟨2, 1, 50, 3⟩ := by
  have hplain : ∀ {name : String}, name ≠ "" → Printable name → ∀ data,
      (MultipartPart.mk name none none data).WellFormed :=
    fun hne hname data => ⟨hne, hname, fun _ h => (by cases h), fun _ h => (by cases h)⟩
  intro part hpart
  simp only [twoParts, List.mem_cons, List.not_mem_nil, or_false] at hpart
  rcases hpart with rfl | rfl
  · exact ⟨hplain (by decide) (by decide) _, by decide, by decide, by decide, by decide⟩
  · exact ⟨hplain (by decide) (by decide) _, by decide, by decide, by decide, by decide⟩

theorem multipart_safe_two :
    let body := encodeMultipart "xyz" twoParts
    ∃ ranges : List PartRange, ranges.length = 2 ∧ ∀ range ∈ ranges, range.Within body (utf8 "--xyz") ⟨2, 1, 50, 3⟩ := by
  intro body
  obtain ⟨-, ranges, hranges, -⟩ := (multipart_safe body "xyz" ⟨2, 1, 50, 3⟩).2 _
    (parseMultipart_fits (by decide) fits_twoParts (by decide))
  refine ⟨ranges, hranges.length_eq, fun range hrange => ?_⟩
  obtain ⟨i, hi, rfl⟩ := List.getElem_of_mem hrange
  exact (hranges.get hi (hranges.length_eq ▸ hi)).1

end RustRest
