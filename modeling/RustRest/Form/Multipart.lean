import RustRest.Lib.Search
import RustRest.Header

/-!
# The multipart parser

`parse_multipart` looks for delimiter lines in the bytes of a body and reads the header lines of each part. The body is
a list of bytes, with positions in it; header lines are texts. Where the source scans the bytes of a text, it looks for
ASCII characters only, so the characters are scanned here.
-/

namespace RustRest

open Search List

/-- `MultipartLimits`. -/
structure MultipartLimits where
  maxParts : ℕ
  maxHeadersPerPart : ℕ
  maxHeaderBytes : ℕ
  maxPartBytes : ℕ

def MultipartLimits.new : MultipartLimits :=
  { maxParts := 128, maxHeadersPerPart := 32, maxHeaderBytes := 16 * 1024, maxPartBytes := 8 * 1024 * 1024 }

/-- `MultipartPart`. -/
structure MultipartPart where
  name : String
  filename : Option String
  contentType : Option String
  data : List UInt8
  deriving DecidableEq

def multipartLimit (message : String) : HttpError := .new 413 "payload_too_large" message

def malformedBody : HttpError := .new 400 "bad_request" "Malformed multipart body"

def malformedHeaders : HttpError := .new 400 "bad_request" "Malformed multipart headers"

/-- `\r\n`. -/
def crlf : List UInt8 := [0x0d, 0x0a]

/-! ## Delimiters -/

/-- A delimiter that was found, and where its line ends. -/
structure Delimiter where
  closing : Bool
  next : ℕ
  deriving DecidableEq

def delimiterLineEnd (body : List UInt8) (closing : Bool) (cursor : ℕ) : Option Delimiter :=
  let cursor := cursor + ((body.drop cursor).takeWhile fun b => b == 0x20 || b == 0x09).length
  if (body.drop cursor).take 2 = crlf then some ⟨closing, cursor + 2⟩
  else if closing && cursor == body.length then some ⟨closing, cursor⟩
  else none

/-- The delimiter, blanks, and the end of the line or of the body. -/
def parseDelimiterLine (body : List UInt8) (position : ℕ) (delimiter : List UInt8) : Option Delimiter :=
  if (body.drop position).take delimiter.length ≠ delimiter then none
  else
    let cursor := position + delimiter.length
    let closing := (body.drop cursor).take 2 == [0x2d, 0x2d]
    delimiterLineEnd body closing (if closing then cursor + 2 else cursor)

/-- A line break stands before a position. -/
def afterCrlf (body : List UInt8) (position : ℕ) : Bool :=
  2 ≤ position && (body.drop (position - 2)).take 2 == crlf

/-- `find_initial_delimiter`, from an offset. -/
def findInitialFrom (body delimiter : List UInt8) (offset : ℕ) : Option Delimiter :=
  if _hle : offset ≤ body.length - delimiter.length then
    match find (body.drop offset) delimiter with
    | none => none
    | some relative =>
      let position := offset + relative
      let parsed := if position == 0 || afterCrlf body position then parseDelimiterLine body position delimiter else none
      match parsed with
      | some parsed => some parsed
      | none => findInitialFrom body delimiter (position + 1)
  else none
termination_by body.length + 1 - offset

/-- The first delimiter line of the body. -/
def findInitialDelimiter (body delimiter : List UInt8) : Option Delimiter := findInitialFrom body delimiter 0

/-- The next delimiter line, which a line break precedes. -/
def findNextDelimiter (body : List UInt8) (offset : ℕ) (delimiter : List UInt8) : Option (ℕ × Delimiter) :=
  if _hle : offset ≤ body.length - delimiter.length then
    match find (body.drop offset) delimiter with
    | none => none
    | some relative =>
      let position := offset + relative
      let parsed := if afterCrlf body position then parseDelimiterLine body position delimiter else none
      match parsed with
      | some parsed => some (position, parsed)
      | none => findNextDelimiter body (position + 1) delimiter
  else none
termination_by body.length + 1 - offset

/-! ## Parameters -/

/-- `is_quoted_text_byte`, for a character. -/
def isQuotedTextChar (c : Char) : Bool := c == '\t' || (0x20 ≤ c.toNat && c.toNat != 0x7f)

def skipOptionalWhitespace (s : List Char) : List Char := s.dropWhile fun c => c == ' ' || c == '\t'

def quotedText : List Char → Option (List Char × List Char)
  | [] => none
  | '"' :: rest => some ([], rest)
  | '\\' :: [] => none
  | '\\' :: c :: rest => if isQuotedTextChar c then (quotedText rest).map fun x => (c :: x.1, x.2) else none
  | c :: rest => if isQuotedTextChar c then (quotedText rest).map fun x => (c :: x.1, x.2) else none

def parameterValue (s : List Char) : Option (List Char × List Char) :=
  match s with
  | '"' :: rest => (quotedText rest).map fun x => (x.1, skipOptionalWhitespace x.2)
  | s =>
    let unquoted := trim (s.takeWhile (· != ';'))
    if unquoted.isEmpty || !unquoted.all isTokenChar then none else some (unquoted, s.dropWhile (· != ';'))

theorem quotedText_length {s text rest : List Char} (h : quotedText s = some (text, rest)) :
    rest.length ≤ s.length := by
  fun_induction quotedText s generalizing text rest with
  | case1 => cases h
  | case2 rest' =>
    cases h
    exact Nat.le_succ _
  | case3 => cases h
  | case4 c rest' hquoted ih =>
    obtain ⟨x, hx, heq⟩ := Option.map_eq_some_iff.1 h
    cases heq
    have hle := ih hx
    simp only [length_cons]
    omega
  | case5 => cases h
  | case6 c rest' _ _ _ hquoted ih =>
    obtain ⟨x, hx, heq⟩ := Option.map_eq_some_iff.1 h
    cases heq
    have hle := ih hx
    simp only [length_cons]
    omega
  | case7 => cases h

theorem skipOptionalWhitespace_length (s : List Char) : (skipOptionalWhitespace s).length ≤ s.length :=
  (dropWhile_sublist _).length_le

/-- The value of a parameter takes some of the text. -/
theorem parameterValue_length {s value rest : List Char} (h : parameterValue s = some (value, rest)) :
    rest.length ≤ s.length := by
  unfold parameterValue at h
  split at h
  · next s' =>
    obtain ⟨x, hx, heq⟩ := Option.map_eq_some_iff.1 h
    cases heq
    have hquoted := quotedText_length hx
    have hskip := skipOptionalWhitespace_length x.2
    simp only [length_cons]
    omega
  · dsimp only at h
    split at h
    · cases h
    · cases h
      exact (dropWhile_sublist _).length_le

def parseParameter (s : List Char) : Option ((String × String) × List Char) :=
  let name := s.takeWhile isTokenChar
  if name = [] then none
  else
    match skipOptionalWhitespace (s.dropWhile isTokenChar) with
    | '=' :: rest => (parameterValue (skipOptionalWhitespace rest)).map fun x =>
        ((toAsciiLowercase (String.ofList name), String.ofList x.1), x.2)
    | _ => none

/-- A parameter takes some of the text, so the loop over them ends. -/
theorem parseParameter_length {s rest : List Char} {parameter : String × String}
    (h : parseParameter s = some (parameter, rest)) : rest.length ≤ s.length := by
  unfold parseParameter at h
  dsimp only at h
  split at h
  · cases h
  · split at h
    · next rest' hequals =>
      obtain ⟨x, hx, heq⟩ := Option.map_eq_some_iff.1 h
      cases heq
      have hvalue := parameterValue_length hx
      have hskip := skipOptionalWhitespace_length rest'
      have hskip' := skipOptionalWhitespace_length (s.dropWhile isTokenChar)
      have hdrop : (s.dropWhile isTokenChar).length ≤ s.length := (dropWhile_sublist _).length_le
      rw [hequals, length_cons] at hskip'
      omega
    · cases h

def parseParameters (s : List Char) : Option (List (String × String)) :=
  match s with
  | [] => some []
  | _ :: rest =>
    if skipOptionalWhitespace rest = [] then some []
    else
      match _hparameter : parseParameter (skipOptionalWhitespace rest) with
      | none => none
      | some (parameter, behind) =>
        if behind = [] ∨ behind.head? = some ';' then (parseParameters behind).map (parameter :: ·) else none
termination_by s.length
decreasing_by
  have hparameter := parseParameter_length _hparameter
  have hskip := skipOptionalWhitespace_length rest
  rw [length_cons]
  omega

def parseParameterizedValue (value : List Char) : Option (String × List (String × String)) :=
  let base := trim (value.takeWhile (· != ';'))
  if base = [] then none
  else (parseParameters (value.dropWhile (· != ';'))).map fun parameters => (String.ofList base, parameters)

/-- The value of a name that occurs once. -/
def uniqueParameter (parameters : List (String × String)) (name : String) : Option String :=
  match parameters.filter fun parameter => eqIgnoreAsciiCase parameter.1 name with
  | [parameter] => some parameter.2
  | _ => none

/-! ## The headers of a part -/

/-- `split("\r\n")`. -/
def splitCrlf : List Char → List (List Char)
  | [] => [[]]
  | '\r' :: '\n' :: rest => [] :: splitCrlf rest
  | c :: rest => (splitCrlf rest).modifyHead (c :: ·)

/-- The header lines that have been read. -/
structure PartHeaders where
  disposition : Option (List Char)
  contentType : Option (List Char)
  count : ℕ

def recordHeader (headers : PartHeaders) (name value : List Char) : Except HttpError PartHeaders :=
  if eqIgnoreAsciiCase (String.ofList name) "content-disposition" then
    if headers.disposition.isSome then .error malformedHeaders
    else .ok { headers with disposition := some value }
  else if eqIgnoreAsciiCase (String.ofList name) "content-type" then
    if value.isEmpty || headers.contentType.isSome then .error malformedHeaders
    else .ok { headers with contentType := some value }
  else .ok headers

def parseHeaderLine (maxHeaders : ℕ) (headers : PartHeaders) (line : List Char) : Except HttpError PartHeaders :=
  let headers := { headers with count := headers.count + 1 }
  if headers.count > maxHeaders then
    .error (multipartLimit "Una parte multipart contiene demasiadas cabeceras")
  else if line.head?.any (fun c => c == ' ' || c == '\t') then .error malformedHeaders
  else
    match splitOnce ':' line with
    | none => .error malformedHeaders
    | some (name, value) =>
      if name.isEmpty || !name.all isTokenChar then .error malformedHeaders
      else
        let value := trim value
        if value.any fun c => c == Char.ofNat 0x7f || (isControl c && c != '\t') then .error malformedHeaders
        else recordHeader headers name value

def partHeaders (headers : PartHeaders) : Except HttpError (String × Option String × Option String) :=
  match headers.disposition.bind parseParameterizedValue with
  | none => .error malformedHeaders
  | some (kind, parameters) =>
    if !eqIgnoreAsciiCase kind "form-data" then .error malformedHeaders
    else
      match (uniqueParameter parameters "name").filter (· ≠ "") with
      | none => .error malformedHeaders
      | some name => .ok (name, uniqueParameter parameters "filename", headers.contentType.map String.ofList)

/-- The header block of a part, line by line. -/
def parsePartHeaders (rawHeaders : List UInt8) (maxHeaders : ℕ) :
    Except HttpError (String × Option String × Option String) :=
  match fromUtf8 rawHeaders with
  | none => .error malformedHeaders
  | some text => (splitCrlf text.toList).foldlM (parseHeaderLine maxHeaders) ⟨none, none, 0⟩ >>= partHeaders

/-! ## The body -/

structure PartSpan where
  headersEnd : ℕ
  dataEnd : ℕ
  next : Delimiter

def partSpan (body delimiter : List UInt8) (limits : MultipartLimits) (pos : ℕ) : Except HttpError PartSpan :=
  match find (body.drop pos) (crlf ++ crlf) with
  | none => .error malformedBody
  | some relativeHeadersEnd =>
    if relativeHeadersEnd > limits.maxHeaderBytes then
      .error (multipartLimit "Las cabeceras de una parte multipart son demasiado grandes")
    else
      let headersEnd := pos + relativeHeadersEnd
      let dataStart := headersEnd + 4
      match findNextDelimiter body dataStart delimiter with
      | none => .error malformedBody
      | some (delimiterStart, next) =>
        if delimiterStart < 2 ∨ delimiterStart - 2 < dataStart then .error malformedBody
        else
          let dataEnd := delimiterStart - 2
          if dataEnd - dataStart > limits.maxPartBytes then
            .error (multipartLimit "Una parte multipart es demasiado grande")
          else .ok { headersEnd, dataEnd, next }

theorem le_next_of_delimiterLineEnd {body : List UInt8} {closing : Bool} {cursor : ℕ} {parsed : Delimiter}
    (h : delimiterLineEnd body closing cursor = some parsed) : cursor ≤ parsed.next := by
  unfold delimiterLineEnd at h
  dsimp only at h
  split at h
  · cases h
    dsimp only
    omega
  · split at h
    · cases h
      dsimp only
      omega
    · cases h

theorem le_next_of_parseDelimiterLine {body delimiter : List UInt8} {position : ℕ} {parsed : Delimiter}
    (h : parseDelimiterLine body position delimiter = some parsed) : position ≤ parsed.next := by
  unfold parseDelimiterLine at h
  split at h
  · cases h
  · have hle := le_next_of_delimiterLineEnd h
    split at hle <;> omega

/-- A delimiter stands behind the offset, so the loop over the parts ends. -/
theorem le_of_findNextDelimiter {body delimiter : List UInt8} {offset position : ℕ} {parsed : Delimiter}
    (h : findNextDelimiter body offset delimiter = some (position, parsed)) :
    offset ≤ position ∧ position ≤ parsed.next := by
  fun_induction findNextDelimiter body offset delimiter with
  | case1 => cases h
  | case2 offset _ relative _ position' parsed' parsed'' hparsed =>
    obtain ⟨hposition, hnext⟩ := Prod.mk.inj (Option.some.inj h)
    rw [← hposition, ← hnext]
    refine ⟨Nat.le_add_right _ _, ?_⟩
    by_cases hline : afterCrlf body position'
    · have hsome : parsed' = parseDelimiterLine body position' delimiter := if_pos hline
      exact le_next_of_parseDelimiterLine (hsome.symm.trans hparsed)
    · have hnone : parsed' = none := if_neg hline
      cases hnone.symm.trans hparsed
  | case3 offset _ relative _ position' _ _ ih =>
    obtain ⟨hle, hnext⟩ := ih h
    exact ⟨by omega, hnext⟩
  | case4 => cases h

/-- The delimiter after a part comes after its beginning. -/
theorem lt_of_partSpan {body delimiter : List UInt8} {limits : MultipartLimits} {pos : ℕ} {span : PartSpan}
    (h : partSpan body delimiter limits pos = .ok span) : pos < body.length ∧ pos < span.next.next := by
  unfold partSpan at h
  split at h
  · cases h
  · next relative hfind =>
    have hlength := (prefix_of_find hfind).length_le
    simp only [crlf, length_append, length_cons, length_nil, length_drop] at hlength
    split at h
    · cases h
    · dsimp only at h
      split at h
      · cases h
      · next position next hnext =>
        obtain ⟨hstart, hend⟩ := le_of_findNextDelimiter hnext
        split at h
        · cases h
        · split at h
          · cases h
          · cases h
            dsimp only
            omega

def parseParts (body delimiter : List UInt8) (limits : MultipartLimits) (pos : ℕ) (parts : List MultipartPart) :
    Except HttpError (List MultipartPart) :=
  if parts.length ≥ limits.maxParts then .error (multipartLimit "Demasiadas partes multipart")
  else
    match _hspan : partSpan body delimiter limits pos with
    | .error error => .error error
    | .ok span =>
      match parsePartHeaders ((body.drop pos).take (span.headersEnd - pos)) limits.maxHeadersPerPart with
      | .error error => .error error
      | .ok (name, filename, contentType) =>
        let dataStart := span.headersEnd + 4
        let data := (body.drop dataStart).take (span.dataEnd - dataStart)
        let parts := parts ++ [{ name, filename, contentType, data }]
        if span.next.closing then .ok parts else parseParts body delimiter limits span.next.next parts
termination_by body.length - pos
decreasing_by
  have hlt := lt_of_partSpan _hspan
  omega

/-- `parse_multipart`: the first delimiter, then the parts. -/
def parseMultipart (body : List UInt8) (boundary : String) (limits : MultipartLimits) :
    Except HttpError (List MultipartPart) :=
  let delimiter := utf8 ("--" ++ boundary)
  match findInitialDelimiter body delimiter with
  | none => .error malformedBody
  | some first => if first.closing then .ok [] else parseParts body delimiter limits first.next []

def maxBoundaryBytes : ℕ := 70

/-- `is_valid_boundary`: up to 70 characters, not ending in a space. -/
def isValidBoundary (boundary : String) : Bool :=
  let bytes := utf8 boundary
  !bytes.isEmpty && bytes.length ≤ maxBoundaryBytes &&
  bytes.all (fun b => isAsciiAlphanumeric b || (utf8 "'()+_,-./:=? ").contains b) &&
  bytes.getLast? != some 0x20

end RustRest
