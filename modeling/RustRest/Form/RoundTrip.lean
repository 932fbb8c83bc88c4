import RustRest.Form.Ranges

/-!
# Multipart bodies are read back

The standard form of a list of parts: a delimiter line before each part and a closing one at the end, the header lines
with quoted parameters, an empty line and the data.

Main result: **`parseMultipart_encode`**.
-/

namespace RustRest

open Search List

/-! ## The standard form -/

def escapeQuoted (s : List Char) : List Char := s.flatMap fun c => if c = '"' ∨ c = '\\' then ['\\', c] else [c]

/-- `name="value"`. -/
def quotedParameter (name : List Char) (value : String) : List Char :=
  name ++ '=' :: '"' :: (escapeQuoted value.toList ++ ['"'])

def furtherParameter (name : List Char) (value : String) : List Char := ';' :: ' ' :: quotedParameter name value

namespace MultipartPart

/-- The value of `Content-Disposition`. -/
def disposition (part : MultipartPart) : List Char :=
  "form-data".toList ++ (furtherParameter "name".toList part.name ++
    (part.filename.map (furtherParameter "filename".toList)).getD [])

def headerLines (part : MultipartPart) : List (List Char) :=
  ("Content-Disposition".toList ++ ':' :: ' ' :: part.disposition) ::
    (part.contentType.map fun contentType => "Content-Type".toList ++ ':' :: ' ' :: contentType.toList).toList

def headerText (part : MultipartPart) : String := String.ofList (['\r', '\n'].intercalate part.headerLines)

/-- The part between its delimiters. -/
def encode (part : MultipartPart) : List UInt8 := utf8 part.headerText ++ (crlf ++ (crlf ++ part.data))

end MultipartPart

def encodeParts (delimiter : List UInt8) : List MultipartPart → List UInt8
  | [] => 0x2d :: 0x2d :: crlf
  | part :: parts => crlf ++ (part.encode ++ (crlf ++ (delimiter ++ encodeParts delimiter parts)))

def encodeMultipart (boundary : String) (parts : List MultipartPart) : List UInt8 :=
  let delimiter := utf8 ("--" ++ boundary)
  delimiter ++ encodeParts delimiter parts

/-- A text without control characters. -/
def Printable (s : String) : Prop := ∀ c ∈ s.toList, isControl c = false

instance (s : String) : Decidable (Printable s) :=
  decidable_of_iff (s.toList.all (fun c => !isControl c) = true) (by simp [Printable])

structure MultipartPart.WellFormed (part : MultipartPart) : Prop where
  name_ne : part.name ≠ ""
  name : Printable part.name
  filename : ∀ filename, part.filename = some filename → Printable filename
  contentType : ∀ contentType, part.contentType = some contentType →
    contentType ≠ "" ∧ trim contentType.toList = contentType.toList ∧ Printable contentType

structure MultipartLimits.Allow (limits : MultipartLimits) (parts : List MultipartPart) : Prop where
  count : parts.length ≤ limits.maxParts
  headers : ∀ part ∈ parts, part.headerLines.length ≤ limits.maxHeadersPerPart
  headerBytes : ∀ part ∈ parts, (utf8 part.headerText).length ≤ limits.maxHeaderBytes
  partBytes : ∀ part ∈ parts, part.data.length ≤ limits.maxPartBytes

/-! ## Parameters -/

theorem isQuotedTextChar_of_printable {c : Char} (h : isControl c = false) : isQuotedTextChar c = true := by
  simp only [isControl, Bool.or_eq_false_iff, decide_eq_false_iff_not, Bool.and_eq_false_iff] at h
  simp only [isQuotedTextChar, Bool.or_eq_true, Bool.and_eq_true, decide_eq_true_eq, bne_iff_ne]
  omega

theorem quotedText_cons {c : Char} {rest : List Char} (hquote : c ≠ '"') (hescape : c ≠ '\\')
    (htext : isQuotedTextChar c = true) :
    quotedText (c :: rest) = (quotedText rest).map fun x => (c :: x.1, x.2) := by
  rw [quotedText, if_pos htext]
  · exact hquote
  · exact fun h _ => hescape h
  · exact fun _ _ h _ => hescape h

theorem escapeQuoted_cons (c : Char) (s : List Char) : escapeQuoted (c :: s) =
    if c = '"' ∨ c = '\\' then '\\' :: c :: escapeQuoted s else c :: escapeQuoted s := by
  rw [escapeQuoted, flatMap_cons]
  split <;> rfl

theorem quotedText_escapeQuoted {s : List Char} (h : ∀ c ∈ s, isQuotedTextChar c = true) (rest : List Char) :
    quotedText (escapeQuoted s ++ '"' :: rest) = some (s, rest) := by
  induction s with
  | nil => rfl
  | cons c s ih =>
    have htext := h c mem_cons_self
    have hrest := ih fun d hd => h d (mem_cons_of_mem _ hd)
    rw [escapeQuoted_cons]
    split
    · rw [cons_append, cons_append, quotedText, if_pos htext, hrest]
      rfl
    · next hplain =>
      rw [not_or] at hplain
      rw [cons_append, quotedText_cons hplain.1 hplain.2 htext, hrest]
      rfl

theorem skipOptionalWhitespace_cons {c : Char} (h : c ≠ ' ' ∧ c ≠ '\t') (s : List Char) :
    skipOptionalWhitespace (c :: s) = c :: s := by
  unfold skipOptionalWhitespace
  rw [dropWhile_cons_of_neg]
  simpa using h

def Blank (s : List Char) : Prop := ∀ c ∈ s, c = ' ' ∨ c = '\t'

theorem Blank.nil : Blank [] := fun _ h => absurd h not_mem_nil

theorem Blank.skip {blank : List Char} (h : Blank blank) (s : List Char) :
    skipOptionalWhitespace (blank ++ s) = skipOptionalWhitespace s :=
  dropWhile_append_of_pos fun c hc => by simpa using h c hc

variable {name : List Char}

theorem skipOptionalWhitespace_token (hname : name ≠ [])
    (htoken : ∀ c ∈ name, isTokenChar c = true) (s : List Char) : skipOptionalWhitespace (name ++ s) = name ++ s := by
  cases name with
  | nil => exact absurd rfl hname
  | cons c name =>
    have hc := isWhitespace_of_isTokenChar (htoken c mem_cons_self)
    refine skipOptionalWhitespace_cons ⟨?_, ?_⟩ _
    · rintro rfl
      exact absurd hc (by decide)
    · rintro rfl
      exact absurd hc (by decide)

theorem parseParameter_written {name beforeEquals afterEquals value : List Char} (hname : name ≠ [])
    (htoken : ∀ c ∈ name, isTokenChar c = true) (hbefore : Blank beforeEquals) (hafter : Blank afterEquals)
    (hvalue : ∀ c ∈ value, isQuotedTextChar c = true) (behind : List Char) :
    parseParameter (name ++ (beforeEquals ++ '=' :: (afterEquals ++ '"' :: (escapeQuoted value ++ '"' :: behind)))) =
      some ((toAsciiLowercase (String.ofList name), String.ofList value), skipOptionalWhitespace behind) := by
  -- neither a blank nor the sign belongs to the name
  have hsign : ∀ rest, ∃ c rest', beforeEquals ++ '=' :: rest = c :: rest' ∧ ¬ isTokenChar c = true := by
    intro rest
    cases beforeEquals with
    | nil => exact ⟨'=', rest, rfl, by decide⟩
    | cons c blank =>
      refine ⟨c, _, rfl, ?_⟩
      rcases hbefore c mem_cons_self with rfl | rfl
      · decide
      · decide
  obtain ⟨c, rest, hcons, hc⟩ := hsign (afterEquals ++ '"' :: (escapeQuoted value ++ '"' :: behind))
  have hequals : skipOptionalWhitespace (c :: rest) = '=' :: (afterEquals ++ '"' :: (escapeQuoted value ++ '"' :: behind)) := by
    rw [← hcons, hbefore.skip, skipOptionalWhitespace_cons (by decide)]
  unfold parseParameter
  rw [hcons, takeWhile_append_of_pos htoken, takeWhile_cons_of_neg hc, append_nil,
    dropWhile_append_of_pos htoken, dropWhile_cons_of_neg hc]
  rw [if_neg hname, hequals]
  show Option.map _ (parameterValue (skipOptionalWhitespace (afterEquals ++ _))) = _
  rw [hafter.skip, skipOptionalWhitespace_cons (by decide), parameterValue, quotedText_escapeQuoted hvalue,
    Option.map_some, Option.map_some]

/-- A quoted parameter is read back. -/
theorem parseParameter_quoted {value : String} (hname : name ≠ [])
    (htoken : ∀ c ∈ name, isTokenChar c = true) (hvalue : Printable value) (behind : List Char) :
    parseParameter (quotedParameter name value ++ behind) =
      some ((toAsciiLowercase (String.ofList name), value), skipOptionalWhitespace behind) := by
  have hsplit : quotedParameter name value ++ behind =
      name ++ ([] ++ '=' :: ([] ++ '"' :: (escapeQuoted value.toList ++ '"' :: behind))) := by
    simp [quotedParameter]
  have hparameter := parseParameter_written hname htoken Blank.nil Blank.nil
    (fun c hc => isQuotedTextChar_of_printable (hvalue c hc)) behind
  rw [String.ofList_toList] at hparameter
  rw [hsplit]
  exact hparameter

theorem parseParameters_further {value : String} (hname : name ≠ [])
    (htoken : ∀ c ∈ name, isTokenChar c = true) (hvalue : Printable value) {behind : List Char}
    (hbehind : behind = [] ∨ behind.head? = some ';') :
    parseParameters (furtherParameter name value ++ behind) =
      (parseParameters behind).map ((toAsciiLowercase (String.ofList name), value) :: ·) := by
  have hskip : skipOptionalWhitespace behind = behind := by
    cases behind with
    | nil => rfl
    | cons c behind =>
      have hc : c = ';' := by simpa using hbehind
      exact skipOptionalWhitespace_cons (by rw [hc]; decide) behind
  have hfirst : skipOptionalWhitespace (' ' :: (quotedParameter name value ++ behind)) =
      quotedParameter name value ++ behind := by
    show skipOptionalWhitespace (quotedParameter name value ++ behind) = _
    rw [quotedParameter, append_assoc]
    exact skipOptionalWhitespace_token hname htoken _
  have hne : quotedParameter name value ++ behind ≠ [] := by simp [quotedParameter]
  have hparameter := parseParameter_quoted hname htoken hvalue behind
  rw [hskip] at hparameter
  rw [furtherParameter, cons_append, cons_append, parseParameters, hfirst, if_neg hne]
  split
  · next hnone => cases hparameter.symm.trans hnone
  · next parameter behind' hsome =>
    cases hparameter.symm.trans hsome
    rw [if_pos hbehind]

theorem formData_token : ∀ c ∈ "form-data".toList, isTokenChar c = true := all_eq_true.1 (by decide)

theorem name_token : ∀ c ∈ "name".toList, isTokenChar c = true := all_eq_true.1 (by decide)

theorem filename_token : ∀ c ∈ "filename".toList, isTokenChar c = true := all_eq_true.1 (by decide)

variable {part : MultipartPart}

theorem parseParameterizedValue_disposition (h : part.WellFormed) :
    parseParameterizedValue part.disposition = some ("form-data", ("name", part.name) ::
      (part.filename.map fun filename => ("filename", filename)).toList) := by
  have hbase : ∀ c ∈ "form-data".toList, (c != ';') = true := all_eq_true.1 (by decide)
  have htake : ∀ rest, ("form-data".toList ++ ';' :: rest).takeWhile (· != ';') = "form-data".toList := by
    intro rest
    rw [takeWhile_append_of_pos hbase, takeWhile_cons_of_neg (by decide), append_nil]
  have hdrop : ∀ rest, ("form-data".toList ++ ';' :: rest).dropWhile (· != ';') = ';' :: rest := by
    intro rest
    rw [dropWhile_append_of_pos hbase, dropWhile_cons_of_neg (by decide)]
  have hparameters : parseParameters (furtherParameter "name".toList part.name ++
      (part.filename.map (furtherParameter "filename".toList)).getD []) =
      some (("name", part.name) :: (part.filename.map fun filename => ("filename", filename)).toList) := by
    cases hfilename : part.filename with
    | none =>
      rw [Option.map_none, Option.getD_none, parseParameters_further (by decide) name_token h.name (.inl rfl),
        parseParameters]
      rfl
    | some filename =>
      rw [Option.map_some, Option.getD_some, parseParameters_further (by decide) name_token h.name (.inr rfl),
        ← append_nil (furtherParameter "filename".toList filename),
        parseParameters_further (by decide) filename_token (h.filename filename hfilename) (.inl rfl), parseParameters]
      rfl
  unfold parseParameterizedValue MultipartPart.disposition
  rw [furtherParameter, cons_append, htake, hdrop, if_neg (by decide)]
  show Option.map _ (parseParameters (furtherParameter "name".toList part.name ++ _)) = _
  rw [hparameters]
  rfl

/-! ## Header lines -/

variable {line : List Char}

theorem splitCrlf_of_not_mem (h : '\r' ∉ line) : splitCrlf line = [line] := by
  induction line with
  | nil => rfl
  | cons c line ih =>
    rw [mem_cons, not_or] at h
    rw [splitCrlf, ih h.2]
    · rfl
    · exact fun _ hc _ => h.1 hc.symm

theorem splitCrlf_append (h : '\r' ∉ line) (rest : List Char) :
    splitCrlf (line ++ '\r' :: '\n' :: rest) = line :: splitCrlf rest := by
  induction line with
  | nil => rfl
  | cons c line ih =>
    rw [mem_cons, not_or] at h
    rw [cons_append, splitCrlf, ih h.2]
    · rfl
    · exact fun _ hc _ => h.1 hc.symm

theorem mem_escapeQuoted {s : List Char} {c : Char} (h : c ∈ escapeQuoted s) : c ∈ s ∨ c = '\\' := by
  obtain ⟨d, hd, hc⟩ := mem_flatMap.1 h
  split at hc
  · rcases mem_cons.1 hc with rfl | hc
    · exact .inr rfl
    · exact .inl (mem_singleton.1 hc ▸ hd)
  · exact .inl (mem_singleton.1 hc ▸ hd)

theorem printable_furtherParameter {value : String} (htoken : ∀ c ∈ name, isTokenChar c = true)
    (hvalue : Printable value) : ∀ c ∈ furtherParameter name value, isControl c = false := by
  intro c hc
  simp only [furtherParameter, quotedParameter, mem_cons, mem_append, not_mem_nil, or_false] at hc
  rcases hc with rfl | rfl | hc | rfl | rfl | hc | rfl
  · rfl
  · rfl
  · exact isControl_of_isTokenChar (htoken c hc)
  · rfl
  · rfl
  · rcases mem_escapeQuoted hc with hc | rfl
    · exact hvalue c hc
    · rfl
  · rfl

theorem printable_disposition (h : part.WellFormed) :
    ∀ c ∈ part.disposition, isControl c = false := by
  intro c hc
  rcases mem_append.1 hc with hc | hc
  · exact isControl_of_isTokenChar (formData_token c hc)
  rcases mem_append.1 hc with hc | hc
  · exact printable_furtherParameter name_token h.name c hc
  · cases hfilename : part.filename with
    | none =>
      rw [hfilename, Option.map_none, Option.getD_none] at hc
      exact absurd hc not_mem_nil
    | some filename =>
      rw [hfilename, Option.map_some, Option.getD_some] at hc
      exact printable_furtherParameter filename_token (h.filename filename hfilename) c hc

theorem getLast?_furtherParameter (name : List Char) (value : String) :
    (furtherParameter name value).getLast? = some '"' := by
  have hsplit : furtherParameter name value =
      (';' :: ' ' :: (name ++ '=' :: '"' :: escapeQuoted value.toList)) ++ ['"'] := by
    simp [furtherParameter, quotedParameter]
  rw [hsplit, List.getLast?_concat]

theorem bare_disposition (part : MultipartPart) : Bare part.disposition := by
  refine ⟨fun c hc => ?_, fun c hc => ?_⟩
  · have hhead : part.disposition.head? = some 'f' := rfl
    rw [Option.mem_def, hhead, Option.some_inj] at hc
    rw [← hc]
    rfl
  · have hlast : part.disposition.getLast? = some '"' := by
      unfold MultipartPart.disposition
      cases part.filename with
      | none =>
        rw [Option.map_none, Option.getD_none, append_nil, List.getLast?_append, getLast?_furtherParameter]
        rfl
      | some filename =>
        rw [Option.map_some, Option.getD_some, ← append_assoc, List.getLast?_append, getLast?_furtherParameter]
        rfl
    rw [Option.mem_def, hlast, Option.some_inj] at hc
    rw [← hc]
    rfl

variable {maxHeaders : ℕ}

theorem parseHeaderLine_colon {headers : PartHeaders} {name value : List Char}
    (hcount : headers.count + 1 ≤ maxHeaders) (hname : name ≠ []) (htoken : ∀ c ∈ name, isTokenChar c = true)
    (hvalue : ∀ c ∈ trim value, isControl c = false) :
    parseHeaderLine maxHeaders headers (name ++ ':' :: value) =
      recordHeader { headers with count := headers.count + 1 } name (trim value) := by
  have hblank : ((name ++ ':' :: value).head?.any fun c => c == ' ' || c == '\t') = false := by
    cases name with
    | nil => exact absurd rfl hname
    | cons c name =>
      have hc := isWhitespace_of_isTokenChar (htoken c mem_cons_self)
      show (c == ' ' || c == '\t') = false
      rw [Bool.or_eq_false_iff, beq_eq_false_iff_ne, beq_eq_false_iff_ne]
      refine ⟨?_, ?_⟩
      · rintro rfl
        exact absurd hc (by decide)
      · rintro rfl
        exact absurd hc (by decide)
  have hcolon : ':' ∉ name := fun hc => absurd (htoken _ hc) (by decide)
  have hvalid : (name.isEmpty || !name.all isTokenChar) = false := by
    rw [Bool.or_eq_false_iff, isEmpty_eq_false_iff, Bool.not_eq_false', all_eq_true]
    exact ⟨hname, htoken⟩
  have hclean : ((trim value).any fun c => c == Char.ofNat 0x7f || (isControl c && c != '\t')) = false := by
    rw [any_eq_false]
    intro c hc hbad
    rw [hvalue c hc, Bool.false_and, Bool.or_false, beq_iff_eq] at hbad
    exact absurd (hvalue c hc) (by rw [hbad]; decide)
  unfold parseHeaderLine
  dsimp only
  rw [if_neg (by omega), hblank, if_neg Bool.false_ne_true, splitOnce_append hcolon]
  dsimp only
  rw [hvalid, if_neg Bool.false_ne_true, hclean, if_neg Bool.false_ne_true]

theorem parseHeaderLine_eq {headers : PartHeaders} {name value : List Char}
    (hcount : headers.count + 1 ≤ maxHeaders) (hname : name ≠ []) (htoken : ∀ c ∈ name, isTokenChar c = true)
    (hbare : Bare value) (hvalue : ∀ c ∈ value, isControl c = false) :
    parseHeaderLine maxHeaders headers (name ++ ':' :: ' ' :: value) =
      recordHeader { headers with count := headers.count + 1 } name value := by
  have htrim : trim (' ' :: value) = value := by rw [trim_space_cons, trim_of_bare hbare]
  rw [parseHeaderLine_colon hcount hname htoken (by rw [htrim]; exact hvalue), htrim]

theorem contentDisposition_token : ∀ c ∈ "Content-Disposition".toList, isTokenChar c = true :=
  all_eq_true.1 (by decide)

theorem contentType_token : ∀ c ∈ "Content-Type".toList, isTokenChar c = true := all_eq_true.1 (by decide)

theorem printable_line {name value : List Char} (htoken : ∀ c ∈ name, isTokenChar c = true)
    (hvalue : ∀ c ∈ value, isControl c = false) : ∀ c ∈ name ++ ':' :: ' ' :: value, isControl c = false := by
  intro c hc
  rcases mem_append.1 hc with hc | hc
  · exact isControl_of_isTokenChar (htoken c hc)
  · rcases mem_cons.1 hc with rfl | hc
    · rfl
    · rcases mem_cons.1 hc with rfl | hc
      · rfl
      · exact hvalue c hc

theorem printable_headerLines (h : part.WellFormed) :
    ∀ line ∈ part.headerLines, ∀ c ∈ line, isControl c = false := by
  intro line hline
  rcases mem_cons.1 hline with rfl | hline
  · exact printable_line contentDisposition_token (printable_disposition h)
  · obtain ⟨contentType, hcontent, rfl⟩ := Option.map_eq_some_iff.1 (Option.mem_toList.1 hline)
    exact printable_line contentType_token (h.contentType contentType hcontent).2.2

theorem splitCrlf_intercalate : ∀ {lines : List (List Char)}, lines ≠ [] → (∀ line ∈ lines, '\r' ∉ line) →
    splitCrlf (['\r', '\n'].intercalate lines) = lines
  | [line], _, h => by
    rw [intercalate_singleton, splitCrlf_of_not_mem (h line mem_cons_self)]
  | line :: next :: rest, _, h => by
    have ih := splitCrlf_intercalate (cons_ne_nil next rest) fun l hl => h l (mem_cons_of_mem _ hl)
    rw [intercalate_cons_cons, append_assoc, cons_append, singleton_append,
      splitCrlf_append (h line mem_cons_self), ih]

theorem foldlM_headerLines (h : part.WellFormed)
    (hmax : part.headerLines.length ≤ maxHeaders) :
    ∃ count, part.headerLines.foldlM (parseHeaderLine maxHeaders) ⟨none, none, 0⟩ =
      .ok ⟨some part.disposition, part.contentType.map String.toList, count⟩ := by
  have hfirst : ∀ {maxHeaders}, 1 ≤ maxHeaders → parseHeaderLine maxHeaders ⟨none, none, 0⟩
      ("Content-Disposition".toList ++ ':' :: ' ' :: part.disposition) = .ok ⟨some part.disposition, none, 1⟩ := by
    intro maxHeaders hone
    rw [parseHeaderLine_eq hone (by decide) contentDisposition_token (bare_disposition part) (printable_disposition h)]
    rfl
  unfold MultipartPart.headerLines at hmax ⊢
  cases hcontent : part.contentType with
  | none =>
    rw [hcontent] at hmax
    refine ⟨1, ?_⟩
    rw [foldlM_cons, hfirst hmax]
    rfl
  | some contentType =>
    rw [hcontent] at hmax
    obtain ⟨hne, htrim, hprintable⟩ := h.contentType contentType hcontent
    have hbare : Bare contentType.toList := htrim ▸ bare_trim contentType.toList
    have hnonempty : contentType.toList.isEmpty = false := by
      rw [isEmpty_eq_false_iff]
      exact fun hnil => hne (String.toList_inj.1 hnil)
    refine ⟨2, ?_⟩
    have hone : 1 ≤ maxHeaders := Nat.le_of_succ_le hmax
    rw [foldlM_cons, hfirst hone]
    show parseHeaderLine maxHeaders ⟨some part.disposition, none, 1⟩ _ >>= _ = _
    rw [parseHeaderLine_eq hmax (by decide) contentType_token hbare hprintable, recordHeader,
      if_neg (by decide), if_pos (by decide), hnonempty]
    rfl

theorem uniqueParameter_disposition (part : MultipartPart) :
    let parameters := ("name", part.name) :: (part.filename.map fun filename => ("filename", filename)).toList
    uniqueParameter parameters "name" = some part.name ∧ uniqueParameter parameters "filename" = part.filename := by
  have hname : eqIgnoreAsciiCase "name" "name" = true := by decide
  have hother : eqIgnoreAsciiCase "filename" "name" = false := by decide
  have hother' : eqIgnoreAsciiCase "name" "filename" = false := by decide
  have hfilename : eqIgnoreAsciiCase "filename" "filename" = true := by decide
  cases part.filename with
  | none => simp [uniqueParameter, hname, hother']
  | some filename => simp [uniqueParameter, hname, hother, hother', hfilename]

theorem partHeaders_disposition (h : part.WellFormed) (count : ℕ) :
    partHeaders ⟨some part.disposition, part.contentType.map String.toList, count⟩ =
      .ok (part.name, part.filename, part.contentType) := by
  have hname : (some part.name).filter (· ≠ "") = some part.name := by
    rw [Option.filter_some, if_pos (decide_eq_true h.name_ne)]
  have hcontent : (part.contentType.map String.toList).map String.ofList = part.contentType := by
    rw [Option.map_map]
    cases part.contentType with
    | none => rfl
    | some contentType => exact congrArg some String.ofList_toList
  unfold partHeaders
  rw [Option.bind_some, parseParameterizedValue_disposition h]
  dsimp only
  rw [if_neg (by decide), (uniqueParameter_disposition part).1, hname]
  dsimp only
  rw [(uniqueParameter_disposition part).2, hcontent]

/-- The header lines of a part are read back. -/
theorem parsePartHeaders_headerText (h : part.WellFormed)
    (hmax : part.headerLines.length ≤ maxHeaders) :
    parsePartHeaders (utf8 part.headerText) maxHeaders = .ok (part.name, part.filename, part.contentType) := by
  have hreturn : ∀ line ∈ part.headerLines, '\r' ∉ line := fun line hline hc =>
    absurd (printable_headerLines h line hline _ hc) (by decide)
  have hsplit : splitCrlf part.headerText.toList = part.headerLines := by
    rw [MultipartPart.headerText, String.toList_ofList]
    exact splitCrlf_intercalate (cons_ne_nil _ _) hreturn
  obtain ⟨count, hfold⟩ := foldlM_headerLines h hmax
  unfold parsePartHeaders
  rw [fromUtf8_utf8]
  dsimp only
  rw [hsplit, hfold]
  exact partHeaders_disposition h count

/-! ## The end of the headers -/

theorem not_mem_utf8_of_printable (h : ∀ c ∈ line, isControl c = false) :
    0x0d ∉ utf8 (String.ofList line) := by
  intro hmem
  have hchar := mem_of_mem_utf8 hmem (by decide)
  rw [String.toList_ofList] at hchar
  exact absurd (h _ hchar) (by decide)

theorem utf8_intercalate_cons (line next : List Char) (rest : List (List Char)) :
    utf8 (String.ofList (['\r', '\n'].intercalate (line :: next :: rest))) =
      utf8 (String.ofList line) ++ (crlf ++ utf8 (String.ofList (['\r', '\n'].intercalate (next :: rest)))) := by
  rw [intercalate_cons_cons, String.ofList_append, String.ofList_append, utf8_append, utf8_append,
    append_assoc]
  rfl

theorem utf8_intercalate_head (hne : line ≠ []) (h : ∀ c ∈ line, isControl c = false)
    (rest : List (List Char)) : ∃ b bytes,
      utf8 (String.ofList (['\r', '\n'].intercalate (line :: rest))) = b :: bytes ∧ b ≠ 0x0d := by
  obtain ⟨tail, htail⟩ : ∃ tail, utf8 (String.ofList (['\r', '\n'].intercalate (line :: rest))) =
      utf8 (String.ofList line) ++ tail := by
    cases rest with
    | nil => exact ⟨[], by rw [intercalate_singleton, append_nil]⟩
    | cons next rest => exact ⟨_, utf8_intercalate_cons line next rest⟩
  cases hbytes : utf8 (String.ofList line) with
  | nil =>
    exfalso
    have hempty : String.ofList line = "" := utf8_injective hbytes
    have hlist := congrArg String.toList hempty
    rw [String.toList_ofList] at hlist
    exact hne hlist
  | cons b bytes =>
    refine ⟨b, bytes ++ tail, by rw [htail, hbytes, cons_append], ?_⟩
    rintro rfl
    exact not_mem_utf8_of_printable h (hbytes ▸ mem_cons_self)

theorem find_headerLines (behind : List UInt8) : ∀ {lines : List (List Char)}, lines ≠ [] →
    (∀ line ∈ lines, line ≠ [] ∧ ∀ c ∈ line, isControl c = false) →
    find (utf8 (String.ofList (['\r', '\n'].intercalate lines)) ++ (crlf ++ (crlf ++ behind))) (crlf ++ crlf) =
      some (utf8 (String.ofList (['\r', '\n'].intercalate lines))).length
  | [line], _, h => by
    have hskip := find_skip (not_mem_utf8_of_printable (h line mem_cons_self).2) (crlf ++ (crlf ++ behind))
      (0x0a :: crlf)
    have hfound : find (crlf ++ (crlf ++ behind)) (0x0d :: 0x0a :: crlf) = some 0 := find_eq_zero ⟨behind, rfl⟩
    rw [intercalate_singleton]
    show find _ (0x0d :: 0x0a :: crlf) = _
    rw [hskip, hfound, Option.map_some, Nat.zero_add]
  | line :: next :: rest, _, h => by
    have ih := find_headerLines behind (cons_ne_nil next rest) fun l hl => h l (mem_cons_of_mem _ hl)
    have hnext := h next (mem_cons_of_mem _ mem_cons_self)
    obtain ⟨b, bytes, hbytes, hb⟩ := utf8_intercalate_head hnext.1 hnext.2 rest
    have hskip := find_skip (not_mem_utf8_of_printable (h line mem_cons_self).2)
      (crlf ++ (b :: bytes ++ (crlf ++ (crlf ++ behind)))) (0x0a :: crlf)
    -- the line break between two lines is not followed by another
    have hbreak : find (crlf ++ (b :: bytes ++ (crlf ++ (crlf ++ behind)))) (0x0d :: 0x0a :: crlf) =
        some ((b :: bytes).length + 2) := by
      have hreturn : ¬ 0x0d :: 0x0a :: crlf <+: 0x0d :: 0x0a :: (b :: bytes ++ (crlf ++ (crlf ++ behind))) := by
        intro hfront
        have hrest := (cons_prefix_cons.1 (cons_prefix_cons.1 hfront).2).2
        exact hb (cons_prefix_cons.1 hrest).1.symm
      have hfeed : ¬ 0x0d :: 0x0a :: crlf <+: 0x0a :: (b :: bytes ++ (crlf ++ (crlf ++ behind))) := fun hfront =>
        absurd (cons_prefix_cons.1 hfront).1 (by decide)
      show find (0x0d :: 0x0a :: (b :: bytes ++ (crlf ++ (crlf ++ behind)))) _ = _
      rw [find_cons hreturn, find_cons hfeed, ← hbytes]
      show Option.map _ (Option.map _ (find _ (crlf ++ crlf))) = _
      rw [ih]
      rfl
    rw [utf8_intercalate_cons, hbytes, append_assoc, append_assoc]
    show find _ (0x0d :: 0x0a :: crlf) = _
    rw [hskip, hbreak, Option.map_some, length_append, length_append, Nat.add_comm]
    rw [Nat.add_comm (b :: bytes).length 2]
    rfl

/-! ## Delimiters -/

variable {parts : List MultipartPart} {body delimiter : List UInt8}

theorem parseDelimiterLine_encodeParts {position : ℕ}
    (h : body.drop position = delimiter ++ encodeParts delimiter parts) :
    parseDelimiterLine body position delimiter =
      some ⟨parts.isEmpty, position + delimiter.length + if parts.isEmpty then 4 else 2⟩ := by
  cases parts with
  | nil =>
    have hline : body.drop position = delimiter ++ (dashes true ++ ([] ++ crlf)) := h
    have hlength := congrArg List.length h
    simp only [encodeParts, crlf, length_drop, length_append, length_cons, length_nil] at hlength
    exact parseDelimiterLine_eq (by omega) hline (fun b hb => absurd hb not_mem_nil) (.inl (prefix_refl _))
  | cons part parts => exact parseDelimiterLine_crlf h

theorem prefix_of_afterCrlf {position : ℕ} (h : afterCrlf body position = true)
    (hfront : delimiter <+: body.drop position) : 2 ≤ position ∧ crlf ++ delimiter <+: body.drop (position - 2) := by
  obtain ⟨htwo, hbreak⟩ := afterCrlf_iff.1 h
  rw [hbreak, prefix_append_right_inj]
  exact ⟨htwo, hfront⟩

theorem findNextDelimiter_eq {offset position : ℕ} {parsed : Delimiter}
    (hle : offset ≤ position) (hne : delimiter ≠ []) (hfront : delimiter <+: body.drop position)
    (hline : afterCrlf body position = true) (hparsed : parseDelimiterLine body position delimiter = some parsed)
    (hfirst : ∀ q, offset ≤ q → q < position → delimiter <+: body.drop q → afterCrlf body q = false) :
    findNextDelimiter body offset delimiter = some (position, parsed) := by
  have hroom : position ≤ body.length - delimiter.length := by
    have hlength := hfront.length_le
    rw [length_drop] at hlength
    have hpos : 0 < delimiter.length := length_pos_iff.2 hne
    omega
  induction hn : position - offset using Nat.strong_induction_on generalizing offset with
  | h n ih =>
    obtain ⟨relative, hrelative, hfind⟩ : ∃ j ≤ position - offset, find (body.drop offset) delimiter = some j := by
      refine exists_find ?_
      rw [drop_drop, Nat.add_sub_cancel' hle]
      exact hfront
    have hfound := prefix_of_find hfind
    rw [drop_drop] at hfound
    rw [findNextDelimiter, dif_pos (by omega), hfind]
    dsimp only
    rcases Nat.lt_or_eq_of_le (show offset + relative ≤ position by omega) with hearlier | hhere
    · -- an occurrence in the middle of a line
      rw [hfirst _ (by omega) hearlier hfound, if_neg Bool.false_ne_true]
      exact ih _ (by omega) (by omega) (fun q hq => hfirst q (by omega)) rfl
    · rw [hhere, hline, if_pos rfl, hparsed]

theorem findNextDelimiter_encoded (start : List UInt8) {delimiter data : List UInt8} (parts : List MultipartPart)
    (hne : delimiter ≠ []) (hreturn : 0x0d ∉ delimiter) (hdata : ¬ crlf ++ delimiter <:+: crlf ++ data) :
    findNextDelimiter (start ++ ((crlf ++ data) ++ (crlf ++ (delimiter ++ encodeParts delimiter parts))))
      (start.length + 2) delimiter =
      some (start.length + 2 + data.length + 2, ⟨parts.isEmpty,
        start.length + 2 + data.length + 2 + delimiter.length + if parts.isEmpty then 4 else 2⟩) := by
  let body := start ++ ((crlf ++ data) ++ (crlf ++ (delimiter ++ encodeParts delimiter parts)))
  have hbreak : body.drop (start.length + (crlf ++ data).length) = crlf ++ (delimiter ++ encodeParts delimiter parts) := by
    rw [← drop_drop, drop_left, drop_left]
  have hlength : (crlf ++ data).length = data.length + 2 := by
    rw [length_append, Nat.add_comm]
    rfl
  have hdelimiter : body.drop (start.length + 2 + data.length + 2) = delimiter ++ encodeParts delimiter parts := by
    rw [show start.length + 2 + data.length + 2 = start.length + (crlf ++ data).length + 2 by omega, ← drop_drop,
      hbreak]
    rfl
  have hline : afterCrlf body (start.length + 2 + data.length + 2) = true := by
    rw [afterCrlf, Bool.and_eq_true, decide_eq_true_eq, beq_iff_eq]
    refine ⟨by omega, ?_⟩
    rw [show start.length + 2 + data.length + 2 - 2 = start.length + (crlf ++ data).length by omega, hbreak]
    rfl
  have hfront : delimiter <+: body.drop (start.length + 2 + data.length + 2) := by
    rw [hdelimiter]
    exact prefix_append _ _
  refine findNextDelimiter_eq (by omega) hne hfront hline
    (parseDelimiterLine_encodeParts hdelimiter) fun q hstart hend hfront => ?_
  -- an earlier one would be an occurrence of the line break and the delimiter that begins in the data
  rw [← Bool.not_eq_true]
  intro hq
  obtain ⟨htwo, hboth⟩ := prefix_of_afterCrlf hq hfront
  rw [show q - 2 = start.length + (q - 2 - start.length) by omega, ← drop_drop, drop_left] at hboth
  have hfirst : 0x0d ∉ 0x0a :: delimiter := by
    rw [mem_cons, not_or]
    exact ⟨by decide, hreturn⟩
  exact hdata (infix_of_overlap hfirst (by omega) hboth)

variable {limits : MultipartLimits}

theorem partSpan_block {delimiter before headers data : List UInt8}
    (hfind : ∀ behind, find (headers ++ (crlf ++ (crlf ++ behind))) (crlf ++ crlf) = some headers.length)
    (hne : delimiter ≠ []) (hreturn : 0x0d ∉ delimiter) (hdata : ¬ crlf ++ delimiter <:+: crlf ++ data)
    (hheaders : headers.length ≤ limits.maxHeaderBytes) (hbytes : data.length ≤ limits.maxPartBytes) :
    partSpan (before ++ (headers ++ (crlf ++ (crlf ++ data)) ++ (crlf ++ (delimiter ++ encodeParts delimiter parts))))
      delimiter limits before.length =
      .ok ⟨before.length + headers.length, before.length + headers.length + 4 + data.length,
        ⟨parts.isEmpty, before.length + headers.length + 4 + data.length + 2 + delimiter.length +
          if parts.isEmpty then 4 else 2⟩⟩ := by
  have hbody : before ++ (headers ++ (crlf ++ (crlf ++ data)) ++ (crlf ++ (delimiter ++ encodeParts delimiter parts))) =
      (before ++ (headers ++ crlf)) ++
        ((crlf ++ data) ++ (crlf ++ (delimiter ++ encodeParts delimiter parts))) := by
    simp only [append_assoc]
  have hstart : (before ++ (headers ++ crlf)).length + 2 = before.length + headers.length + 4 := by
    rw [length_append, length_append]
    show before.length + (headers.length + 2) + 2 = _
    omega
  have hnext := findNextDelimiter_encoded (before ++ (headers ++ crlf)) parts hne hreturn hdata
  rw [← hbody, hstart] at hnext
  have hempty : find (headers ++ (crlf ++ (crlf ++ data)) ++ (crlf ++ (delimiter ++ encodeParts delimiter parts)))
      (crlf ++ crlf) = some headers.length := by
    simp only [append_assoc]
    exact hfind _
  unfold partSpan
  rw [drop_left, hempty]
  dsimp only
  rw [if_neg (by omega), hnext]
  dsimp only
  rw [if_neg (by omega), if_neg (by omega)]
  rfl

/-- The delimiter after a part is the first one that is found. -/
theorem partSpan_encoded {delimiter before : List UInt8}
    (hpart : part.WellFormed) (hne : delimiter ≠ []) (hreturn : 0x0d ∉ delimiter)
    (hdata : ¬ crlf ++ delimiter <:+: crlf ++ part.data)
    (hheaders : (utf8 part.headerText).length ≤ limits.maxHeaderBytes) (hbytes : part.data.length ≤ limits.maxPartBytes) :
    partSpan (before ++ (part.encode ++ (crlf ++ (delimiter ++ encodeParts delimiter parts)))) delimiter limits
      before.length =
      .ok ⟨before.length + (utf8 part.headerText).length,
        before.length + (utf8 part.headerText).length + 4 + part.data.length,
        ⟨parts.isEmpty, before.length + (utf8 part.headerText).length + 4 + part.data.length + 2 + delimiter.length +
          if parts.isEmpty then 4 else 2⟩⟩ := by
  have hnonempty : ∀ line ∈ part.headerLines, line ≠ [] := by
    intro line hline
    rcases mem_cons.1 hline with rfl | hline
    · simp
    · obtain ⟨contentType, -, rfl⟩ := Option.map_eq_some_iff.1 (Option.mem_toList.1 hline)
      simp
  have hlines : part.headerLines ≠ [] := cons_ne_nil _ _
  exact partSpan_block (fun behind => find_headerLines behind hlines fun line hline =>
    ⟨hnonempty line hline, printable_headerLines hpart line hline⟩) hne hreturn hdata hheaders hbytes

/-! ## The parts -/

structure MultipartPart.Fits (delimiter : List UInt8) (limits : MultipartLimits) (part : MultipartPart) : Prop where
  wellFormed : part.WellFormed
  data : ¬ crlf ++ delimiter <:+: crlf ++ part.data
  headers : part.headerLines.length ≤ limits.maxHeadersPerPart
  headerBytes : (utf8 part.headerText).length ≤ limits.maxHeaderBytes
  partBytes : part.data.length ≤ limits.maxPartBytes

theorem parseParts_cons {delimiter before : List UInt8}
    {parts read : List MultipartPart} (hne : delimiter ≠ []) (hreturn : 0x0d ∉ delimiter)
    (hpart : part.Fits delimiter limits) (hcount : read.length < limits.maxParts) :
    let body := before ++ (part.encode ++ (crlf ++ (delimiter ++ encodeParts delimiter parts)))
    parseParts body delimiter limits before.length read =
      if parts.isEmpty then .ok (read ++ [part])
      else parseParts body delimiter limits
        (before ++ (part.encode ++ (crlf ++ (delimiter ++ crlf)))).length (read ++ [part]) := by
  intro body
  have hspan := @partSpan_encoded part parts limits delimiter before hpart.wellFormed hne hreturn hpart.data
    hpart.headerBytes hpart.partBytes
  have hheaders : (body.drop before.length).take (utf8 part.headerText).length = utf8 part.headerText := by
    simp only [body, MultipartPart.encode, drop_left, append_assoc, take_left]
  have hlength : (before ++ (utf8 part.headerText ++ (crlf ++ crlf))).length =
      before.length + (utf8 part.headerText).length + 4 := by
    simp only [length_append]
    show before.length + ((utf8 part.headerText).length + 4) = _
    omega
  have hdata : (body.drop (before.length + (utf8 part.headerText).length + 4)).take part.data.length = part.data := by
    have hbody : body = (before ++ (utf8 part.headerText ++ (crlf ++ crlf))) ++
        (part.data ++ (crlf ++ (delimiter ++ encodeParts delimiter parts))) := by
      simp only [body, MultipartPart.encode, append_assoc]
    rw [hbody, ← hlength, drop_left, take_left]
  have hholds : PartRange.Holds body delimiter limits ⟨_, before.length⟩ part := {
    span := hspan
    fields := by
      rw [PartRange.headers, Nat.add_sub_cancel_left, hheaders]
      exact parsePartHeaders_headerText hpart.wellFormed hpart.headers
    data_eq := by
      rw [PartRange.data, PartRange.dataStart, Nat.add_sub_cancel_left, hdata] }
  rw [hholds.parseParts_eq hcount]
  cases parts with
  | nil => rfl
  | cons next parts =>
    have hnext : (before ++ (part.encode ++ (crlf ++ (delimiter ++ crlf)))).length =
        before.length + (utf8 part.headerText).length + 4 + part.data.length + 2 + delimiter.length + 2 := by
      simp only [MultipartPart.encode, length_append]
      show before.length + ((utf8 part.headerText).length + (2 + (2 + part.data.length)) +
        (2 + (delimiter.length + 2))) = _
      omega
    rw [hnext]
    rfl

theorem parseParts_encoded {delimiter : List UInt8} (hne : delimiter ≠ [])
    (hreturn : 0x0d ∉ delimiter) (parts : List MultipartPart) : ∀ (part : MultipartPart) (before : List UInt8)
    (read : List MultipartPart), (∀ p ∈ part :: parts, p.Fits delimiter limits) →
    read.length + (part :: parts).length ≤ limits.maxParts →
    parseParts (before ++ (part.encode ++ (crlf ++ (delimiter ++ encodeParts delimiter parts)))) delimiter limits
      before.length read = .ok (read ++ part :: parts) := by
  induction parts with
  | nil =>
    intro part before read hparts hcount
    rw [parseParts_cons hne hreturn (hparts part mem_cons_self) (by simpa using hcount)]
    rfl
  | cons next parts ih =>
    intro part before read hparts hcount
    rw [length_cons] at hcount
    rw [parseParts_cons hne hreturn (hparts part mem_cons_self) (by omega)]
    have hbody : before ++ (part.encode ++ (crlf ++ (delimiter ++ encodeParts delimiter (next :: parts)))) =
        (before ++ (part.encode ++ (crlf ++ (delimiter ++ crlf)))) ++
          (next.encode ++ (crlf ++ (delimiter ++ encodeParts delimiter parts))) := by
      simp only [encodeParts, append_assoc]
    rw [hbody, isEmpty_cons, if_neg Bool.false_ne_true,
      ih next _ _ (fun p hp => hparts p (mem_cons_of_mem _ hp)) (by
        rw [length_append, length_singleton]
        omega), append_assoc, singleton_append]

theorem not_mem_of_isValidBoundary {boundary : String} (h : isValidBoundary boundary = true) : 0x0d ∉ utf8 boundary := by
  simp only [isValidBoundary, Bool.and_eq_true] at h
  intro hmem
  exact absurd (all_eq_true.1 h.1.2 _ hmem) (by decide)

theorem findInitialDelimiter_front {delimiter rest : List UInt8} {parsed : Delimiter}
    (h : parseDelimiterLine (delimiter ++ rest) 0 delimiter = some parsed) :
    findInitialDelimiter (delimiter ++ rest) delimiter = some parsed := by
  have hfind : find ((delimiter ++ rest).drop 0) delimiter = some 0 := find_eq_zero (prefix_append _ _)
  rw [findInitialDelimiter, findInitialFrom, dif_pos (Nat.zero_le _), hfind]
  dsimp only
  rw [Nat.zero_add, beq_self_eq_true, Bool.true_or, if_pos rfl, h]

theorem findInitialDelimiter_encoded (delimiter : List UInt8) (parts : List MultipartPart) :
    findInitialDelimiter (delimiter ++ encodeParts delimiter parts) delimiter =
      some ⟨parts.isEmpty, delimiter.length + if parts.isEmpty then 4 else 2⟩ := by
  have hline := parseDelimiterLine_encodeParts (delimiter ++ encodeParts delimiter parts).drop_zero
  rw [Nat.zero_add] at hline
  exact findInitialDelimiter_front hline

theorem not_mem_delimiter {boundary : String} (h : isValidBoundary boundary = true) : 0x0d ∉ utf8 ("--" ++ boundary) := by
  rw [utf8_append, mem_append, not_or]
  exact ⟨by decide, not_mem_of_isValidBoundary h⟩

theorem delimiter_ne_nil (boundary : String) : utf8 ("--" ++ boundary) ≠ [] := by
  rw [utf8_append]
  exact append_ne_nil_of_left_ne_nil (by decide) _

theorem parseMultipart_fits {boundary : String}
    (hboundary : isValidBoundary boundary = true)
    (hfits : ∀ p ∈ part :: parts, p.Fits (utf8 ("--" ++ boundary)) limits)
    (hcount : (part :: parts).length ≤ limits.maxParts) :
    parseMultipart (encodeMultipart boundary (part :: parts)) boundary limits = .ok (part :: parts) := by
  have hlength : (utf8 ("--" ++ boundary)).length + 2 = (utf8 ("--" ++ boundary) ++ crlf).length := by
    rw [length_append]
    rfl
  have hbody : encodeMultipart boundary (part :: parts) = (utf8 ("--" ++ boundary) ++ crlf) ++ (part.encode ++
      (crlf ++ (utf8 ("--" ++ boundary) ++ encodeParts (utf8 ("--" ++ boundary)) parts))) := by
    simp only [encodeMultipart, encodeParts, append_assoc]
  unfold parseMultipart
  dsimp only
  rw [show findInitialDelimiter (encodeMultipart boundary (part :: parts)) (utf8 ("--" ++ boundary)) = _ from
    findInitialDelimiter_encoded _ _]
  dsimp only
  rw [isEmpty_cons, if_neg Bool.false_ne_true, if_neg Bool.false_ne_true, hlength, hbody,
    parseParts_encoded (delimiter_ne_nil boundary) (not_mem_delimiter hboundary) parts part _ [] hfits
      (by simpa using hcount)]
  rfl

/-- The parser returns the parts from which a body was made. -/
theorem parseMultipart_encode {boundary : String} {parts : List MultipartPart} {limits : MultipartLimits}
    (hboundary : isValidBoundary boundary = true) (hne : parts ≠ []) (hparts : ∀ part ∈ parts, part.WellFormed)
    (hdata : ∀ part ∈ parts, ¬ crlf ++ utf8 ("--" ++ boundary) <:+: crlf ++ part.data) (hlimits : limits.Allow parts) :
    parseMultipart (encodeMultipart boundary parts) boundary limits = .ok parts := by
  have hfits : ∀ part ∈ parts, part.Fits (utf8 ("--" ++ boundary)) limits := fun part hpart =>
    ⟨hparts part hpart, hdata part hpart, hlimits.headers part hpart, hlimits.headerBytes part hpart,
      hlimits.partBytes part hpart⟩
  obtain ⟨part, parts, rfl⟩ := exists_cons_of_ne_nil hne
  exact parseMultipart_fits hboundary hfits hlimits.count

theorem parseMultipart_encode_upload :
    let parts : List MultipartPart := [⟨"file", some "a\"b.txt", some "text/plain", [0x0d, 0x0a, 0x2d, 0x2d, 0x78]⟩,
      ⟨"ñ", none, none, []⟩]
    parseMultipart (encodeMultipart "xyz" parts) "xyz" ⟨2, 2, 100, 5⟩ = .ok parts := by
  intro parts
  refine parseMultipart_encode (by decide) (by decide) ?_ (by decide +kernel)
    ⟨by decide, by decide +kernel, by decide +kernel, by decide +kernel⟩
  intro part hpart
  simp only [parts, mem_cons, not_mem_nil, or_false] at hpart
  rcases hpart with rfl | rfl
  · refine ⟨by decide, by decide +kernel, fun filename h => ?_, fun contentType h => ?_⟩
    · cases h
      decide +kernel
    · cases h
      decide +kernel
  · exact ⟨by decide, by decide +kernel, fun _ h => (nomatch h), fun _ h => (nomatch h)⟩

end RustRest
