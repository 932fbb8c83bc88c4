import RustRest.Http1.Head
import RustRest.Request.Views

/-!
# The length of a request body

The `Content-Length` fields of a request are read twice: by `inspect_head`, from the bytes of the head, and by
`validate_content_length`, from the fields of the request.

Main result: **`classifyHead_framing`**.
-/

namespace RustRest

open List

/-! ## The second reader -/

def invalidContentLength : HttpError := .new 400 "invalid_content_length" "El encabezado Content-Length no es valido"

def payloadTooLargeLimit (limit : ℕ) : HttpError :=
  .new 413 "payload_too_large" ("El cuerpo de la solicitud supera el limite de " ++ toString limit ++ " bytes")

def ambiguousMessageFraming : HttpError :=
  .new 400 "ambiguous_message_framing" "Transfer-Encoding y Content-Length no pueden combinarse"

def mergeContentLength (value : ℕ) : Option ℕ → Except HttpError (Option ℕ)
  | some previous => if previous ≠ value then .error invalidContentLength else .ok (some previous)
  | none => .ok (some value)

def readContentLength (contentLength : Option ℕ) (rawPart : List Char) : Except HttpError (Option ℕ) :=
  let value := trim rawPart
  if value.isEmpty || !value.all Char.isDigit then .error invalidContentLength
  else match parseU64 value with
    | none => .error invalidContentLength
    | some value => mergeContentLength value contentLength

def contentLengthOf (values : List String) : Except HttpError (Option ℕ) :=
  (values.flatMap fun value => value.toList.splitOn ',').foldlM readContentLength none

def checkContentLength (bodyLimit : ℕ) (bufferedLen : Option ℕ) : Option ℕ → Except HttpError Unit
  | none => .ok ()
  | some contentLength =>
    if contentLength > bodyLimit then .error (payloadTooLargeLimit bodyLimit)
    else if bufferedLen.any fun actual => contentLength != actual then .error invalidContentLength
    else .ok ()

namespace Request

def contentLengthValues (req : Request) : List String :=
  let values := req.headersAll "content-length"
  if values.isEmpty then (req.header "content-length").toList else values

/-- `validate_content_length`, with the limit of the request and the length of its body if that is buffered. -/
def validateContentLength (req : Request) (bodyLimit : ℕ) (bufferedLen : Option ℕ) : Except HttpError Unit :=
  if !req.contentLengthValues.isEmpty && (req.header "transfer-encoding").isSome then .error ambiguousMessageFraming
  else (contentLengthOf req.contentLengthValues).bind (checkContentLength bodyLimit bufferedLen)

end Request

/-! ## Fields -/

def fieldValues (headers : List (String × List UInt8)) (name : String) : List (List UInt8) :=
  (headers.filter fun header => eqIgnoreAsciiCase header.1 name).map Prod.snd

def RequestHead.values (head : RequestHead) (name : String) : List (List UInt8) := fieldValues head.headers name

/-- The method is `CONNECT`, in any case. -/
def RequestHead.IsConnect (head : RequestHead) : Prop :=
  ∃ method, head.method = some method ∧ eqIgnoreAsciiCase method "CONNECT" = true

structure RequestHead.CarriedBy (head : RequestHead) (req : Request) : Prop where
  agrees : req.Agrees
  contentLength : (req.headersAll "content-length").map utf8 = head.values "content-length"
  transferEncoding : (req.headersAll "transfer-encoding").map utf8 = head.values "transfer-encoding"

/-- A value that is a number in decimal digits. -/
def DenotesLength (value : List UInt8) (n : ℕ) : Prop := ∃ text : String, utf8 text = value ∧ IsNumber text.toList n

theorem fieldValues_concat (headers : List (String × List UInt8)) (header : String × List UInt8) (name : String) :
    fieldValues (headers ++ [header]) name =
      fieldValues headers name ++ if eqIgnoreAsciiCase header.1 name then [header.2] else [] := by
  unfold fieldValues
  rw [filter_append, map_append]
  cases hname : eqIgnoreAsciiCase header.1 name with
  | true | false => simp [hname]

variable {header : String × List UInt8}

theorem fieldValues_concat_of_ne {headers : List (String × List UInt8)} {name : String}
    (h : eqIgnoreAsciiCase header.1 name = false) : fieldValues (headers ++ [header]) name = fieldValues headers name := by
  rw [fieldValues_concat, h, if_neg Bool.false_ne_true, append_nil]

theorem fieldValues_concat_of_eq {headers : List (String × List UInt8)} {name : String}
    (h : eqIgnoreAsciiCase header.1 name = true) :
    fieldValues (headers ++ [header]) name = fieldValues headers name ++ [header.2] := by
  rw [fieldValues_concat, h, if_pos rfl]

theorem fieldValues_perm {headers headers' : List (String × List UInt8)} (h : headers.Perm headers') (name : String) :
    (fieldValues headers name).Perm (fieldValues headers' name) :=
  (h.filter _).map _

/-! ## Numbers -/

theorem digit_byte {c : Char} (h : c.isDigit = true) : String.utf8EncodeChar c = [UInt8.ofNat c.toNat] ∧
    48 ≤ UInt8.ofNat c.toNat ∧ UInt8.ofNat c.toNat ≤ 57 ∧
      (UInt8.ofNat c.toNat).toNat - 48 = c.toNat - '0'.toNat := by
  have hascii : c.toNat < 128 := toNat_lt_of_isAlphanum (by simp [Char.isAlphanum, h])
  refine ⟨(utf8EncodeChar_ascii hascii).1, ?_⟩
  exact forall_ascii (P := fun c => c.isDigit = true → 48 ≤ UInt8.ofNat c.toNat ∧ UInt8.ofNat c.toNat ≤ 57 ∧
    (UInt8.ofNat c.toNat).toNat - 48 = c.toNat - '0'.toNat) (by decide +kernel) hascii h

theorem byte_digit : ∀ byte : UInt8, 48 ≤ byte ∧ byte ≤ 57 →
    (Char.ofNat byte.toNat).isDigit = true ∧ String.utf8EncodeChar (Char.ofNat byte.toNat) = [byte] :=
  forall_byte (by decide +kernel)

theorem contentLengthDigit_digit {c : Char} (h : c.isDigit = true) (length : ℕ) :
    contentLengthDigit length (UInt8.ofNat c.toNat) = checkedU64 (10 * length + (c.toNat - '0'.toNat)) := by
  obtain ⟨-, hlow, hhigh, hvalue⟩ := digit_byte h
  rw [contentLengthDigit, if_pos ⟨hlow, hhigh⟩, hvalue, Nat.mul_comm]
  unfold checkedU64
  by_cases hmul : 10 * length ≤ u64Max
  · rw [if_pos hmul]
    rfl
  · rw [if_neg hmul, if_neg (by omega)]
    rfl

theorem foldlM_digits {digits : List Char} (h : digits.all Char.isDigit = true) {length : ℕ} (hlength : length ≤ u64Max) :
    (digits.flatMap String.utf8EncodeChar).foldlM contentLengthDigit length =
      checkedU64 (Nat.ofDigitChars 10 digits length) := by
  induction digits generalizing length with
  | nil => exact (if_pos hlength).symm
  | cons c digits ih =>
    rw [all_cons, Bool.and_eq_true] at h
    rw [flatMap_cons, (digit_byte h.1).1, singleton_append, foldlM_cons, contentLengthDigit_digit h.1,
      Nat.ofDigitChars_cons]
    by_cases hstep : 10 * length + (c.toNat - '0'.toNat) ≤ u64Max
    · rw [checkedU64, if_pos hstep]
      exact ih h.2 hstep
    · -- the number only grows with the digits behind
      have hgrow : 10 * length + (c.toNat - '0'.toNat) ≤
          Nat.ofDigitChars 10 digits (10 * length + (c.toNat - '0'.toNat)) := by
        rw [Nat.ofDigitChars_eq_ofDigitChars_zero]
        exact Nat.le_add_right_of_le (Nat.le_mul_of_pos_left _ (Nat.pow_pos (by decide)))
      rw [checkedU64, if_neg hstep, checkedU64, if_neg (by omega)]
      rfl

variable {value : List UInt8}

theorem digits_of_foldlM {length n : ℕ} (h : value.foldlM contentLengthDigit length = some n) :
    ∀ byte ∈ value, 48 ≤ byte ∧ byte ≤ 57 := by
  induction value generalizing length with
  | nil => simp
  | cons byte value ih =>
    rw [foldlM_cons] at h
    obtain ⟨next, hdigit, hrest⟩ := Option.bind_eq_some_iff.1 h
    intro b hb
    rcases mem_cons.1 hb with rfl | hb
    · by_contra hdigits
      rw [contentLengthDigit, if_neg hdigits] at hdigit
      cases hdigit
    · exact ih hrest b hb

theorem flatMap_digits (h : ∀ byte ∈ value, 48 ≤ byte ∧ byte ≤ 57) :
    (value.map fun byte => Char.ofNat byte.toNat).flatMap String.utf8EncodeChar = value := by
  rw [flatMap_map]
  calc value.flatMap (fun byte => String.utf8EncodeChar (Char.ofNat byte.toNat))
      = value.flatMap fun byte => [byte] := flatMap_congr fun byte hbyte => (byte_digit byte (h byte hbyte)).2
    _ = value := by simp

theorem parseContentLength_eq_some {n : ℕ} :
    parseContentLength value = some n ↔ DenotesLength value n ∧ n ≤ maxDecodableLength := by
  have hfold : ∀ {digits : List Char}, digits.all Char.isDigit = true →
      (digits.flatMap String.utf8EncodeChar).foldlM contentLengthDigit 0 = checkedU64 (Nat.ofDigitChars 10 digits 0) :=
    fun hall => foldlM_digits hall (Nat.zero_le _)
  constructor
  · intro h
    unfold parseContentLength at h
    obtain ⟨hne, h⟩ := Option.ite_none_left_eq_some.1 h
    obtain ⟨hvalue, hmax⟩ := Option.filter_eq_some_iff.1 h
    have hdigits := digits_of_foldlM hvalue
    have hall : (value.map fun byte => Char.ofNat byte.toNat).all Char.isDigit = true := by
      rw [all_map, all_eq_true]
      exact fun byte hbyte => (byte_digit byte (hdigits byte hbyte)).1
    have hnumber := hfold hall
    rw [flatMap_digits hdigits, hvalue] at hnumber
    refine ⟨⟨String.ofList (value.map fun byte => Char.ofNat byte.toNat), ?_, ?_, ?_, ?_⟩, of_decide_eq_true hmax⟩
    · rw [utf8_eq_flatMap, String.toList_ofList, flatMap_digits hdigits]
    · rw [String.toList_ofList]
      simpa using hne
    · rw [String.toList_ofList]
      exact hall
    · rw [String.toList_ofList]
      exact Option.some.inj (Option.ite_none_right_eq_some.1 hnumber.symm).2
  · rintro ⟨⟨text, rfl, hne, hall, rfl⟩, hmax⟩
    have hbytes : utf8 text ≠ [] := by
      intro hnil
      rw [utf8_injective (s := text) (t := "") hnil] at hne
      exact hne rfl
    have hfits : Nat.ofDigitChars 10 text.toList 0 ≤ u64Max := le_trans hmax (Nat.sub_le _ _)
    unfold parseContentLength
    rw [if_neg (by simpa using hbytes), utf8_eq_flatMap, hfold hall, checkedU64, if_pos hfits, Option.filter_some,
      if_pos (decide_eq_true hmax)]

/-! ## The first reader -/

theorem eqIgnoreAsciiCase_ne {name s t : String} (hs : eqIgnoreAsciiCase name s = true)
    (hne : toAsciiLowercase s ≠ toAsciiLowercase t) : eqIgnoreAsciiCase name t = false := by
  rw [Bool.eq_false_iff]
  intro ht
  exact hne ((eqIgnoreAsciiCase_iff.1 hs).symm.trans (eqIgnoreAsciiCase_iff.1 ht))

structure FieldsRead (f : FramingFields) (headers : List (String × List UInt8)) : Prop where
  transferEncoding : f.transferEncoding = true ↔ fieldValues headers "transfer-encoding" ≠ []
  contentLengthPresent : f.contentLengthPresent = true ↔ fieldValues headers "content-length" ≠ []
  upgrade : f.upgrade = true ↔ fieldValues headers "upgrade" ≠ []
  valid : f.invalidContentLength = false ↔
    ∃ n, ∀ value ∈ fieldValues headers "content-length", parseContentLength value = some n
  length : f.invalidContentLength = false → f.contentLength =
    (fieldValues headers "content-length").head?.bind parseContentLength

theorem fieldsRead_nil : FieldsRead {} [] where
  transferEncoding := by simp [fieldValues]
  contentLengthPresent := by simp [fieldValues]
  upgrade := by simp [fieldValues]
  valid := by simp [fieldValues]
  length _ := rfl

def FramingFields.readLength (f : FramingFields) (value : List UInt8) : FramingFields :=
  match parseContentLength value with
  | some value =>
    if f.contentLength.all (fun previous => previous == value) then
      { f with contentLengthPresent := true, contentLength := some value }
    else { f with contentLengthPresent := true, invalidContentLength := true }
  | none => { f with contentLengthPresent := true, invalidContentLength := true }

theorem read_of_contentLength (f : FramingFields)
    (h : eqIgnoreAsciiCase header.1 "content-length" = true) : f.read header = f.readLength header.2 := by
  unfold FramingFields.read
  rw [if_neg (by rw [eqIgnoreAsciiCase_ne h (by decide)]; exact Bool.false_ne_true), if_pos h]
  rfl

theorem read_of_not_contentLength (f : FramingFields)
    (h : eqIgnoreAsciiCase header.1 "content-length" = false) :
    f.read header = { f with
      transferEncoding := f.transferEncoding || eqIgnoreAsciiCase header.1 "transfer-encoding"
      upgrade := f.upgrade || eqIgnoreAsciiCase header.1 "upgrade" } := by
  unfold FramingFields.read
  cases hte : eqIgnoreAsciiCase header.1 "transfer-encoding" with
  | true => simp [eqIgnoreAsciiCase_ne (t := "upgrade") hte (by decide)]
  | false =>
    cases hup : eqIgnoreAsciiCase header.1 "upgrade" with
    | true | false => simp [h]

section Read

variable {f : FramingFields} {headers : List (String × List UInt8)} {header : String × List UInt8}

theorem common_concat {values : List (List UInt8)} {value : List UInt8} :
    (∃ n, ∀ v ∈ values ++ [value], parseContentLength v = some n) ↔
      (∃ n, ∀ v ∈ values, parseContentLength v = some n) ∧ ∃ m, parseContentLength value = some m ∧
        (values.head?.bind parseContentLength).all (fun previous => previous == m) = true := by
  constructor
  · rintro ⟨n, hn⟩
    refine ⟨⟨n, fun v hv => hn v (mem_append_left _ hv)⟩, n, hn value (by simp), ?_⟩
    cases values with
    | nil => rfl
    | cons v values => simp [hn v (by simp)]
  · rintro ⟨⟨n, hn⟩, m, hm, hprevious⟩
    refine ⟨m, fun v hv => ?_⟩
    rcases mem_append.1 hv with hv | hv
    · obtain ⟨first, values, rfl⟩ := exists_cons_of_ne_nil (ne_nil_of_mem hv)
      have hfirst : n = m := by simpa [hn first mem_cons_self] using hprevious
      rw [hn v hv, hfirst]
    · rw [mem_singleton.1 hv, hm]

theorem flag_concat {flag : Bool} {name : String} (h : flag = true ↔ fieldValues headers name ≠ []) :
    (flag || eqIgnoreAsciiCase header.1 name) = true ↔ fieldValues (headers ++ [header]) name ≠ [] := by
  cases hname : eqIgnoreAsciiCase header.1 name with
  | true => simp [fieldValues_concat_of_eq hname]
  | false => rw [fieldValues_concat_of_ne hname, Bool.or_false, h]

theorem readLength_invalid (value : List UInt8) : (f.readLength value).invalidContentLength = false ↔
    f.invalidContentLength = false ∧ ∃ m, parseContentLength value = some m ∧
      f.contentLength.all (fun previous => previous == m) = true := by
  unfold FramingFields.readLength
  split
  · next m hm =>
    split
    · next hall => simp [hm, hall]
    · next hall => simp [hm, hall]
  · next hnone => simp [hnone]

theorem readLength_fields (value : List UInt8) : (f.readLength value).transferEncoding = f.transferEncoding ∧
    (f.readLength value).upgrade = f.upgrade ∧ (f.readLength value).contentLengthPresent = true ∧
    ((f.readLength value).invalidContentLength = false →
      (f.readLength value).contentLength = parseContentLength value) := by
  unfold FramingFields.readLength
  split
  · next m hm =>
    split
    · exact ⟨rfl, rfl, rfl, fun _ => hm.symm⟩
    · exact ⟨rfl, rfl, rfl, fun hvalid => absurd hvalid Bool.true_eq_false.mp⟩
  · exact ⟨rfl, rfl, rfl, fun hvalid => absurd hvalid Bool.true_eq_false.mp⟩

theorem FieldsRead.readLength (h : FieldsRead f headers)
    (hcl : eqIgnoreAsciiCase header.1 "content-length" = true) :
    FieldsRead (f.readLength header.2) (headers ++ [header]) := by
  obtain ⟨hte, hup, hpresent, hlength⟩ := readLength_fields (f := f) header.2
  constructor
  · rw [hte, fieldValues_concat_of_ne (eqIgnoreAsciiCase_ne hcl (by decide))]
    exact h.transferEncoding
  · rw [hpresent, fieldValues_concat_of_eq hcl]
    simp
  · rw [hup, fieldValues_concat_of_ne (eqIgnoreAsciiCase_ne hcl (by decide))]
    exact h.upgrade
  · rw [readLength_invalid, fieldValues_concat_of_eq hcl, common_concat, ← h.valid]
    refine and_congr_right fun hvalid => ?_
    rw [h.length hvalid]
  · intro hvalid
    obtain ⟨hbefore, m, hm, hall⟩ := (readLength_invalid _).1 hvalid
    have hprevious := h.length hbefore
    rw [hlength hvalid, fieldValues_concat_of_eq hcl]
    cases hvalues : fieldValues headers "content-length" with
    | nil => rfl
    | cons first values =>
      -- the first value has the number of all the others
      obtain ⟨n, hn⟩ := h.valid.1 hbefore
      have hfirst : parseContentLength first = some n := hn first (hvalues ▸ mem_cons_self)
      rw [hvalues, List.head?_cons, Option.bind_some, hfirst] at hprevious
      have heq : n = m := by simpa [hprevious] using hall
      rw [hm, cons_append, List.head?_cons, Option.bind_some, hfirst, heq]

/-- One more field. -/
theorem FieldsRead.read (h : FieldsRead f headers) (header : String × List UInt8) :
    FieldsRead (f.read header) (headers ++ [header]) := by
  cases hcl : eqIgnoreAsciiCase header.1 "content-length" with
  | true =>
    rw [read_of_contentLength f hcl]
    exact h.readLength hcl
  | false =>
    rw [read_of_not_contentLength f hcl]
    refine ⟨flag_concat h.transferEncoding, ?_, flag_concat h.upgrade, ?_, ?_⟩
    · rw [fieldValues_concat_of_ne hcl]
      exact h.contentLengthPresent
    · rw [fieldValues_concat_of_ne hcl]
      exact h.valid
    · rw [fieldValues_concat_of_ne hcl]
      exact h.length

end Read

theorem fieldsRead_foldl (headers : List (String × List UInt8)) :
    FieldsRead (headers.foldl FramingFields.read {}) headers := by
  induction headers using List.reverseRecOn with
  | nil => exact fieldsRead_nil
  | append_singleton headers header ih =>
    rw [foldl_concat]
    exact ih.read header

/-! ## Verdicts -/

section Verdicts

variable (head : RequestHead)

theorem isConnect_iff : head.method.any (fun method => eqIgnoreAsciiCase method "CONNECT") = true ↔ head.IsConnect := by
  cases hmethod : head.method with
  | none | some method => simp [RequestHead.IsConnect, hmethod]

theorem classifyHead_cases : (classifyHead head).1 = .ambiguous ∨ (classifyHead head).1 = .terminal ∨
    (classifyHead head).1 = .persistent := by
  unfold classifyHead
  dsimp only
  split
  · exact .inl rfl
  · split
    · exact .inr (.inl rfl)
    · exact .inr (.inr rfl)

theorem classifyHead_ambiguous : (classifyHead head).1 = .ambiguous ↔
    head.values "transfer-encoding" ≠ [] ∧ head.values "content-length" ≠ [] := by
  have hread := fieldsRead_foldl head.headers
  unfold RequestHead.values
  rw [← hread.transferEncoding, ← hread.contentLengthPresent, ← Bool.and_eq_true]
  unfold classifyHead
  dsimp only
  split
  · next h => simp [h]
  · next h =>
    split <;> simp [h]

theorem classifyHead_persistent : (classifyHead head).1 = .persistent ↔
    head.values "transfer-encoding" = [] ∧ head.values "upgrade" = [] ∧ ¬ head.IsConnect ∧
      ∃ n, ∀ value ∈ head.values "content-length", parseContentLength value = some n := by
  have hread := fieldsRead_foldl head.headers
  have hnil : ∀ {flag : Bool} {name : String}, (flag = true ↔ fieldValues head.headers name ≠ []) →
      (fieldValues head.headers name = [] ↔ flag = false) := by
    intro flag name h
    rw [← Bool.not_eq_true, h, not_not]
  unfold RequestHead.values
  rw [hnil hread.transferEncoding, hnil hread.upgrade, ← hread.valid, ← isConnect_iff, Bool.not_eq_true]
  unfold classifyHead
  dsimp only
  split
  · next h =>
    rw [Bool.and_eq_true] at h
    simp [h.1]
  · split
    · next h =>
      simp only [Bool.or_eq_true] at h
      simp only [reduceCtorEq, false_iff, not_and]
      intro hte hup hconnect
      simpa [hte, hup, hconnect] using h
    · next h =>
      simp only [Bool.or_eq_true, not_or, Bool.not_eq_true] at h
      simp [h]

theorem classifyHead_length (h : (classifyHead head).1 = .persistent) :
    (classifyHead head).2 = ((head.values "content-length").head?.bind parseContentLength).getD 0 := by
  have hread := fieldsRead_foldl head.headers
  have hvalid := hread.valid.2 ((classifyHead_persistent head).1 h).2.2.2
  exact congrArg (Option.getD · 0) (hread.length hvalid)

theorem classifyHead_length_spec (h : (classifyHead head).1 = .persistent) :
    (head.values "content-length" = [] → (classifyHead head).2 = 0) ∧
      ∀ value ∈ head.values "content-length", parseContentLength value = some (classifyHead head).2 := by
  obtain ⟨-, -, -, n, hn⟩ := (classifyHead_persistent head).1 h
  rw [classifyHead_length head h]
  constructor
  · intro hnil
    rw [hnil]
    rfl
  · intro value hvalue
    obtain ⟨first, values, hvalues⟩ := exists_cons_of_ne_nil (ne_nil_of_mem hvalue)
    rw [hvalues, List.head?_cons, Option.bind_some, hn first (hvalues ▸ mem_cons_self), hn value hvalue]
    rfl

theorem common_denotes {values : List (List UInt8)} :
    (∃ n, ∀ value ∈ values, parseContentLength value = some n) ↔
      ∃ n ≤ u64Max - 2, ∀ value ∈ values, DenotesLength value n := by
  constructor
  · rintro ⟨n, hn⟩
    cases values with
    | nil => exact ⟨0, Nat.zero_le _, fun value hvalue => absurd hvalue not_mem_nil⟩
    | cons first values =>
      exact ⟨n, (parseContentLength_eq_some.1 (hn first mem_cons_self)).2,
        fun value hvalue => (parseContentLength_eq_some.1 (hn value hvalue)).1⟩
  · rintro ⟨n, hmax, hn⟩
    exact ⟨n, fun value hvalue => parseContentLength_eq_some.2 ⟨hn value hvalue, hmax⟩⟩

theorem classifyHead_congr {head head' : RequestHead}
    (hambiguous : (classifyHead head').1 = .ambiguous ↔ (classifyHead head).1 = .ambiguous)
    (hpersistent : (classifyHead head').1 = .persistent ↔ (classifyHead head).1 = .persistent) :
    (classifyHead head').1 = (classifyHead head).1 := by
  rcases classifyHead_cases head with h | h | h
  · rw [h]
    exact hambiguous.2 h
  · rcases classifyHead_cases head' with h' | h' | h'
    · rw [hambiguous.1 h', h']
    · rw [h, h']
    · rw [hpersistent.1 h', h']
  · rw [h]
    exact hpersistent.2 h

theorem classifyHead_perm {headers : List (String × List UInt8)} (h : headers.Perm head.headers) :
    (classifyHead { head with headers }).1 = (classifyHead head).1 ∧
      ((classifyHead head).1 = .persistent → (classifyHead { head with headers }).2 = (classifyHead head).2) := by
  have hperm : ∀ name, (RequestHead.values { head with headers } name).Perm (head.values name) := fieldValues_perm h
  have hnil : ∀ name, RequestHead.values { head with headers } name = [] ↔ head.values name = [] :=
    fun name => ⟨fun hnil => (hnil ▸ hperm name).symm.eq_nil, fun hnil => (hnil ▸ hperm name).eq_nil⟩
  have hpersistent : (classifyHead { head with headers }).1 = .persistent ↔ (classifyHead head).1 = .persistent := by
    rw [classifyHead_persistent, classifyHead_persistent, hnil, hnil]
    simp only [(hperm "content-length").mem_iff]
    exact Iff.rfl
  refine ⟨classifyHead_congr ?_ hpersistent, fun hhead => ?_⟩
  · rw [classifyHead_ambiguous, classifyHead_ambiguous, Ne, Ne, Ne, Ne, hnil, hnil]
  · obtain ⟨hempty, hlength⟩ := classifyHead_length_spec head hhead
    obtain ⟨hempty', hlength'⟩ := classifyHead_length_spec { head with headers } (hpersistent.2 hhead)
    by_cases hvalues : head.values "content-length" = []
    · rw [hempty hvalues, hempty' ((hnil _).2 hvalues)]
    · obtain ⟨value, hvalue⟩ := exists_mem_of_ne_nil _ hvalues
      have hsome := hlength' value ((hperm _).mem_iff.2 hvalue)
      rw [hlength value hvalue] at hsome
      exact (Option.some.inj hsome).symm

end Verdicts

/-! ## Both readers -/

theorem readContentLength_number {text : List Char} {n : ℕ} (h : IsNumber text n) (hn : n < 2 ^ 64)
    (contentLength : Option ℕ) : readContentLength contentLength text = mergeContentLength n contentLength := by
  have hdigits : ∀ c ∈ text, c.isDigit = true := all_eq_true.1 h.2.1
  unfold readContentLength
  rw [trim_of_digits hdigits, if_neg (by simpa [h.1] using h.2.1), parseU64_of_isNumber h, if_pos hn]

theorem foldlM_numbers {texts : List (List Char)} {n : ℕ} (h : ∀ text ∈ texts, IsNumber text n) (hn : n < 2 ^ 64) :
    texts.foldlM readContentLength (some n) = .ok (some n) := by
  induction texts with
  | nil => rfl
  | cons text texts ih =>
    have hsame : mergeContentLength n (some n) = .ok (some n) := if_neg (not_not.2 rfl)
    rw [foldlM_cons, readContentLength_number (h text mem_cons_self) hn, hsame]
    exact ih fun text htext => h text (mem_cons_of_mem _ htext)

/-- Fields that are one number are read as that number. -/
theorem contentLengthOf_numbers {values : List String} {n : ℕ} (h : ∀ value ∈ values, IsNumber value.toList n)
    (hn : n < 2 ^ 64) : contentLengthOf values = .ok (if values = [] then none else some n) := by
  have hsplit : ∀ value ∈ values, value.toList.splitOn ',' = [value.toList] := by
    intro value hvalue
    refine splitOn_eq_singleton fun hcomma => ?_
    exact absurd (all_eq_true.1 (h value hvalue).2.1 ',' hcomma) (by decide)
  have hparts : (values.flatMap fun value => value.toList.splitOn ',') = values.map String.toList := by
    rw [flatMap_congr hsplit, ← map_eq_flatMap]
  have htexts : ∀ text ∈ values.map String.toList, IsNumber text n := by
    simpa using h
  unfold contentLengthOf
  rw [hparts]
  cases values with
  | nil => rfl
  | cons value values =>
    rw [map_cons, foldlM_cons, readContentLength_number (h value mem_cons_self) hn, if_neg (by simp)]
    exact foldlM_numbers (fun text htext => htexts text (mem_cons_of_mem _ htext)) hn

section Carried

variable {head : RequestHead} {req : Request}

theorem RequestHead.CarriedBy.contentLengthValues_eq (h : head.CarriedBy req) :
    req.contentLengthValues = req.headersAll "content-length" := by
  unfold Request.contentLengthValues
  dsimp only
  split
  · next hempty =>
    rw [h.agrees.header_eq, isEmpty_iff.1 hempty]
    rfl
  · rfl

theorem RequestHead.CarriedBy.contentLengthOf_eq (h : head.CarriedBy req) (hhead : (classifyHead head).1 = .persistent) :
    contentLengthOf req.contentLengthValues =
      .ok (if head.values "content-length" = [] then none else some (classifyHead head).2) := by
  have hlength := (classifyHead_length_spec head hhead).2
  have hnumber : ∀ value ∈ req.headersAll "content-length",
      IsNumber value.toList (classifyHead head).2 ∧ (classifyHead head).2 ≤ maxDecodableLength := by
    intro value hvalue
    have hmem : utf8 value ∈ head.values "content-length" := h.contentLength ▸ mem_map_of_mem hvalue
    obtain ⟨⟨text, htext, hnumber⟩, hmax⟩ := parseContentLength_eq_some.1 (hlength _ hmem)
    rw [← utf8_injective htext]
    exact ⟨hnumber, hmax⟩
  have hnil : req.headersAll "content-length" = [] ↔ head.values "content-length" = [] := by
    rw [← h.contentLength, map_eq_nil_iff]
  rw [h.contentLengthValues_eq]
  simp only [← hnil]
  cases hvalues : req.headersAll "content-length" with
  | nil => rfl
  | cons value values =>
    have hmax := (hnumber value (hvalues ▸ mem_cons_self)).2
    rw [← hvalues]
    refine contentLengthOf_numbers (fun value hvalue => (hnumber value hvalue).1) (lt_of_le_of_lt hmax ?_)
    decide

theorem RequestHead.CarriedBy.validateContentLength_eq (h : head.CarriedBy req)
    (hhead : (classifyHead head).1 = .persistent) (bodyLimit : ℕ) (bufferedLen : Option ℕ) :
    req.validateContentLength bodyLimit bufferedLen = checkContentLength bodyLimit bufferedLen
      (if head.values "content-length" = [] then none else some (classifyHead head).2) := by
  have hte : req.header "transfer-encoding" = none := by
    have hnil := ((classifyHead_persistent head).1 hhead).1
    rw [← h.transferEncoding, map_eq_nil_iff] at hnil
    rw [h.agrees.header_eq, hnil]
    rfl
  unfold Request.validateContentLength
  rw [hte, Option.isSome_none, Bool.and_false, if_neg Bool.false_ne_true, h.contentLengthOf_eq hhead]
  rfl

end Carried

/-- **The verdict on a head does not depend on the order of its fields: it is `Ambiguous` if both framing fields occur,
and `Persistent` if the length is given by one number alone. Then both readers find that number.** -/
theorem classifyHead_framing (head : RequestHead) :
    (∀ headers, headers.Perm head.headers →
      (classifyHead { head with headers }).1 = (classifyHead head).1 ∧
      ((classifyHead head).1 = .persistent → (classifyHead { head with headers }).2 = (classifyHead head).2)) ∧
    ((classifyHead head).1 = .ambiguous ↔
      head.values "transfer-encoding" ≠ [] ∧ head.values "content-length" ≠ []) ∧
    ((classifyHead head).1 = .persistent ↔
      head.values "transfer-encoding" = [] ∧ head.values "upgrade" = [] ∧ ¬ head.IsConnect ∧
        ∃ n ≤ u64Max - 2, ∀ value ∈ head.values "content-length", DenotesLength value n) ∧
    ((classifyHead head).1 = .persistent →
      (head.values "content-length" = [] → (classifyHead head).2 = 0) ∧
      (∀ value ∈ head.values "content-length", DenotesLength value (classifyHead head).2) ∧
      ∀ req, head.CarriedBy req →
        contentLengthOf req.contentLengthValues =
          .ok (if head.values "content-length" = [] then none else some (classifyHead head).2) ∧
        ∀ bodyLimit bufferedLen, req.validateContentLength bodyLimit bufferedLen =
          checkContentLength bodyLimit bufferedLen
            (if head.values "content-length" = [] then none else some (classifyHead head).2)) := by
  refine ⟨fun headers h => classifyHead_perm head h, classifyHead_ambiguous head, ?_, fun hhead => ?_⟩
  · rw [classifyHead_persistent, common_denotes]
  · obtain ⟨hempty, hlength⟩ := classifyHead_length_spec head hhead
    refine ⟨hempty, fun value hvalue => (parseContentLength_eq_some.1 (hlength value hvalue)).1, fun req hreq => ?_⟩
    exact ⟨hreq.contentLengthOf_eq hhead, hreq.validateContentLength_eq hhead⟩

/-- A head with a length that is given twice, and the request with these fields. -/
theorem classifyHead_framing_twice :
    let head : RequestHead :=
      ⟨some "POST", [("Content-Length", utf8 "5"), ("Host", utf8 "a"), ("content-length", utf8 "05")]⟩
    let req := (((RequestBuilder.new.header "Content-Length" "5").header "Host" "a").header "content-length" "05").build
    head.CarriedBy req ∧ (classifyHead head).1 = .persistent ∧ contentLengthOf req.contentLengthValues = .ok (some 5) := by
  intro head req
  have hreq : head.CarriedBy req := ⟨agrees_build _, by decide +kernel, by decide +kernel⟩
  have hhead : (classifyHead head).1 = .persistent := by decide +kernel
  have hlength : (if head.values "content-length" = [] then none else some (classifyHead head).2) = some 5 := by
    decide +kernel
  refine ⟨hreq, hhead, ?_⟩
  rw [← hlength]
  exact (((classifyHead_framing head).2.2.2 hhead).2.2 req hreq).1

end RustRest
