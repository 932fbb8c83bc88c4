import RustRest.Response.Head
import RustRest.Router.Segments

/-!
# Redirects

`encode_location` of `response.rs` writes what may not stand in a URI reference as `%XX`, and keeps what is already an
escape. `Response::redirect_with_status` puts the result into the `Location` field.

Main result: **`encodeLocation_spec`**.
-/

namespace RustRest

open List

/-! ## The model -/

def isLocationByte (byte : UInt8) : Bool :=
  isAsciiAlphanumeric byte || (utf8 "-._~:/?#[]@!$&'()*+,;=").contains byte

/-- A `%` and two hexadecimal digits are next. -/
def startsEscape : List UInt8 → Bool
  | byte :: high :: low :: _ => byte == 0x25 && isAsciiHexdigit high && isAsciiHexdigit low
  | _ => false

def writtenByte (allowed : Bool) (byte : UInt8) : List Char :=
  if allowed then [Char.ofNat byte.toNat] else ['%', hexDigit (byte.toNat / 16), hexDigit (byte.toNat % 16)]

def encodeLocationBytes : List UInt8 → List Char
  | [] => []
  | byte :: rest => writtenByte (isLocationByte byte || startsEscape (byte :: rest)) byte ++ encodeLocationBytes rest

/-- `encode_location`: what no URI has is escaped, escapes stay. -/
def encodeLocation (location : String) : String := String.ofList (encodeLocationBytes (utf8 location))

/-! ## Part by part -/

theorem startsEscape_append {bytes more : List UInt8} (hne : bytes ≠ [])
    (hmore : ∀ b ∈ more.head?, isAsciiHexdigit b = false) : startsEscape (bytes ++ more) = startsEscape bytes := by
  match bytes, more with
  | [a], [] => rfl
  | [a], [b] => rfl
  | [a], b :: c :: more => simp [startsEscape, hmore b rfl]
  | [a, b], [] => rfl
  | [a, b], c :: more => simp [startsEscape, hmore c rfl]
  | a :: b :: c :: bytes, more => rfl

theorem encodeLocationBytes_append {more : List UInt8} (hmore : ∀ b ∈ more.head?, isAsciiHexdigit b = false)
    (bytes : List UInt8) :
    encodeLocationBytes (bytes ++ more) = encodeLocationBytes bytes ++ encodeLocationBytes more := by
  induction bytes with
  | nil => rfl
  | cons byte bytes ih =>
    have hescape := startsEscape_append (cons_ne_nil byte bytes) hmore
    rw [cons_append] at hescape ⊢
    rw [encodeLocationBytes, encodeLocationBytes, hescape, ih, append_assoc]

theorem encodeLocation_append {t : String} (ht : ∀ b ∈ (utf8 t).head?, isAsciiHexdigit b = false) (s : String) :
    encodeLocation (s ++ t) = encodeLocation s ++ encodeLocation t := by
  rw [encodeLocation, utf8_append, encodeLocationBytes_append ht, String.ofList_append]
  rfl

variable {c : Char} {byte : UInt8}

theorem encodeLocation_kept (hbytes : utf8 c.toString = [byte])
    (hkept : isLocationByte byte = true) (hbyte : Char.ofNat byte.toNat = c) (s : String) :
    encodeLocation (c.toString ++ s) = c.toString ++ encodeLocation s := by
  rw [encodeLocation, utf8_append, hbytes, singleton_append, encodeLocationBytes, hkept, Bool.true_or, writtenByte,
    if_pos rfl, hbyte, String.ofList_append]
  rfl

theorem encodeLocation_append_kept (hbytes : utf8 c.toString = [byte])
    (hdigit : isAsciiHexdigit byte = false) (hkept : isLocationByte byte = true) (hbyte : Char.ofNat byte.toNat = c)
    (s t : String) : encodeLocation (s ++ (c.toString ++ t)) = encodeLocation s ++ (c.toString ++ encodeLocation t) := by
  have hhead : ∀ b ∈ (utf8 (c.toString ++ t)).head?, isAsciiHexdigit b = false := by
    rw [utf8_append, hbytes, singleton_append, List.head?_cons]
    intro b hb
    rw [← Option.some.inj hb, hdigit]
  rw [encodeLocation_append hhead, encodeLocation_kept hbytes hkept hbyte]

theorem encodeLocation_slash (s : String) : encodeLocation ("/" ++ s) = "/" ++ encodeLocation s :=
  encodeLocation_kept (c := '/') rfl (by decide) rfl s

theorem encodeLocation_append_slash (s t : String) :
    encodeLocation (s ++ ("/" ++ t)) = encodeLocation s ++ ("/" ++ encodeLocation t) :=
  encodeLocation_append_kept (c := '/') rfl (by decide) (by decide) rfl s t

theorem encodeLocation_append_mark (s t : String) :
    encodeLocation (s ++ ("?" ++ t)) = encodeLocation s ++ ("?" ++ encodeLocation t) :=
  encodeLocation_append_kept (c := '?') rfl (by decide) (by decide) rfl s t

theorem encodeLocation_intercalate (parts : List String) :
    encodeLocation ("/".intercalate parts) = "/".intercalate (parts.map encodeLocation) := by
  induction parts with
  | nil => rfl
  | cons part parts ih =>
    cases parts with
    | nil => simp
    | cons next parts =>
      rw [String.intercalate_cons_cons, String.append_assoc, encodeLocation_append_slash, ih, ← String.append_assoc,
        map_cons, map_cons, map_cons, String.intercalate_cons_cons]

/-! ## Characters -/

variable {rest : List UInt8}

theorem kept_cases
    (h : (isLocationByte byte || startsEscape (byte :: rest)) = true) : isLocationByte byte = true ∨ byte = 0x25 := by
  rcases Bool.or_eq_true_iff.1 h with h | h
  · exact .inl h
  · match rest, h with
    | high :: low :: rest, h =>
      simp only [startsEscape, Bool.and_eq_true, beq_iff_eq] at h
      exact .inr h.1.1

def WrittenChar (byte : UInt8) (c : Char) : Prop :=
  isVisibleChar c = true ∧ c ≠ '\\' ∧ (c = '/' ∨ c = '?' ∨ c = '#' → byte.toNat < 0x80 ∧ Char.ofNat byte.toNat = c)

instance (byte : UInt8) (c : Char) : Decidable (WrittenChar byte c) := inferInstanceAs (Decidable (_ ∧ _ ∧ (_ → _)))

theorem writtenChar_of_notMem (hvisible : isVisibleChar c = true) (hsign : c ∉ ['\\', '/', '?', '#'])
    (byte : UInt8) : WrittenChar byte c := by
  refine ⟨hvisible, ?_, ?_⟩
  · rintro rfl
    exact hsign (by decide)
  · rintro (rfl | rfl | rfl) <;> exact absurd (by decide) hsign

theorem writtenChar_escaped (hc : c ∈ writtenByte false byte) : WrittenChar byte c := by
  have hdigit : ∀ n < 16, isVisibleChar (hexDigit n) = true ∧ hexDigit n ∉ ['\\', '/', '?', '#'] := by decide
  have hbyte := byte.toNat_lt
  rcases mem_cons.1 hc with rfl | hc
  · exact writtenChar_of_notMem (by decide) (by decide) byte
  rcases mem_cons.1 hc with rfl | hc
  · obtain ⟨hvisible, hsign⟩ := hdigit (byte.toNat / 16) (by omega)
    exact writtenChar_of_notMem hvisible hsign byte
  · rw [mem_singleton.1 hc]
    obtain ⟨hvisible, hsign⟩ := hdigit (byte.toNat % 16) (by omega)
    exact writtenChar_of_notMem hvisible hsign byte

theorem writtenChar_kept : ∀ byte : UInt8, isLocationByte byte = true ∨ byte = 0x25 →
    WrittenChar byte (Char.ofNat byte.toNat) :=
  forall_byte (by decide +kernel)

theorem writtenChar_of_mem {allowed : Bool} (h : allowed = true → isLocationByte byte = true ∨ byte = 0x25)
    (hc : c ∈ writtenByte allowed byte) : WrittenChar byte c := by
  cases allowed with
  | true =>
    rw [mem_singleton.1 hc]
    exact writtenChar_kept byte (h rfl)
  | false => exact writtenChar_escaped hc

theorem writtenByte_ne_nil (allowed : Bool) (byte : UInt8) : writtenByte allowed byte ≠ [] := by
  cases allowed with
  | true | false => exact cons_ne_nil _ _

theorem mem_encodeLocationBytes {bytes : List UInt8} (h : c ∈ encodeLocationBytes bytes) :
    isVisibleChar c = true ∧ c ≠ '\\' ∧
      (c = '/' ∨ c = '?' ∨ c = '#' → ∃ b ∈ bytes, b.toNat < 0x80 ∧ Char.ofNat b.toNat = c) := by
  induction bytes with
  | nil => cases h
  | cons byte bytes ih =>
    rcases mem_append.1 h with h | h
    · obtain ⟨hvisible, hbackslash, hmark⟩ := writtenChar_of_mem kept_cases h
      exact ⟨hvisible, hbackslash, fun hc => ⟨byte, mem_cons_self, hmark hc⟩⟩
    · obtain ⟨hvisible, hbackslash, hmark⟩ := ih h
      refine ⟨hvisible, hbackslash, fun hc => ?_⟩
      obtain ⟨b, hb, hchar⟩ := hmark hc
      exact ⟨b, mem_cons_of_mem _ hb, hchar⟩

variable {s : String}

theorem mem_encodeLocation (h : c ∈ (encodeLocation s).toList) :
    isVisibleChar c = true ∧ c ≠ '\\' ∧ (c = '/' ∨ c = '?' ∨ c = '#' → c ∈ s.toList) := by
  rw [encodeLocation, String.toList_ofList] at h
  obtain ⟨hvisible, hbackslash, hmark⟩ := mem_encodeLocationBytes h
  refine ⟨hvisible, hbackslash, fun hc => ?_⟩
  obtain ⟨b, hb, hsmall, rfl⟩ := hmark hc
  exact mem_of_mem_utf8 hb hsmall

theorem encodeLocationBytes_ne_nil {bytes : List UInt8} (h : bytes ≠ []) : encodeLocationBytes bytes ≠ [] := by
  obtain ⟨byte, rest, rfl⟩ := exists_cons_of_ne_nil h
  exact fun hnil => writtenByte_ne_nil _ byte (append_eq_nil_iff.1 hnil).1

theorem encodeLocation_ne (h : s ≠ "") : encodeLocation s ≠ "" := by
  have hbytes : utf8 s ≠ [] := fun hnil => h (utf8_injective hnil)
  intro hempty
  have hlist := congrArg String.toList hempty
  rw [encodeLocation, String.toList_ofList] at hlist
  exact encodeLocationBytes_ne_nil hbytes hlist

theorem head_encodeLocationBytes
    (h : (encodeLocationBytes (byte :: rest)).head? = some '/') : byte.toNat < 0x80 ∧ Char.ofNat byte.toNat = '/' := by
  rw [encodeLocationBytes, List.head?_append_of_ne_nil _ (writtenByte_ne_nil _ byte)] at h
  exact (writtenChar_of_mem kept_cases (mem_of_mem_head? h)).2.2 (.inl rfl)

theorem getLast_encodeLocationBytes {bytes : List UInt8}
    (h : (encodeLocationBytes (bytes ++ [byte])).getLast? = some '/') :
    byte.toNat < 0x80 ∧ Char.ofNat byte.toNat = '/' := by
  induction bytes with
  | nil =>
    rw [nil_append, encodeLocationBytes, encodeLocationBytes, append_nil] at h
    exact (writtenChar_of_mem kept_cases (mem_of_getLast? h)).2.2 (.inl rfl)
  | cons first bytes ih =>
    rw [cons_append, encodeLocationBytes,
      List.getLast?_append_of_ne_nil _ (encodeLocationBytes_ne_nil (by simp))] at h
    exact ih h

theorem head_encodeLocation (h : (encodeLocation s).toList.head? = some '/') :
    s.toList.head? = some '/' := by
  rw [encodeLocation, String.toList_ofList, utf8_eq_flatMap] at h
  cases hs : s.toList with
  | nil =>
    rw [hs] at h
    cases h
  | cons c rest =>
    obtain ⟨byte, bytes, hbytes⟩ := exists_cons_of_ne_nil (String.utf8EncodeChar_ne_nil (c := c))
    rw [hs, flatMap_cons, hbytes, cons_append] at h
    obtain ⟨hsmall, hslash⟩ := head_encodeLocationBytes h
    have hc := ofNat_of_mem_utf8EncodeChar (hbytes ▸ mem_cons_self) hsmall
    rw [← hc, hslash]
    rfl

theorem getLast_encodeLocation (h : (encodeLocation s).toList.getLast? = some '/') :
    s.toList.getLast? = some '/' := by
  rw [encodeLocation, String.toList_ofList, utf8_eq_flatMap] at h
  rcases eq_nil_or_concat s.toList with hs | ⟨rest, c, hs⟩
  · rw [hs] at h
    cases h
  · rw [concat_eq_append] at hs
    obtain ⟨bytes, byte, hbytes⟩ :=
      (eq_nil_or_concat (String.utf8EncodeChar c)).resolve_left String.utf8EncodeChar_ne_nil
    rw [concat_eq_append] at hbytes
    rw [hs, flatMap_append, flatMap_singleton, hbytes, ← append_assoc] at h
    obtain ⟨hsmall, hslash⟩ := getLast_encodeLocationBytes h
    have hc := ofNat_of_mem_utf8EncodeChar (by rw [hbytes]; exact mem_append_right _ mem_cons_self) hsmall
    rw [hs, List.getLast?_concat, ← hc, hslash]

/-! ## Segments -/

theorem pathSegments_encodeLocation (s : String) :
    pathSegments (encodeLocation s) = (pathSegments s).map encodeLocation := by
  have hjoin : "/".intercalate ((s.toList.splitOn '/').map String.ofList) = s := by
    rw [← String.toList_inj, String.toList_intercalate, map_map]
    simp [Function.comp_def]
  have hpiece : ∀ piece ∈ (s.toList.splitOn '/').map String.ofList, pathSegments (encodeLocation piece) =
      (pathSegments piece).map encodeLocation := by
    intro piece hpiece
    obtain ⟨text, htext, rfl⟩ := mem_map.1 hpiece
    have hslash : '/' ∉ (String.ofList text).toList := by
      rw [String.toList_ofList]
      exact Search.not_mem_of_mem_splitOn htext
    by_cases hempty : String.ofList text = ""
    · rw [hempty]
      rfl
    · rw [pathSegments_singleton hempty hslash, map_singleton]
      exact pathSegments_singleton (encodeLocation_ne hempty)
        fun hmem => hslash ((mem_encodeLocation hmem).2.2 (.inl rfl))
  conv_lhs => rw [← hjoin, encodeLocation_intercalate, pathSegments_intercalate, flatMap_map]
  conv_rhs => rw [← hjoin, pathSegments_intercalate, map_flatMap]
  exact flatMap_congr hpiece

/-! ## Escapes -/

theorem escape_induction {motive : List UInt8 → Prop} (nil : motive [])
    (plain : ∀ byte rest, startsEscape (byte :: rest) = false → motive rest → motive (byte :: rest))
    (escape : ∀ high low rest, isAsciiHexdigit high = true → isAsciiHexdigit low = true → motive rest →
      motive (0x25 :: high :: low :: rest)) (bytes : List UInt8) : motive bytes := by
  induction bytes using percentDecode.induct with
  | case1 => exact nil
  | case2 a => exact plain a [] rfl nil
  | case3 a b => exact plain a [b] rfl (plain b [] rfl nil)
  | case4 a b c rest h ih =>
    obtain ⟨rfl, hb, hc⟩ := h
    exact escape b c rest hb hc ih
  | case5 a b c rest h ih =>
    refine plain a (b :: c :: rest) ?_ ih
    rw [startsEscape, Bool.eq_false_iff]
    simpa using h

theorem percentDecode_of_startsEscape (h : startsEscape (byte :: rest) = false) :
    percentDecode (byte :: rest) = byte :: percentDecode rest := by
  match rest, h with
  | [], _ => rfl
  | [high], _ => rfl
  | high :: low :: rest, h =>
    rw [startsEscape, Bool.eq_false_iff] at h
    rw [percentDecode, if_neg]
    simpa using h

theorem utf8_writtenByte (h : isLocationByte byte = true) :
    (writtenByte true byte).flatMap String.utf8EncodeChar = [byte] := by
  have hvisible := (writtenChar_kept byte (.inl h)).1
  have hrange : 0x20 ≤ byte.toNat ∧ byte.toNat < 0x7F := by
    rw [← toNat_ofNat_byte byte]
    simpa [isVisibleChar] using hvisible
  rw [writtenByte, if_pos rfl, flatMap_singleton, utf8EncodeChar_ofNat (by omega)]

theorem encodesByte_writtenByte (byte : UInt8) :
    EncodesByte byte ((writtenByte (isLocationByte byte) byte).flatMap String.utf8EncodeChar) := by
  cases hkept : isLocationByte byte with
  | true =>
    have hpercent : isLocationByte 0x25 = false := by decide
    rw [utf8_writtenByte hkept]
    refine ⟨rfl, ?_⟩
    rintro rfl
    exact absurd hkept (by rw [hpercent]; exact Bool.false_ne_true)
  | false => exact encodesByte_escaped byte

theorem writtenByte_hexdigit (byte : UInt8) (h : isAsciiHexdigit byte = true) : isLocationByte byte = true ∧
    (writtenByte true byte).flatMap String.utf8EncodeChar = [byte] := by
  have hkept : isLocationByte byte = true :=
    Bool.or_eq_true_iff.2 (.inl (isAsciiAlphanumeric_of_isAsciiHexdigit h))
  exact ⟨hkept, utf8_writtenByte hkept⟩

theorem encodeLocationBytes_plain (h : startsEscape (byte :: rest) = false) :
    encodeLocationBytes (byte :: rest) = writtenByte (isLocationByte byte) byte ++ encodeLocationBytes rest := by
  rw [encodeLocationBytes, h, Bool.or_false]

theorem encodeLocationBytes_escape {high low : UInt8} (rest : List UInt8) (hhigh : isAsciiHexdigit high = true)
    (hlow : isAsciiHexdigit low = true) : encodeLocationBytes (0x25 :: high :: low :: rest) =
      '%' :: (writtenByte true high ++ (writtenByte true low ++ encodeLocationBytes rest)) := by
  have hkept : startsEscape (0x25 :: high :: low :: rest) = true := by simp [startsEscape, hhigh, hlow]
  rw [encodeLocationBytes, encodeLocationBytes, encodeLocationBytes, hkept, (writtenByte_hexdigit high hhigh).1,
    (writtenByte_hexdigit low hlow).1, Bool.or_true, Bool.true_or, Bool.true_or]
  rfl

theorem percent_encodeLocationBytes (bytes : List UInt8) :
    percentDecode ((encodeLocationBytes bytes).flatMap String.utf8EncodeChar) = percentDecode bytes ∧
      percentTriplets ((encodeLocationBytes bytes).flatMap String.utf8EncodeChar) = true := by
  induction bytes using escape_induction with
  | nil => exact ⟨rfl, rfl⟩
  | plain byte rest hplain ih =>
    have hstep := percent_append (encodesByte_writtenByte byte)
      ((encodeLocationBytes rest).flatMap String.utf8EncodeChar)
    rw [encodeLocationBytes_plain hplain, flatMap_append, hstep.1, hstep.2, percentDecode_of_startsEscape hplain,
      ih.1]
    exact ⟨rfl, ih.2⟩
  | escape high low rest hhigh hlow ih =>
    have hwritten : (encodeLocationBytes (0x25 :: high :: low :: rest)).flatMap String.utf8EncodeChar =
        0x25 :: high :: low :: (encodeLocationBytes rest).flatMap String.utf8EncodeChar := by
      rw [encodeLocationBytes_escape rest hhigh hlow, flatMap_cons, flatMap_append, flatMap_append,
        (writtenByte_hexdigit high hhigh).2, (writtenByte_hexdigit low hlow).2]
      rfl
    rw [hwritten, percentDecode, percentDecode, if_pos ⟨rfl, hhigh, hlow⟩, if_pos ⟨rfl, hhigh, hlow⟩, ih.1,
      percentTriplets, if_pos rfl, hhigh, hlow, ih.2]
    exact ⟨rfl, rfl⟩

theorem utf8_encodeLocation (s : String) :
    utf8 (encodeLocation s) = (encodeLocationBytes (utf8 s)).flatMap String.utf8EncodeChar := by
  rw [utf8_eq_flatMap, encodeLocation, String.toList_ofList]

theorem decodePathSegment_encodeLocation {s decoded : String} (h : decodePathSegment s = .ok decoded) :
    decodePathSegment (encodeLocation s) = .ok decoded := by
  cases htriplets : percentTriplets (utf8 s) with
  | false =>
    rw [decodePathSegment, htriplets] at h
    cases h
  | true =>
    obtain ⟨hdecode, hwhole⟩ := percent_encodeLocationBytes (utf8 s)
    rw [← h]
    unfold decodePathSegment
    rw [utf8_encodeLocation, hdecode, hwhole, htriplets]

theorem mapM_encodeLocation {segments decoded : List String} (h : segments.mapM decodePathSegment = .ok decoded) :
    (segments.map encodeLocation).mapM decodePathSegment = .ok decoded := by
  induction segments generalizing decoded with
  | nil => exact h
  | cons segment segments ih =>
    rw [mapM_cons] at h
    obtain ⟨first, hfirst, h⟩ := bind_eq_ok.1 h
    obtain ⟨rest, hrest, h⟩ := bind_eq_ok.1 h
    rw [map_cons, mapM_cons, decodePathSegment_encodeLocation hfirst, ih hrest]
    exact h

theorem decodePathSegments_encodeLocation {path : String} {segments : List String}
    (h : decodePathSegments path = .ok segments) : decodePathSegments (encodeLocation path) = .ok segments := by
  unfold decodePathSegments at h ⊢
  rw [pathSegments_encodeLocation, length_map]
  split at h
  · cases h
  · rename_i hfew
    rw [if_neg hfew]
    exact mapM_encodeLocation h

/-! ## URI text -/

def isUnreserved (c : Char) : Bool := c.isAlphanum || "-._~".toList.contains c

def isReserved (c : Char) : Bool := ":/?#[]@!$&'()*+,;=".toList.contains c

def isHexChar (c : Char) : Bool := "0123456789ABCDEFabcdef".toList.contains c

inductive UriText : List Char → Prop
  | nil : UriText []
  | char {c : Char} {rest : List Char} : isUnreserved c = true ∨ isReserved c = true → UriText rest → UriText (c :: rest)
  | escape {high low : Char} {rest : List Char} : isHexChar high = true → isHexChar low = true → UriText rest →
      UriText ('%' :: high :: low :: rest)

theorem uriChar_kept : ∀ byte : UInt8, isLocationByte byte = true →
    isUnreserved (Char.ofNat byte.toNat) = true ∨ isReserved (Char.ofNat byte.toNat) = true :=
  forall_byte (by decide +kernel)

theorem isHexChar_hexDigit (byte : UInt8) : isHexChar (hexDigit (byte.toNat / 16)) = true ∧
    isHexChar (hexDigit (byte.toNat % 16)) = true := by
  have hdigit : ∀ n < 16, isHexChar (hexDigit n) = true := by decide
  have hbyte := byte.toNat_lt
  exact ⟨hdigit _ (by omega), hdigit _ (by omega)⟩

theorem isHexChar_hexdigit : ∀ byte : UInt8, isAsciiHexdigit byte = true → isHexChar (Char.ofNat byte.toNat) = true :=
  forall_byte (by decide +kernel)

theorem UriText.writtenByte_append {rest : List Char} (h : UriText rest) (byte : UInt8) :
    UriText (writtenByte (isLocationByte byte) byte ++ rest) := by
  cases hkept : isLocationByte byte with
  | true => exact .char (uriChar_kept byte hkept) h
  | false => exact .escape (isHexChar_hexDigit byte).1 (isHexChar_hexDigit byte).2 h

theorem uriText_encodeLocationBytes (bytes : List UInt8) : UriText (encodeLocationBytes bytes) := by
  induction bytes using escape_induction with
  | nil => exact .nil
  | plain byte rest hplain ih =>
    rw [encodeLocationBytes_plain hplain]
    exact ih.writtenByte_append byte
  | escape high low rest hhigh hlow ih =>
    rw [encodeLocationBytes_escape rest hhigh hlow]
    exact .escape (isHexChar_hexdigit high hhigh) (isHexChar_hexdigit low hlow) ih

theorem toNat_lt_of_uriChar (h : isUnreserved c = true ∨ isReserved c = true) : c.toNat < 128 := by
  rcases h with h | h
  · rcases Bool.or_eq_true_iff.1 h with hletter | hsign
    · exact toNat_lt_of_isAlphanum hletter
    · exact toNat_lt_of_contains (by decide) hsign
  · exact toNat_lt_of_contains (by decide) h

theorem uriChar_cases (h : isUnreserved c = true ∨ isReserved c = true) :
    0x20 < c.toNat ∧ c.toNat < 0x7F ∧ isLocationByte (UInt8.ofNat c.toNat) = true :=
  forall_ascii (P := fun c => isUnreserved c = true ∨ isReserved c = true → 0x20 < c.toNat ∧ c.toNat < 0x7F ∧
    isLocationByte (UInt8.ofNat c.toNat) = true) (by decide +kernel) (toNat_lt_of_uriChar h) h

theorem visible_of_uriChar (h : isUnreserved c = true ∨ isReserved c = true) :
    0x20 < c.toNat ∧ c.toNat < 0x7F :=
  ⟨(uriChar_cases h).1, (uriChar_cases h).2.1⟩

theorem hexChar_cases (h : isHexChar c = true) :
    (isUnreserved c = true ∨ isReserved c = true) ∧ isAsciiHexdigit (UInt8.ofNat c.toNat) = true := by
  have hall : "0123456789ABCDEFabcdef".toList.all (fun c =>
      (isUnreserved c || isReserved c) && isAsciiHexdigit (UInt8.ofNat c.toNat)) = true := by decide
  obtain ⟨hchar, hdigit⟩ := Bool.and_eq_true_iff.1 (all_eq_true.1 hall c (contains_iff_mem.1 h))
  exact ⟨Bool.or_eq_true_iff.1 hchar, hdigit⟩

theorem uriChar_of_isHexChar (h : isHexChar c = true) : isUnreserved c = true ∨ isReserved c = true :=
  (hexChar_cases h).1

theorem UriText.visible {text : List Char} (h : UriText text) (hc : c ∈ text) :
    0x20 < c.toNat ∧ c.toNat < 0x7F := by
  induction h with
  | nil => cases hc
  | char hchar _ ih =>
    rcases mem_cons.1 hc with rfl | hc
    · exact visible_of_uriChar hchar
    · exact ih hc
  | escape hhigh hlow _ ih =>
    rcases mem_cons.1 hc with rfl | hc
    · decide
    rcases mem_cons.1 hc with rfl | hc
    · exact visible_of_uriChar (uriChar_of_isHexChar hhigh)
    rcases mem_cons.1 hc with rfl | hc
    · exact visible_of_uriChar (uriChar_of_isHexChar hlow)
    · exact ih hc

theorem utf8EncodeChar_uriChar (h : isUnreserved c = true ∨ isReserved c = true) :
    String.utf8EncodeChar c = [UInt8.ofNat c.toNat] ∧ isLocationByte (UInt8.ofNat c.toNat) = true ∧
      writtenByte true (UInt8.ofNat c.toNat) = [c] := by
  obtain ⟨hbyte, hchar⟩ := utf8EncodeChar_ascii (toNat_lt_of_uriChar h)
  refine ⟨hbyte, (uriChar_cases h).2.2, ?_⟩
  rw [writtenByte, if_pos rfl, hchar]

theorem isAsciiHexdigit_of_isHexChar (h : isHexChar c = true) :
    isAsciiHexdigit (UInt8.ofNat c.toNat) = true :=
  (hexChar_cases h).2

theorem UriText.encodeLocationBytes_eq {text : List Char} (h : UriText text) :
    encodeLocationBytes (text.flatMap String.utf8EncodeChar) = text := by
  induction h with
  | nil => rfl
  | char hchar _ ih =>
    obtain ⟨hbyte, hkept, hwritten⟩ := utf8EncodeChar_uriChar hchar
    rw [flatMap_cons, hbyte, singleton_append, encodeLocationBytes, hkept, Bool.true_or, hwritten, ih]
    rfl
  | escape hhigh hlow _ ih =>
    obtain ⟨hhighByte, -, hhighWritten⟩ := utf8EncodeChar_uriChar (uriChar_of_isHexChar hhigh)
    obtain ⟨hlowByte, -, hlowWritten⟩ := utf8EncodeChar_uriChar (uriChar_of_isHexChar hlow)
    have hpercent : String.utf8EncodeChar '%' = [0x25] := by decide
    rw [flatMap_cons, flatMap_cons, flatMap_cons, hpercent, hhighByte, hlowByte, singleton_append,
      singleton_append, singleton_append,
      encodeLocationBytes_escape _ (isAsciiHexdigit_of_isHexChar hhigh) (isAsciiHexdigit_of_isHexChar hlow),
      hhighWritten, hlowWritten, ih]
    rfl

theorem uriText_encodeLocation (s : String) : UriText (encodeLocation s).toList := by
  rw [encodeLocation, String.toList_ofList]
  exact uriText_encodeLocationBytes _

theorem encodeLocation_of_uriText (h : UriText s.toList) : encodeLocation s = s := by
  rw [encodeLocation, utf8_eq_flatMap, h.encodeLocationBytes_eq, String.ofList_toList]

/-- **An encoded location is URI text; URI text is left as it is; and the text decodes as before it was encoded.** -/
theorem encodeLocation_spec (location : String) :
    UriText (encodeLocation location).toList ∧
      (∀ c ∈ (encodeLocation location).toList, 0x20 < c.toNat ∧ c.toNat < 0x7F) ∧
      (UriText location.toList → encodeLocation location = location) ∧
      encodeLocation (encodeLocation location) = encodeLocation location ∧
      percentDecode (utf8 (encodeLocation location)) = percentDecode (utf8 location) := by
  have huri := uriText_encodeLocation location
  refine ⟨huri, fun c hc => huri.visible hc, encodeLocation_of_uriText, encodeLocation_of_uriText huri, ?_⟩
  rw [utf8_encodeLocation]
  exact (percent_encodeLocationBytes (utf8 location)).1

/-! ## Backslashes -/

/-- `replace('\\', "%5C")`. -/
def replaceBackslash (s : List Char) : List Char := s.flatMap fun c => if c = '\\' then ['%', '5', 'C'] else [c]

/-- The same, byte by byte. -/
def replaceBackslashBytes (bytes : List UInt8) : List UInt8 :=
  bytes.flatMap fun b => if b = 0x5C then [0x25, 0x35, 0x43] else [b]

theorem utf8_replaceBackslash (s : List Char) :
    utf8 (String.ofList (replaceBackslash s)) = replaceBackslashBytes (utf8 (String.ofList s)) := by
  rw [utf8_eq_flatMap, utf8_eq_flatMap, String.toList_ofList, String.toList_ofList, replaceBackslash,
    replaceBackslashBytes, flatMap_assoc, flatMap_assoc]
  refine flatMap_congr fun c _ => ?_
  by_cases hc : c = '\\'
  · subst hc
    decide
  · rw [if_neg hc, flatMap_singleton]
    -- no byte of another character is a backslash
    have hbytes : ∀ b ∈ String.utf8EncodeChar c, (if b = 0x5C then [0x25, 0x35, 0x43] else [b]) = [b] := by
      intro b hb
      refine if_neg fun hbackslash => hc ?_
      subst hbackslash
      exact (ofNat_of_mem_utf8EncodeChar hb (by decide)).symm
    rw [flatMap_congr hbytes]
    simp

theorem startsEscape_replaceBackslash (b : UInt8) (rest : List UInt8) :
    startsEscape (b :: replaceBackslashBytes rest) = startsEscape (b :: rest) := by
  have hpercent : isAsciiHexdigit 0x25 = false := by decide
  have hbackslash : isAsciiHexdigit 0x5C = false := by decide
  match rest with
  | [] => rfl
  | [high] =>
    by_cases hhigh : high = 0x5C
    · simp [replaceBackslashBytes, startsEscape, hhigh, hpercent]
    · simp [replaceBackslashBytes, startsEscape, hhigh]
  | high :: low :: rest =>
    by_cases hhigh : high = 0x5C
    · simp [replaceBackslashBytes, startsEscape, hhigh, hpercent, hbackslash]
    · by_cases hlow : low = 0x5C
      · simp [replaceBackslashBytes, startsEscape, hhigh, hlow, hpercent, hbackslash]
      · simp [replaceBackslashBytes, startsEscape, hhigh, hlow]

theorem encodeLocationBytes_replaceBackslash (bytes : List UInt8) :
    encodeLocationBytes (replaceBackslashBytes bytes) = encodeLocationBytes bytes := by
  induction bytes with
  | nil => rfl
  | cons b bytes ih =>
    by_cases hb : b = 0x5C
    · subst hb
      -- the escape is kept, and is what would be written for the byte
      have hescape : startsEscape (0x25 :: 0x35 :: 0x43 :: replaceBackslashBytes bytes) = true := rfl
      have hdigits : isLocationByte 0x35 = true ∧ isLocationByte 0x43 = true := by decide
      have hbackslash : (isLocationByte 0x5C || startsEscape (0x5C :: bytes)) = false := by
        refine Bool.or_eq_false_iff.2 ⟨by decide, ?_⟩
        match bytes with
        | [] => rfl
        | [_] => rfl
        | _ :: _ :: _ => rfl
      have hcons : replaceBackslashBytes (0x5C :: bytes) = 0x25 :: 0x35 :: 0x43 :: replaceBackslashBytes bytes := rfl
      rw [hcons, encodeLocationBytes, encodeLocationBytes, encodeLocationBytes, encodeLocationBytes, hescape, hdigits.1,
        hdigits.2, hbackslash, ih]
      rfl
    · have hcons : replaceBackslashBytes (b :: bytes) = b :: replaceBackslashBytes bytes := by
        rw [replaceBackslashBytes, flatMap_cons, if_neg hb]
        rfl
      rw [hcons, encodeLocationBytes, encodeLocationBytes, startsEscape_replaceBackslash, ih]

theorem encodeLocation_replaceBackslash (s : List Char) :
    encodeLocation (String.ofList (replaceBackslash s)) = encodeLocation (String.ofList s) := by
  rw [encodeLocation, utf8_replaceBackslash, encodeLocationBytes_replaceBackslash]
  rfl

/-! ## The response -/

def isTextChar (c : Char) : Bool := isVisibleChar c || c == '\t'

theorem toNat_lt_of_isTextChar (h : isTextChar c = true) : c.toNat < 128 := by
  rcases Bool.or_eq_true_iff.1 h with hvisible | htab
  · have hrange : 0x20 ≤ c.toNat ∧ c.toNat < 0x7F := by simpa [isVisibleChar] using hvisible
    omega
  · rw [beq_iff_eq.1 htab]
    decide

theorem isVisibleAscii_of_isTextChar (h : isTextChar c = true) :
    isVisibleAscii (UInt8.ofNat c.toNat) = true := by
  rcases Bool.or_eq_true_iff.1 h with hvisible | htab
  · exact (isVisibleAscii_of_isVisibleChar hvisible).1
  · rw [beq_iff_eq.1 htab]
    decide

theorem HeaderValue.fromStr_text {text : String} (h : ∀ c ∈ text.toList, isTextChar c = true) :
    ∃ value, HeaderValue.fromStr text = some value ∧ value.toStr = some text.toList := by
  have hascii : ∀ c ∈ text.toList, c.toNat < 128 := fun c hc => toNat_lt_of_isTextChar (h c hc)
  have hvisible : (utf8 text).all isVisibleAscii = true := by
    rw [utf8_ascii hascii, asciiBytes, all_map, all_eq_true]
    exact fun c hc => isVisibleAscii_of_isTextChar (h c hc)
  have hvalid : (utf8 text).all isHeaderValueByte = true :=
    all_eq_true.2 fun b hb => isHeaderValueByte_of_isVisibleAscii (all_eq_true.1 hvisible b hb)
  refine ⟨⟨utf8 text, hvalid⟩, ?_, ?_⟩
  · rw [fromStr, dif_pos hvalid]
  · rw [toStr, if_pos hvisible]
    dsimp only
    rw [utf8_ascii hascii, map_asciiBytes hascii]

theorem isTextChar_of_toStr {value : HeaderValue} {text : List Char} (h : value.toStr = some text) :
    ∀ c ∈ text, isTextChar c = true := by
  have hbyte : ∀ b : UInt8, isVisibleAscii b = true → isTextChar (Char.ofNat b.toNat) = true :=
    forall_byte (by decide +kernel)
  obtain ⟨hall, htext⟩ := Option.ite_none_right_eq_some.1 h
  obtain rfl := Option.some.inj htext
  intro c hc
  obtain ⟨b, hb, rfl⟩ := mem_map.1 hc
  exact hbyte b (all_eq_true.1 hall b hb)

namespace Response

variable {Stream : Type}

def send (text : Bytes) : Response Stream := bytes text "text/plain; charset=utf-8"

/-- `Response::status`. -/
def withStatus (r : Response Stream) (status : ℕ) : Response Stream :=
  if 100 ≤ status ∧ status ≤ 999 then { r with status } else r.recordBuildError .invalidStatus

/-- A field is set, or the build error recorded. -/
def header (r : Response Stream) (name value : String) : Response Stream :=
  match HeaderName.ofStr name with
  | none => r.recordBuildError .invalidHeaderName
  | some name =>
    match HeaderValue.fromStr value with
    | none => r.recordBuildError .invalidHeaderValue
    | some value => { r with headers := r.headers.insert name value }

/-- An empty response with a `Location`. -/
def redirectWithStatus (location : String) (status : ℕ) : Response Stream :=
  let response := ((send ⟨[], Bytes.nil_bounded⟩).withStatus status).header "location" (encodeLocation location)
  if 300 ≤ status ∧ status ≤ 399 then response else response.recordBuildError .invalidStatus

end Response

def HeaderName.location : HeaderName := ⟨"location", by decide, by decide, by decide⟩

theorem HeaderName.ofStr_location : HeaderName.ofStr "location" = some .location := by decide

theorem location_redirect {Stream : Type} (location : String) {status : ℕ} (h : 300 ≤ status ∧ status ≤ 399) :
    let response : Response Stream := .redirectWithStatus location status
    response.status = status ∧ response.buildError = none ∧
      (response.headers.get .location).bind HeaderValue.toStr = some (encodeLocation location).toList := by
  have htext : ∀ c ∈ (encodeLocation location).toList, isTextChar c = true := fun c hc =>
    Bool.or_eq_true_iff.2 (.inl (mem_encodeLocation hc).1)
  obtain ⟨value, hvalue, hread⟩ := HeaderValue.fromStr_text htext
  have hstatus : 100 ≤ status ∧ status ≤ 999 := by omega
  have hresponse : (Response.redirectWithStatus location status : Response Stream) =
      { (Response.send ⟨[], Bytes.nil_bounded⟩ : Response Stream) with
        status
        headers := MultiMap.insert ∅ .location value } := by
    rw [Response.redirectWithStatus]
    dsimp only
    rw [if_pos h, Response.withStatus, if_pos hstatus, Response.header, HeaderName.ofStr_location, hvalue]
    rfl
  dsimp only
  rw [hresponse]
  refine ⟨rfl, rfl, ?_⟩
  rw [MultiMap.get, MultiMap.getAll_insert_self]
  exact hread

end RustRest
