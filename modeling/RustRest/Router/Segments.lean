import RustRest.Lib.Search
import RustRest.Router.Pattern

/-!
# Segments as text

What `encode_path_segment` writes is read back by the two decoders, and a path that is put together from segments is
split into them.
-/

namespace RustRest

open List

/-! ## Bytes -/

def encodedByte (byte : UInt8) : List Char :=
  if isAsciiAlphanumeric byte || byte == 0x2D || byte == 0x2E || byte == 0x5F || byte == 0x7E then
    [Char.ofNat byte.toNat]
  else ['%', hexDigit (byte.toNat / 16), hexDigit (byte.toNat % 16)]

theorem toList_encodePathSegment (s : String) : (encodePathSegment s).toList = (utf8 s).flatMap encodedByte := by
  rw [encodePathSegment, String.toList_ofList]
  rfl

def EncodesByte (byte : UInt8) : List UInt8 → Prop
  | [b] => b = byte ∧ b ≠ 0x25
  | [percent, high, low] => percent = 0x25 ∧ isAsciiHexdigit high = true ∧ isAsciiHexdigit low = true ∧
      hexValue high * 16 + hexValue low = byte
  | _ => False

instance (byte : UInt8) : (bytes : List UInt8) → Decidable (EncodesByte byte bytes)
  | [] => inferInstanceAs (Decidable False)
  | [b] => inferInstanceAs (Decidable (b = byte ∧ b ≠ 0x25))
  | [_, _] => inferInstanceAs (Decidable False)
  | [percent, high, low] => inferInstanceAs (Decidable (percent = 0x25 ∧ isAsciiHexdigit high = true ∧
      isAsciiHexdigit low = true ∧ hexValue high * 16 + hexValue low = byte))
  | _ :: _ :: _ :: _ :: _ => inferInstanceAs (Decidable False)

theorem hexDigit_cases : ∀ n < 16, (hexDigit n).toNat < 128 ∧
    isAsciiHexdigit (UInt8.ofNat (hexDigit n).toNat) = true ∧
    hexValue (UInt8.ofNat (hexDigit n).toNat) = UInt8.ofNat n := by decide

theorem encodesByte_escaped (byte : UInt8) :
    EncodesByte byte (['%', hexDigit (byte.toNat / 16), hexDigit (byte.toNat % 16)].flatMap String.utf8EncodeChar) := by
  have hbyte := byte.toNat_lt
  obtain ⟨hhigh, hhighDigit, hhighValue⟩ := hexDigit_cases (byte.toNat / 16) (by omega)
  obtain ⟨hlow, hlowDigit, hlowValue⟩ := hexDigit_cases (byte.toNat % 16) (by omega)
  have hpercent : String.utf8EncodeChar '%' = [0x25] := by decide
  rw [flatMap_cons, flatMap_cons, flatMap_singleton, hpercent, (utf8EncodeChar_ascii hhigh).1,
    (utf8EncodeChar_ascii hlow).1]
  refine ⟨rfl, hhighDigit, hlowDigit, ?_⟩
  have hsixteen : (16 : UInt8).toNat = 16 := rfl
  rw [hhighValue, hlowValue, ← UInt8.toNat_inj, UInt8.toNat_add, UInt8.toNat_mul, UInt8.toNat_ofNat',
    UInt8.toNat_ofNat', hsixteen]
  omega

theorem encodesByte_encodedByte : ∀ byte : UInt8,
    EncodesByte byte ((encodedByte byte).flatMap String.utf8EncodeChar) :=
  forall_byte (by decide +kernel)

theorem utf8_encodePathSegment (s : String) :
    utf8 (encodePathSegment s) = (utf8 s).flatMap fun byte => (encodedByte byte).flatMap String.utf8EncodeChar := by
  rw [utf8_eq_flatMap, toList_encodePathSegment, flatMap_assoc]

theorem percentDecode_cons {b : UInt8} (h : b ≠ 0x25) (rest : List UInt8) :
    percentDecode (b :: rest) = b :: percentDecode rest := by
  match rest with
  | [] => rfl
  | [c] => rfl
  | c :: d :: rest => rw [percentDecode, if_neg fun hand => h hand.1]

theorem percentTriplets_cons {b : UInt8} (h : b ≠ 0x25) (rest : List UInt8) :
    percentTriplets (b :: rest) = percentTriplets rest := by
  match rest with
  | [] => simp [percentTriplets, h]
  | [c] => simp [percentTriplets, h]
  | c :: d :: rest => rw [percentTriplets, if_neg h]

theorem percent_append {byte : UInt8} {bytes : List UInt8} (h : EncodesByte byte bytes) (rest : List UInt8) :
    percentDecode (bytes ++ rest) = byte :: percentDecode rest ∧
      percentTriplets (bytes ++ rest) = percentTriplets rest := by
  unfold EncodesByte at h
  split at h
  · next b =>
    obtain ⟨rfl, hb⟩ := h
    exact ⟨percentDecode_cons hb rest, percentTriplets_cons hb rest⟩
  · next percent high low =>
    obtain ⟨rfl, hhigh, hlow, rfl⟩ := h
    constructor
    · exact if_pos ⟨rfl, hhigh, hlow⟩
    · show percentTriplets (0x25 :: high :: low :: rest) = _
      rw [percentTriplets, if_pos rfl, hhigh, hlow]
      rfl
  · exact h.elim

theorem percent_flatMap (bytes : List UInt8) :
    percentDecode (bytes.flatMap fun byte => (encodedByte byte).flatMap String.utf8EncodeChar) = bytes ∧
      percentTriplets (bytes.flatMap fun byte => (encodedByte byte).flatMap String.utf8EncodeChar) = true := by
  induction bytes with
  | nil => exact ⟨rfl, rfl⟩
  | cons byte bytes ih =>
    have hstep := percent_append (encodesByte_encodedByte byte)
      (bytes.flatMap fun byte => (encodedByte byte).flatMap String.utf8EncodeChar)
    rw [flatMap_cons]
    exact ⟨by rw [hstep.1, ih.1], by rw [hstep.2, ih.2]⟩

theorem percentDecode_encode (s : String) : percentDecode (utf8 (encodePathSegment s)) = utf8 s := by
  rw [utf8_encodePathSegment]
  exact (percent_flatMap _).1

/-- An encoded segment holds whole triplets. -/
theorem percentTriplets_encode (s : String) : percentTriplets (utf8 (encodePathSegment s)) = true := by
  rw [utf8_encodePathSegment]
  exact (percent_flatMap _).2

/-! ## Decoders -/

/-- An encoded segment is decoded to itself, unless it has controls. -/
theorem decodePathSegment_encode (s : String) : decodePathSegment (encodePathSegment s) =
    if s.toList.any isControl then .error .invalidPathEncoding else .ok s := by
  unfold decodePathSegment
  rw [percentTriplets_encode, percentDecode_encode, fromUtf8_utf8]
  rfl

/-- The same for the segments of a pattern. -/
theorem decodeRouteStaticSegment_encode {s : String} (h : s.toList.any isControl = false) :
    decodeRouteStaticSegment (encodePathSegment s) = .ok s := by
  unfold decodeRouteStaticSegment
  rw [percentTriplets_encode, percentDecode_encode, fromUtf8_utf8]
  simp only [Bool.not_true, Bool.false_eq_true, if_false, h]

/-! ## Characters of an encoded segment -/

theorem encodedByte_chars : ∀ byte : UInt8,
    encodedByte byte ≠ [] ∧ '/' ∉ encodedByte byte ∧ ':' ∉ encodedByte byte ∧ '*' ∉ encodedByte byte :=
  forall_byte (by decide +kernel)

theorem not_mem_encodePathSegment {s : String} {c : Char} (hc : c = '/' ∨ c = ':' ∨ c = '*') :
    c ∉ (encodePathSegment s).toList := by
  rw [toList_encodePathSegment]
  intro hmem
  obtain ⟨byte, -, hbyte⟩ := mem_flatMap.1 hmem
  obtain ⟨-, hslash, hcolon, hstar⟩ := encodedByte_chars byte
  rcases hc with rfl | rfl | rfl
  · exact hslash hbyte
  · exact hcolon hbyte
  · exact hstar hbyte

theorem encodePathSegment_ne {s : String} (h : s ≠ "") : encodePathSegment s ≠ "" := by
  have hbytes : utf8 s ≠ [] := fun hnil => h (utf8_injective hnil)
  obtain ⟨byte, bytes, hcons⟩ := exists_cons_of_ne_nil hbytes
  intro hempty
  have hlist := toList_encodePathSegment s
  rw [hempty, hcons, flatMap_cons] at hlist
  exact (encodedByte_chars byte).1 (append_eq_nil_iff.1 hlist.symm).1

/-! ## Paths -/

theorem pathSegments_append {pre suf : String} (h : suf.toList.head? = some '/') :
    pathSegments (pre ++ suf) = pathSegments pre ++ pathSegments suf := by
  cases hs : suf.toList with
  | nil => rw [hs] at h; cases h
  | cons c rest =>
    rw [hs] at h
    cases h
    have hrest : ('/' :: rest).splitOn '/' = [] :: rest.splitOn '/' := by
      rw [splitOn_cons_eq_if_modifyHead, if_pos (by decide)]
    rw [pathSegments, pathSegments, pathSegments, String.toList_append, hs, splitOn_append_cons_self, hrest]
    simp

theorem pathSegments_slash (s : String) : pathSegments ("/" ++ s) = pathSegments s := by
  have hsplit : ('/' :: s.toList).splitOn '/' = [] :: s.toList.splitOn '/' := by
    rw [splitOn_cons_eq_if_modifyHead, if_pos (by decide)]
  have hlist : ("/" ++ s).toList = '/' :: s.toList := by simp
  rw [pathSegments, pathSegments, hlist, hsplit]
  simp

theorem pathSegments_singleton {s : String} (hne : s ≠ "") (hslash : '/' ∉ s.toList) : pathSegments s = [s] := by
  rw [pathSegments, splitOn_eq_singleton hslash]
  simp [hne]

theorem mem_pathSegments {path s : String} (h : s ∈ pathSegments path) : s ≠ "" ∧ '/' ∉ s.toList := by
  obtain ⟨hmem, hne⟩ := mem_filter.1 h
  obtain ⟨part, hpart, rfl⟩ := mem_map.1 hmem
  rw [String.toList_ofList]
  exact ⟨bne_iff_ne.1 hne, Search.not_mem_of_mem_splitOn hpart⟩

theorem pathSegments_join (parts : List String) :
    pathSegments (String.join (parts.map ("/" ++ ·))) = parts.flatMap pathSegments := by
  induction parts with
  | nil => rfl
  | cons part parts ih =>
    rw [map_cons, String.join_cons, flatMap_cons]
    cases parts with
    | nil => simp [pathSegments_slash]
    | cons next parts =>
      rw [pathSegments_append (by simp), pathSegments_slash, ih]

theorem pathSegments_intercalate (parts : List String) :
    pathSegments ("/".intercalate parts) = parts.flatMap pathSegments := by
  induction parts with
  | nil => rfl
  | cons part parts ih =>
    cases parts with
    | nil => simp
    | cons next parts =>
      rw [String.intercalate_cons_cons, String.append_assoc, pathSegments_append (by simp), pathSegments_slash, ih]
      rfl

theorem flatMap_pathSegments {parts : List String} (h : ∀ part ∈ parts, part ≠ "" ∧ '/' ∉ part.toList) :
    parts.flatMap pathSegments = parts := by
  rw [flatMap_congr fun part hpart => pathSegments_singleton (h part hpart).1 (h part hpart).2]
  simp

end RustRest
