import RustRest.Form.RoundTrip
import RustRest.Lib.Utf8Cursor

/-!
# The cursor of the parameters

`parse_parameterized_value` goes through the bytes of its text with a cursor and takes slices of the text, which would
panic in the middle of a character. Here it is modelled as such, and it does what `parseParameterizedValue` does with the
characters.

Main result: **`parameterized_value`**.
-/

namespace RustRest

open Utf8Cursor List

def isTokenByte (b : UInt8) : Bool := isAsciiAlphanumeric b || (utf8 "!#$%&'*+-.^_`|~").contains b

def isQuotedTextByte (b : UInt8) : Bool := b == 0x09 || (0x20 ≤ b && b != 0x7f)

namespace Cursor

def sliceText (bytes : List UInt8) (a b : ℕ) : Option (List Char) :=
  (slice bytes a b).bind fun part => (fromUtf8 part).map String.toList

def skipOptionalWhitespace (bytes : List UInt8) (cursor : ℕ) : ℕ := scan (fun b => b == 0x20 || b == 0x09) bytes cursor

def quotedLoop (bytes : List UInt8) (cursor : ℕ) (decoded : List UInt8) : Option (List UInt8 × ℕ) :=
  if _h : cursor < bytes.length then
    if bytes[cursor] = 0x22 then some (decoded, cursor + 1)
    else if bytes[cursor] = 0x5c then
      match bytes[cursor + 1]? with
      | none => none
      | some escaped =>
        if isQuotedTextByte escaped then quotedLoop bytes (cursor + 2) (decoded ++ [escaped]) else none
    else if isQuotedTextByte bytes[cursor] then quotedLoop bytes (cursor + 1) (decoded ++ [bytes[cursor]])
    else none
  else none
termination_by bytes.length - cursor

def parseValue (bytes : List UInt8) (cursor : ℕ) : Option (Option (String × ℕ)) :=
  if bytes[cursor]? = some 0x22 then
    match quotedLoop bytes (cursor + 1) [] with
    | none => some none
    | some (decoded, cursor) => some ((fromUtf8 decoded).map fun text => (text, skipOptionalWhitespace bytes cursor))
  else
    let valueEnd := scan (· != 0x3b) bytes cursor
    (sliceText bytes cursor valueEnd).map fun text =>
      let unquoted := trim text
      if unquoted.isEmpty || !(utf8 (String.ofList unquoted)).all isTokenByte then none
      else some (String.ofList unquoted, valueEnd)

theorem le_of_quotedLoop {bytes decoded decoded' : List UInt8} {cursor cursor' : ℕ}
    (h : quotedLoop bytes cursor decoded = some (decoded', cursor')) : cursor ≤ cursor' := by
  fun_induction quotedLoop bytes cursor decoded with
  | case1 => cases h; exact Nat.le_succ _
  | case2 => cases h
  | case3 _ _ _ _ _ _ _ _ ih => have := ih h; omega
  | case4 => cases h
  | case5 _ _ _ _ _ _ ih => have := ih h; omega
  | case6 | case7 => cases h

theorem le_of_parseValue {bytes : List UInt8} {cursor cursor' : ℕ} {text : String}
    (h : parseValue bytes cursor = some (some (text, cursor'))) : cursor ≤ cursor' := by
  unfold parseValue at h
  split at h
  · split at h
    · cases h
    · next decoded behind hloop =>
      obtain ⟨text', -, heq⟩ := Option.map_eq_some_iff.1 (Option.some.inj h)
      cases heq
      have hle := le_of_quotedLoop hloop
      have hskip := le_scan (fun b => b == 0x20 || b == 0x09) bytes behind
      unfold skipOptionalWhitespace
      omega
  · obtain ⟨part, -, heq⟩ := Option.map_eq_some_iff.1 h
    dsimp only at heq
    split at heq
    · cases heq
    · cases heq
      exact le_scan _ _ _

def parseParameter (bytes : List UInt8) (nameStart : ℕ) : Option (Option ((String × String) × ℕ)) :=
  let nameEnd := scan isTokenByte bytes nameStart
  if nameEnd = nameStart then some none
  else (sliceText bytes nameStart nameEnd).bind fun name =>
    let equals := skipOptionalWhitespace bytes nameEnd
    if bytes[equals]? ≠ some 0x3d then some none
    else (parseValue bytes (skipOptionalWhitespace bytes (equals + 1))).map fun value =>
      value.map fun read => ((toAsciiLowercase (String.ofList name), read.1), read.2)

theorem le_skip (bytes : List UInt8) (cursor : ℕ) : cursor ≤ skipOptionalWhitespace bytes cursor := le_scan _ _ _

theorem le_of_parseParameter {bytes : List UInt8} {cursor cursor' : ℕ} {parameter : String × String}
    (h : parseParameter bytes cursor = some (some (parameter, cursor'))) : cursor ≤ cursor' := by
  unfold parseParameter at h
  dsimp only at h
  split at h
  · cases h
  · obtain ⟨name, -, hname⟩ := Option.bind_eq_some_iff.1 h
    split at hname
    · cases hname
    · obtain ⟨value, hvalue, hmap⟩ := Option.map_eq_some_iff.1 hname
      obtain ⟨read, rfl, hread⟩ := Option.map_eq_some_iff.1 hmap
      cases hread
      have h₁ := le_scan isTokenByte bytes cursor
      have h₂ := le_skip bytes (scan isTokenByte bytes cursor)
      have h₃ := le_skip bytes (skipOptionalWhitespace bytes (scan isTokenByte bytes cursor) + 1)
      have h₄ := le_of_parseValue hvalue
      omega

def parseLoop (bytes : List UInt8) (cursor : ℕ) (parameters : List (String × String)) :
    Option (Option (List (String × String))) :=
  if cursor < bytes.length then
    if skipOptionalWhitespace bytes (cursor + 1) = bytes.length then some (some parameters)
    else
      match _hparameter : parseParameter bytes (skipOptionalWhitespace bytes (cursor + 1)) with
      | none => none
      | some none => some none
      | some (some (parameter, cursor')) =>
        if cursor' < bytes.length ∧ bytes[cursor']? ≠ some 0x3b then some none
        else parseLoop bytes cursor' (parameters ++ [parameter])
  else some (some parameters)
termination_by bytes.length - cursor
decreasing_by
  have hle := le_of_parseParameter _hparameter
  have hskip := le_skip bytes (cursor + 1)
  omega

/-- `parse_parameterized_value` on bytes; `none` stands for a panic. -/
def parseParameterizedValue (value : String) : Option (Option (String × List (String × String))) :=
  let bytes := utf8 value
  let cursor := scan (· != 0x3b) bytes 0
  (sliceText bytes 0 cursor).bind fun text =>
    let base := trim text
    if base = [] then some none
    else (parseLoop bytes cursor []).map fun parameters =>
      parameters.map fun parameters => (String.ofList base, parameters)

/-! ## Bytes and characters -/

theorem utf8_ofList (s : List Char) : utf8 (String.ofList s) = encode s := by
  rw [utf8_eq_flatMap, String.toList_ofList]
  rfl

theorem fromUtf8_encode (s : List Char) : fromUtf8 (encode s) = some (String.ofList s) := by
  rw [← utf8_ofList, fromUtf8_utf8]

theorem beq_of_mem {x b : UInt8} {y c : Char} (hxy : x.toNat = y.toNat) (hy : y.toNat < 128)
    (hb : b ∈ String.utf8EncodeChar c) : (b == x) = (c == y) := by
  have hscans : Scans (· == x) (· == y) := by
    refine Scans.of_ascii false (fun b hb => ?_) (fun c hc => ?_) fun c _ b hb => ?_
    · have hle : 128 ≤ b.toNat := UInt8.le_iff_toNat_le.1 hb
      rw [beq_eq_false_iff_ne, ne_eq, ← UInt8.toNat_inj]
      omega
    · rw [beq_eq_false_iff_ne, ne_eq, ← Char.toNat_inj]
      omega
    · rw [Bool.eq_iff_iff, beq_iff_eq, beq_iff_eq, ← UInt8.toNat_inj, hb, hxy, Char.toNat_inj]
  exact hscans c b hb

theorem ne_of_mem {x b : UInt8} {y c : Char} (hxy : x.toNat = y.toNat) (hy : y.toNat < 128)
    (hb : b ∈ String.utf8EncodeChar c) (hne : c ≠ y) : b ≠ x := by
  rw [← beq_eq_false_iff_ne, beq_of_mem hxy hy hb, beq_eq_false_iff_ne]
  exact hne

theorem scans_semicolon : Scans (· != 0x3b) (· != ';') :=
  fun _ _ hb => congrArg not (beq_of_mem rfl (by decide) hb)

theorem scans_blank : Scans (fun b => b == 0x20 || b == 0x09) fun c => c == ' ' || c == '\t' :=
  fun _ _ hb => congrArg₂ or (beq_of_mem rfl (by decide) hb) (beq_of_mem rfl (by decide) hb)

theorem isTokenByte_eq (b : UInt8) : isTokenByte b = (decide (b.toNat < 128) && isTokenChar (Char.ofNat b.toNat)) :=
  forall_byte (P := fun b => isTokenByte b = (decide (b.toNat < 128) && isTokenChar (Char.ofNat b.toNat)))
    (by decide +kernel) b

theorem scans_token : Scans isTokenByte isTokenChar := by
  refine Scans.of_ascii false (fun b hb => ?_) (fun c hc => ?_) fun c hc b hb => ?_
  · have hle : 128 ≤ b.toNat := UInt8.le_iff_toNat_le.1 hb
    rw [isTokenByte_eq, decide_eq_false (Nat.not_lt.2 hle), Bool.false_and]
  · exact Bool.eq_false_iff.2 fun htoken => Nat.not_lt.2 hc (toNat_lt_of_isTokenChar htoken)
  · rw [isTokenByte_eq, hb, decide_eq_true hc, Bool.true_and, Char.ofNat_toNat]

theorem all_isTokenByte (s : List Char) : (encode s).all isTokenByte = s.all isTokenChar := by
  rw [Bool.eq_iff_iff, all_eq_true, all_eq_true]
  constructor
  · intro h c hc
    obtain ⟨b, rest, hbytes, -⟩ := utf8EncodeChar_cases c
    have hb : b ∈ String.utf8EncodeChar c := hbytes ▸ mem_cons_self
    rw [← scans_token c b hb]
    exact h b (mem_flatMap.2 ⟨c, hc, hb⟩)
  · intro h b hb
    obtain ⟨c, hc, hb⟩ := mem_flatMap.1 hb
    rw [scans_token c b hb]
    exact h c hc

theorem isQuotedTextByte_eq (b : UInt8) :
    isQuotedTextByte b = decide (b.toNat = 9 ∨ 32 ≤ b.toNat ∧ b.toNat ≠ 127) := by
  rw [isQuotedTextByte, Bool.eq_iff_iff, Bool.or_eq_true, Bool.and_eq_true, beq_iff_eq, decide_eq_true_eq,
    decide_eq_true_eq, bne_iff_ne, UInt8.le_iff_toNat_le, ← UInt8.toNat_inj, ne_eq, ← UInt8.toNat_inj]
  rfl

theorem isQuotedTextChar_eq (c : Char) :
    isQuotedTextChar c = decide (c.toNat = 9 ∨ 32 ≤ c.toNat ∧ c.toNat ≠ 127) := by
  rw [isQuotedTextChar, Bool.eq_iff_iff, Bool.or_eq_true, Bool.and_eq_true, beq_iff_eq, decide_eq_true_eq,
    decide_eq_true_eq, bne_iff_ne, ← Char.toNat_inj]
  rfl

theorem scans_quotedText : Scans isQuotedTextByte isQuotedTextChar := by
  refine Scans.of_ascii true (fun b hb => ?_) (fun c hc => ?_) fun c _ b hb => ?_
  · have hle : 128 ≤ b.toNat := UInt8.le_iff_toNat_le.1 hb
    rw [isQuotedTextByte_eq, decide_eq_true_eq]
    omega
  · rw [isQuotedTextChar_eq, decide_eq_true_eq]
    omega
  · rw [isQuotedTextByte_eq, isQuotedTextChar_eq, hb]

section Loops

variable {value rest : List Char} {cursor : ℕ}

theorem sliceText_encode {part : List Char} {cursor' : ℕ} (h : At value cursor (part ++ rest))
    (h' : At value cursor' rest) : sliceText (encode value) cursor cursor' = some part := by
  rw [sliceText, h.slice h', Option.bind_some, fromUtf8_encode, Option.map_some, String.toList_ofList]

theorem skip_encode (h : At value cursor rest) :
    At value (skipOptionalWhitespace (encode value) cursor) (RustRest.skipOptionalWhitespace rest) :=
  h.scan scans_blank

theorem at_succ {c : Char} (hc : c.toNat < 128) (h : At value cursor (c :: rest)) : At value (cursor + 1) rest := by
  have hnext := h.next
  rw [(utf8EncodeChar_ascii hc).1] at hnext
  exact hnext

theorem getElem?_eq_iff (c : Char) (hc : c.toNat < 128) (h : At value cursor rest) :
    (encode value)[cursor]? = some (UInt8.ofNat c.toNat) ↔ rest.head? = some c := by
  rw [h.getElem?]
  cases rest with
  | nil => exact iff_of_false nofun nofun
  | cons d rest =>
    obtain ⟨b, others, hd, -, -, hlow, hhigh⟩ := utf8EncodeChar_cases d
    rw [encode_cons, hd, cons_append, List.head?_cons, List.head?_cons, Option.some_inj, Option.some_inj,
      ← UInt8.toNat_inj, UInt8.toNat_ofNat', Nat.mod_eq_of_lt (by omega), ← Char.toNat_inj]
    rcases Nat.lt_or_ge d.toNat 128 with hlt | hge
    · rw [(hlow hlt).1]
    · have hb : 128 ≤ b.toNat := UInt8.le_iff_toNat_le.1 (hhigh hge)
      omega

theorem quotedLoop_plain {bytes : List UInt8} {cursor : ℕ} {decoded run behind : List UInt8}
    (hdrop : bytes.drop cursor = run ++ behind)
    (hplain : ∀ b ∈ run, b ≠ 0x22 ∧ b ≠ 0x5c ∧ isQuotedTextByte b = true) :
    quotedLoop bytes cursor decoded = quotedLoop bytes (cursor + run.length) (decoded ++ run) := by
  induction run generalizing cursor decoded with
  | nil => rw [length_nil, Nat.add_zero, append_nil]
  | cons b run ih =>
    have hlt : cursor < bytes.length := by
      by_contra hge
      rw [drop_eq_nil_of_le (Nat.le_of_not_lt hge)] at hdrop
      cases hdrop
    rw [drop_eq_getElem_cons hlt] at hdrop
    obtain ⟨hb, hdrop⟩ := List.cons.inj hdrop
    obtain ⟨hquote, hescape, htext⟩ := hplain b mem_cons_self
    rw [quotedLoop, dif_pos hlt, hb, if_neg hquote, if_neg hescape, if_pos htext,
      ih hdrop fun b' hb' => hplain b' (mem_cons_of_mem _ hb'), length_cons, append_assoc,
      singleton_append]
    congr 1
    omega

theorem quotedLoop_char {c : Char} (h : At value cursor (c :: rest)) (hquote : c ≠ '"') (hescape : c ≠ '\\')
    (htext : isQuotedTextChar c = true) (decoded : List UInt8) :
    quotedLoop (encode value) cursor decoded =
      quotedLoop (encode value) (cursor + (String.utf8EncodeChar c).length) (decoded ++ String.utf8EncodeChar c) := by
  refine quotedLoop_plain (h.drop.trans (encode_cons c rest)) fun b hb => ⟨?_, ?_, ?_⟩
  · exact ne_of_mem rfl (by decide) hb hquote
  · exact ne_of_mem rfl (by decide) hb hescape
  · exact (scans_quotedText c b hb).trans htext

theorem getElem_encode {c : Char} (h : At value cursor (c :: rest)) (hc : c.toNat < 128)
    (hlt : cursor < (encode value).length) : (encode value)[cursor] = UInt8.ofNat c.toNat := by
  have hsome := (getElem?_eq_iff c hc h).2 rfl
  rw [List.getElem?_eq_getElem hlt] at hsome
  exact Option.some.inj hsome

theorem quotedLoop_escaped {c : Char} (h : At value cursor ('\\' :: c :: rest)) (decoded : List UInt8) :
    quotedLoop (encode value) cursor decoded =
      if isQuotedTextChar c then
        quotedLoop (encode value) (cursor + 1 + (String.utf8EncodeChar c).length) (decoded ++ String.utf8EncodeChar c)
      else none := by
  have hlt := h.lt_iff.2 (cons_ne_nil _ _)
  have hbyte : (encode value)[cursor] = 0x5c := getElem_encode h (by decide) hlt
  have hnext : At value (cursor + 1) (c :: rest) := at_succ (by decide) h
  obtain ⟨b, others, hc, -, hothers, -⟩ := utf8EncodeChar_cases c
  have hescaped : (encode value)[cursor + 1]? = some b := by
    rw [hnext.getElem?, encode_cons, hc]
    rfl
  rw [quotedLoop, dif_pos hlt, hbyte, if_neg (by decide), if_pos rfl, hescaped]
  dsimp only
  rw [scans_quotedText c b (hc ▸ mem_cons_self)]
  split
  · have hdrop : (encode value).drop (cursor + 2) = others ++ encode rest := by
      rw [show cursor + 2 = cursor + 1 + 1 from rfl, ← drop_drop, hnext.drop, encode_cons, hc]
      rfl
    rw [quotedLoop_plain hdrop, hc, append_assoc, singleton_append, length_cons]
    · congr 1
      omega
    · intro b' hb'
      have hle : 128 ≤ b'.toNat := UInt8.le_iff_toNat_le.1 (hothers b' hb')
      refine ⟨?_, ?_, ?_⟩
      · rintro rfl
        exact absurd hle (by decide)
      · rintro rfl
        exact absurd hle (by decide)
      · rw [isQuotedTextByte_eq, decide_eq_true_eq]
        omega
  · rfl

theorem quotedLoop_bad {c : Char} (h : At value cursor (c :: rest)) (hquote : c ≠ '"') (hescape : c ≠ '\\')
    (htext : isQuotedTextChar c = false) (decoded : List UInt8) :
    quotedLoop (encode value) cursor decoded = none := by
  have hlt := h.lt_iff.2 (cons_ne_nil _ _)
  obtain ⟨b, others, hc, -⟩ := utf8EncodeChar_cases c
  have hb : b ∈ String.utf8EncodeChar c := hc ▸ mem_cons_self
  have hbyte : (encode value)[cursor] = b := by
    have hsome := h.getElem?
    rw [List.getElem?_eq_getElem hlt, encode_cons, hc] at hsome
    exact Option.some.inj hsome
  rw [quotedLoop, dif_pos hlt, hbyte, if_neg (ne_of_mem rfl (by decide) hb hquote),
    if_neg (ne_of_mem rfl (by decide) hb hescape), scans_quotedText c b hb, htext, if_neg Bool.false_ne_true]

/-- **A quoted string.** -/
theorem quotedLoop_encode (h : At value cursor rest) (decoded : List UInt8) :
    (quotedText rest = none → quotedLoop (encode value) cursor decoded = none) ∧
      ∀ text behind, quotedText rest = some (text, behind) → ∃ cursor', At value cursor' behind ∧
        quotedLoop (encode value) cursor decoded = some (decoded ++ encode text, cursor') := by
  fun_induction quotedText rest generalizing cursor decoded with
  | case1 =>
    have hend : ¬ cursor < (encode value).length := fun hlt => h.lt_iff.1 hlt rfl
    refine ⟨fun _ => ?_, fun _ _ hsome => absurd hsome.symm (Option.some_ne_none _)⟩
    rw [quotedLoop, dif_neg hend]
  | case2 rest =>
    have hlt := h.lt_iff.2 (cons_ne_nil _ _)
    have hbyte : (encode value)[cursor] = 0x22 := getElem_encode h (by decide) hlt
    refine ⟨fun hnone => absurd hnone (Option.some_ne_none _), ?_⟩
    rintro text behind ⟨⟩
    refine ⟨cursor + 1, at_succ (by decide) h, ?_⟩
    rw [quotedLoop, dif_pos hlt, hbyte, if_pos rfl]
    simp [encode]
  | case3 =>
    have hlt := h.lt_iff.2 (cons_ne_nil _ _)
    have hbyte : (encode value)[cursor] = 0x5c := getElem_encode h (by decide) hlt
    have hnext : At value (cursor + 1) [] := at_succ (by decide) h
    refine ⟨fun _ => ?_, fun _ _ hsome => absurd hsome.symm (Option.some_ne_none _)⟩
    rw [quotedLoop, dif_pos hlt, hbyte, if_neg (by decide), if_pos rfl, hnext.getElem?]
    rfl
  | case4 c rest htext ih =>
    rw [quotedLoop_escaped h, if_pos htext]
    obtain ⟨hnone, hsome⟩ := ih (at_succ (by decide) h).next (decoded ++ String.utf8EncodeChar c)
    refine ⟨fun hmap => hnone (Option.map_eq_none_iff.1 hmap), fun text behind hmap => ?_⟩
    obtain ⟨x, hx, heq⟩ := Option.map_eq_some_iff.1 hmap
    cases heq
    rw [encode_cons, ← append_assoc]
    exact hsome x.1 x.2 hx
  | case5 c rest htext =>
    rw [quotedLoop_escaped h, if_neg htext]
    exact ⟨fun _ => rfl, fun _ _ hsome => absurd hsome.symm (Option.some_ne_none _)⟩
  | case6 c rest hquote hlast hescape htext ih =>
    have hbackslash : c ≠ '\\' := by
      rintro rfl
      cases rest with
      | nil => exact hlast rfl rfl
      | cons c' rest => exact hescape c' rest rfl rfl
    rw [quotedLoop_char h hquote hbackslash htext]
    obtain ⟨hnone, hsome⟩ := ih h.next (decoded ++ String.utf8EncodeChar c)
    refine ⟨fun hmap => hnone (Option.map_eq_none_iff.1 hmap), fun text behind hmap => ?_⟩
    obtain ⟨x, hx, heq⟩ := Option.map_eq_some_iff.1 hmap
    cases heq
    rw [encode_cons, ← append_assoc]
    exact hsome x.1 x.2 hx
  | case7 c rest hquote hlast hescape htext =>
    have hbackslash : c ≠ '\\' := by
      rintro rfl
      cases rest with
      | nil => exact hlast rfl rfl
      | cons c' rest => exact hescape c' rest rfl rfl
    rw [quotedLoop_bad h hquote hbackslash (Bool.eq_false_iff.2 htext)]
    exact ⟨fun _ => rfl, fun _ _ hsome => absurd hsome.symm (Option.some_ne_none _)⟩

inductive Reads {α : Type} (value : List Char) : Option (α × ℕ) → Option (α × List Char) → Prop where
  | none : Reads value none none
  | some {a : α} {cursor : ℕ} {rest : List Char} : At value cursor rest → Reads value (some (a, cursor)) (some (a, rest))

theorem Reads.map {α β : Type} {value : List Char} {read : Option (α × ℕ)} {read' : Option (α × List Char)}
    (h : Reads value read read') (f : α → β) :
    Reads value (read.map fun x => (f x.1, x.2)) (read'.map fun x => (f x.1, x.2)) := by
  cases h with
  | none => exact .none
  | some hat => exact .some hat

/-- **A value.** -/
theorem parseValue_encode (h : At value cursor rest) : ∃ read, parseValue (encode value) cursor = some read ∧
    Reads value read ((parameterValue rest).map fun x => (String.ofList x.1, x.2)) := by
  have hquote : (encode value)[cursor]? = some 0x22 ↔ rest.head? = some '"' := getElem?_eq_iff '"' (by decide) h
  unfold parameterValue
  split
  · next rest =>
    rw [parseValue, if_pos (hquote.2 rfl)]
    obtain ⟨hnone, hsome⟩ := quotedLoop_encode (at_succ (by decide) h) []
    cases htext : quotedText rest with
    | none =>
      rw [hnone htext]
      exact ⟨_, rfl, .none⟩
    | some x =>
      obtain ⟨cursor', hat, hloop⟩ := hsome x.1 x.2 htext
      rw [hloop]
      dsimp only
      rw [nil_append, fromUtf8_encode]
      exact ⟨_, rfl, .some (skip_encode hat)⟩
  · next hplain =>
    have hnot : ¬ (encode value)[cursor]? = some 0x22 := by
      intro hhead
      cases rest with
      | nil => cases hquote.1 hhead
      | cons c rest =>
        cases hquote.1 hhead
        exact hplain rest rfl
    have hend := h.scan scans_semicolon
    rw [← takeWhile_append_dropWhile (p := (· != ';')) (l := rest)] at h
    rw [parseValue, if_neg hnot]
    dsimp only
    rw [sliceText_encode h hend, Option.map_some, utf8_ofList, all_isTokenByte]
    refine ⟨_, rfl, ?_⟩
    split
    · exact .none
    · exact .some hend

theorem parseParameter_encode (h : At value cursor rest) : ∃ read, parseParameter (encode value) cursor = some read ∧
    Reads value read (RustRest.parseParameter rest) := by
  have hend := h.scan scans_token
  have hequals := skip_encode hend
  have hname : scan isTokenByte (encode value) cursor = cursor ↔ rest.takeWhile isTokenChar = [] := by
    rw [scan_eq, h.drop, scans_token.takeWhile_encode, Nat.add_eq_left, length_eq_zero_iff]
    cases rest.takeWhile isTokenChar with
    | nil => exact iff_of_true rfl rfl
    | cons c name =>
      obtain ⟨b, others, hc, -⟩ := utf8EncodeChar_cases c
      rw [encode_cons, hc]
      exact iff_of_false nofun nofun
  rw [← takeWhile_append_dropWhile (p := isTokenChar) (l := rest)] at h
  have hsign : (encode value)[skipOptionalWhitespace (encode value) (scan isTokenByte (encode value) cursor)]? =
      some 0x3d ↔ (RustRest.skipOptionalWhitespace (rest.dropWhile isTokenChar)).head? = some '=' :=
    getElem?_eq_iff '=' (by decide) hequals
  unfold parseParameter RustRest.parseParameter
  dsimp only
  by_cases hnil : rest.takeWhile isTokenChar = []
  · rw [if_pos hnil, if_pos (hname.2 hnil)]
    exact ⟨_, rfl, .none⟩
  rw [if_neg hnil, if_neg fun heq => hnil (hname.1 heq), sliceText_encode h hend, Option.bind_some]
  by_cases hhead : (RustRest.skipOptionalWhitespace (rest.dropWhile isTokenChar)).head? = some '='
  · obtain ⟨rest', hcons⟩ := List.head?_eq_some_iff.1 hhead
    rw [if_neg (not_not.2 (hsign.2 hhead)), hcons]
    rw [hcons] at hequals
    obtain ⟨read, hread, hreads⟩ := parseValue_encode (skip_encode (at_succ (by decide) hequals))
    rw [hread]
    refine ⟨_, rfl, ?_⟩
    have hmap := hreads.map fun text => (toAsciiLowercase (String.ofList (rest.takeWhile isTokenChar)), text)
    rw [Option.map_map] at hmap
    exact hmap
  · rw [if_pos fun heq => hhead (hsign.1 heq)]
    split
    · next rest' hcons => exact absurd (hcons ▸ rfl) hhead
    · exact ⟨_, rfl, .none⟩

/-- **The parameters.** From a `;` on, or at the end. -/
theorem parseLoop_encode (h : At value cursor rest) (hrest : rest = [] ∨ rest.head? = some ';')
    (parameters : List (String × String)) :
    parseLoop (encode value) cursor parameters = some ((parseParameters rest).map (parameters ++ ·)) := by
  -- a `;`, and what comes after it
  have hturn : ∀ {cursor : ℕ} {c : Char} {rest : List Char}, At value cursor (c :: rest) →
      c :: rest = [] ∨ (c :: rest).head? = some ';' → cursor < (encode value).length ∧
        At value (skipOptionalWhitespace (encode value) (cursor + 1)) (RustRest.skipOptionalWhitespace rest) ∧
        ∃ read, parseParameter (encode value) (skipOptionalWhitespace (encode value) (cursor + 1)) = some read ∧
          Reads value read (RustRest.parseParameter (RustRest.skipOptionalWhitespace rest)) := by
    intro cursor c rest hat hhead
    obtain rfl : c = ';' := by simpa using hhead
    have hname := skip_encode (at_succ (by decide) hat)
    exact ⟨hat.lt_iff.2 (cons_ne_nil _ _), hname, parseParameter_encode hname⟩
  have hafter : ∀ {cursor : ℕ} {behind : List Char}, At value cursor behind →
      (cursor < (encode value).length ∧ (encode value)[cursor]? ≠ some 0x3b ↔
        ¬ (behind = [] ∨ behind.head? = some ';')) := by
    intro cursor behind hat
    have hsign : (encode value)[cursor]? = some 0x3b ↔ behind.head? = some ';' := getElem?_eq_iff ';' (by decide) hat
    rw [hat.lt_iff, not_or, ← not_congr hsign]
  fun_induction parseParameters rest generalizing cursor parameters with
  | case1 =>
    have hend : ¬ cursor < (encode value).length := fun hlt => h.lt_iff.1 hlt rfl
    rw [parseLoop, if_neg hend, Option.map_some, append_nil]
  | case2 c rest hblank =>
    obtain ⟨hlt, hname, -⟩ := hturn h hrest
    rw [parseLoop, if_pos hlt, if_pos (hname.eq_length_iff.2 hblank), Option.map_some, append_nil]
  | case3 c rest hblank hnone =>
    obtain ⟨hlt, hname, read, hread, hreads⟩ := hturn h hrest
    rw [hnone] at hreads
    cases hreads
    rw [parseLoop, if_pos hlt, if_neg fun heq => hblank (hname.eq_length_iff.1 heq)]
    split
    · next hpanic => cases hpanic.symm.trans hread
    · rfl
    · next hother => cases hother.symm.trans hread
  | case4 c rest hblank parameter behind hsome hbehind ih =>
    obtain ⟨hlt, hname, read, hread, hreads⟩ := hturn h hrest
    rw [hsome] at hreads
    cases hreads with
    | some hat =>
      rw [parseLoop, if_pos hlt, if_neg fun heq => hblank (hname.eq_length_iff.1 heq)]
      split
      · next hpanic => cases hpanic.symm.trans hread
      · next hnone => cases hnone.symm.trans hread
      · next hsome' =>
        cases hsome'.symm.trans hread
        rw [if_neg fun hno => (hafter hat).1 hno hbehind, ih hat hbehind, Option.map_map]
        simp only [Function.comp_def, append_assoc, singleton_append]
  | case5 c rest hblank parameter behind hsome hbehind =>
    obtain ⟨hlt, hname, read, hread, hreads⟩ := hturn h hrest
    rw [hsome] at hreads
    cases hreads with
    | some hat =>
      rw [parseLoop, if_pos hlt, if_neg fun heq => hblank (hname.eq_length_iff.1 heq)]
      split
      · next hpanic => cases hpanic.symm.trans hread
      · next hnone => cases hnone.symm.trans hread
      · next hsome' =>
        cases hsome'.symm.trans hread
        rw [if_pos ((hafter hat).2 hbehind), Option.map_none]

end Loops

theorem cursor_eq (value : String) :
    parseParameterizedValue value = some (RustRest.parseParameterizedValue value.toList) := by
  have hbytes : utf8 value = encode value.toList := utf8_eq_flatMap value
  have hstart := At.start value.toList
  have hend := hstart.scan scans_semicolon
  have hrest : value.toList.dropWhile (· != ';') = [] ∨ (value.toList.dropWhile (· != ';')).head? = some ';' := by
    refine or_iff_not_imp_left.2 fun hne => ?_
    have hhead := head_dropWhile_not (· != ';') hne
    rw [List.head?_eq_some_head hne]
    exact congrArg some (by simpa using hhead)
  have hslice : sliceText (encode value.toList) 0 (scan (· != 0x3b) (encode value.toList) 0) =
      some (value.toList.takeWhile (· != ';')) := by
    refine sliceText_encode ?_ hend
    rw [takeWhile_append_dropWhile]
    exact hstart
  unfold parseParameterizedValue RustRest.parseParameterizedValue
  rw [hbytes]
  dsimp only
  rw [hslice, Option.bind_some]
  split
  · rfl
  · rw [parseLoop_encode hend hrest, Option.map_some, Option.map_map]
    simp only [Function.comp_def, nil_append]

end Cursor

/-! ## Quoted parameters -/

structure WrittenParameter where
  beforeSemicolon : List Char
  afterSemicolon : List Char
  name : List Char
  beforeEquals : List Char
  afterEquals : List Char
  value : List Char

structure WrittenParameter.WellFormed (p : WrittenParameter) : Prop where
  beforeSemicolon : Blank p.beforeSemicolon
  afterSemicolon : Blank p.afterSemicolon
  name_ne : p.name ≠ []
  name : ∀ c ∈ p.name, isTokenChar c = true
  beforeEquals : Blank p.beforeEquals
  afterEquals : Blank p.afterEquals
  value : ∀ c ∈ p.value, isQuotedTextChar c = true

def WrittenParameter.write (p : WrittenParameter) (behind : List Char) : List Char :=
  p.name ++ (p.beforeEquals ++ '=' :: (p.afterEquals ++ '"' :: (escapeQuoted p.value ++ '"' :: behind)))

/-- Parameters, each after a `;`. -/
def writeParameters (trailing : List Char) : List WrittenParameter → List Char
  | [] => trailing
  | p :: parameters =>
    p.beforeSemicolon ++ ';' :: (p.afterSemicolon ++ p.write (writeParameters trailing parameters))

def writtenPairs (parameters : List WrittenParameter) : List (String × String) :=
  parameters.map fun p => (toAsciiLowercase (String.ofList p.name), String.ofList p.value)

section Written

variable {trailing : List Char} {parameters : List WrittenParameter}

theorem writeParameters_split (htrailing : Blank trailing) (h : ∀ p ∈ parameters, p.WellFormed) :
    ∃ blank rest, writeParameters trailing parameters = blank ++ rest ∧ Blank blank ∧
      (rest = [] ∨ rest.head? = some ';') ∧ skipOptionalWhitespace (writeParameters trailing parameters) = rest := by
  cases parameters with
  | nil =>
    refine ⟨trailing, [], (append_nil _).symm, htrailing, .inl rfl, ?_⟩
    have hskip := htrailing.skip []
    rw [append_nil] at hskip
    exact hskip
  | cons p parameters =>
    have hblank := (h p mem_cons_self).beforeSemicolon
    refine ⟨p.beforeSemicolon, _, rfl, hblank, .inr rfl, ?_⟩
    rw [writeParameters, hblank.skip, skipOptionalWhitespace_cons (by decide)]

theorem parseParameters_written (htrailing : Blank trailing) (h : ∀ p ∈ parameters, p.WellFormed) :
    parseParameters (skipOptionalWhitespace (writeParameters trailing parameters)) = some (writtenPairs parameters) := by
  induction parameters with
  | nil =>
    have hskip := htrailing.skip []
    rw [append_nil] at hskip
    rw [writeParameters, hskip, skipOptionalWhitespace, dropWhile_nil, parseParameters]
    rfl
  | cons p parameters ih =>
    have hp := h p mem_cons_self
    have hrest : ∀ q ∈ parameters, q.WellFormed := fun q hq => h q (mem_cons_of_mem _ hq)
    obtain ⟨-, rest, -, -, hbehind, hskip⟩ := writeParameters_split htrailing hrest
    have hname : skipOptionalWhitespace (p.afterSemicolon ++ p.write (writeParameters trailing parameters)) =
        p.write (writeParameters trailing parameters) := by
      rw [hp.afterSemicolon.skip]
      exact skipOptionalWhitespace_token hp.name_ne hp.name _
    have hne : p.write (writeParameters trailing parameters) ≠ [] := by simp [WrittenParameter.write]
    have hparameter : parseParameter (p.write (writeParameters trailing parameters)) =
        some ((toAsciiLowercase (String.ofList p.name), String.ofList p.value), rest) := by
      rw [← hskip]
      exact parseParameter_written hp.name_ne hp.name hp.beforeEquals hp.afterEquals hp.value _
    rw [writeParameters, hp.beforeSemicolon.skip, skipOptionalWhitespace_cons (by decide), parseParameters, hname,
      if_neg hne]
    split
    · next hnone => cases hparameter.symm.trans hnone
    · next parameter behind hsome =>
      cases hparameter.symm.trans hsome
      rw [if_pos hbehind, ← hskip, ih hrest]
      rfl

theorem Blank.isWhitespace {blank : List Char} (h : Blank blank) : ∀ c ∈ blank, isWhitespace c = true := by
  intro c hc
  rcases h c hc with rfl | rfl
  · rfl
  · rfl

theorem parseParameterizedValue_written {base : List Char} (hne : base ≠ []) (hbase : trim base = base)
    (hsemicolon : ';' ∉ base) (htrailing : Blank trailing) (h : ∀ p ∈ parameters, p.WellFormed) :
    parseParameterizedValue (base ++ writeParameters trailing parameters) =
      some (String.ofList base, writtenPairs parameters) := by
  obtain ⟨blank, rest, hsplit, hblank, hrest, hskip⟩ := writeParameters_split htrailing h
  have hfree : ∀ c ∈ base ++ blank, (c != ';') = true := by
    intro c hc
    rw [bne_iff_ne]
    rintro rfl
    rcases mem_append.1 hc with hc | hc
    · exact hsemicolon hc
    · rcases hblank _ hc with heq | heq
      · cases heq
      · cases heq
  have hends : rest.takeWhile (· != ';') = [] ∧ rest.dropWhile (· != ';') = rest := by
    cases rest with
    | nil => exact ⟨rfl, rfl⟩
    | cons c rest =>
      obtain rfl : c = ';' := by simpa using hrest
      exact ⟨takeWhile_cons_of_neg (by decide), dropWhile_cons_of_neg (by decide)⟩
  have hread := parseParameters_written htrailing h
  rw [hskip] at hread
  unfold parseParameterizedValue
  rw [hsplit, ← append_assoc, takeWhile_append_of_pos hfree, dropWhile_append_of_pos hfree, hends.1,
    hends.2, append_nil, trim_append_right hblank.isWhitespace, hbase]
  dsimp only
  rw [if_neg hne, hread, Option.map_some]

end Written

/-- **Parameterized values.** On any text the function returns without a panic, for all its slices are between
characters, and it does what the function on characters does. Any base value, with any quoted parameters and any blanks
around the separators, is read back, with the names of the parameters in lower case. -/
theorem parameterized_value :
    (∀ value : String, Cursor.parseParameterizedValue value = some (parseParameterizedValue value.toList)) ∧
    ∀ (base trailing : List Char) (parameters : List WrittenParameter), base ≠ [] → trim base = base → ';' ∉ base →
      Blank trailing → (∀ p ∈ parameters, p.WellFormed) →
      Cursor.parseParameterizedValue (String.ofList (base ++ writeParameters trailing parameters)) =
        some (some (String.ofList base, writtenPairs parameters)) := by
  refine ⟨Cursor.cursor_eq, fun base trailing parameters hne hbase hsemicolon htrailing h => ?_⟩
  rw [Cursor.cursor_eq, String.toList_ofList, parseParameterizedValue_written hne hbase hsemicolon htrailing h]

/-- A value with one parameter, whose text has a quote and a character of two bytes. -/
theorem parameterized_value_one :
    Cursor.parseParameterizedValue "form-data ;\tName= \"\\\"ñ\" " = some (some ("form-data", [("name", "\"ñ")])) := by
  have hread := parameterized_value.2 "form-data".toList " ".toList
    [⟨" ".toList, "\t".toList, "Name".toList, [], " ".toList, "\"ñ".toList⟩] (by decide) (by decide) (by decide)
    (by simp [Blank]) ?_
  · exact hread
  · intro p hp
    rw [mem_singleton.1 hp]
    exact ⟨by simp [Blank], by simp [Blank], by decide, all_eq_true.1 (by decide), Blank.nil, by simp [Blank],
      all_eq_true.1 (by decide)⟩

end RustRest
