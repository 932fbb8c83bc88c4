import Mathlib

/-!
# Characters, UTF-8 and percent encoding

The parts of Rust's `char` and `str` and of the `percent_encoding` crate that the router works with. Strings are
Lean strings; where the source works on the bytes of a string, `utf8` gives them.
-/

namespace RustRest

open List

theorem bind_eq_ok {ε α β : Type} {x : Except ε α} {f : α → Except ε β} {b : β} :
    (x >>= f) = .ok b ↔ ∃ a, x = .ok a ∧ f a = .ok b := by
  cases x with
  | error e =>
    constructor
    · intro h; cases h
    · rintro ⟨_, h, _⟩; cases h
  | ok a =>
    constructor
    · intro h; exact ⟨a, rfl, h⟩
    · rintro ⟨_, h, hf⟩; cases h; exact hf

theorem bind_unit_eq_ok {ε β : Type} {x : Except ε Unit} {f : Unit → Except ε β} {b : β} :
    (x >>= f) = .ok b ↔ x = .ok () ∧ f () = .ok b :=
  bind_eq_ok.trans ⟨fun ⟨_, hx, hf⟩ => ⟨hx, hf⟩, fun ⟨hx, hf⟩ => ⟨(), hx, hf⟩⟩

/-! ## Characters -/

/-- `char::is_control`: the Unicode category `Cc`. -/
def isControl (c : Char) : Bool := c.toNat < 0x20 || (0x7F ≤ c.toNat && c.toNat < 0xA0)

def isWhitespace (c : Char) : Bool :=
  let n := c.toNat
  (0x09 ≤ n && n ≤ 0x0D) || n == 0x20 || n == 0x85 || n == 0xA0 || n == 0x1680 || (0x2000 ≤ n && n ≤ 0x200A) ||
    n == 0x2028 || n == 0x2029 || n == 0x202F || n == 0x205F || n == 0x3000

def isTokenChar (c : Char) : Bool := c.isAlphanum || "!#$%&'*+-.^_`|~".toList.contains c

def trim (s : List Char) : List Char := ((s.dropWhile isWhitespace).reverse.dropWhile isWhitespace).reverse

def splitOnce (c : Char) (s : List Char) : Option (List Char × List Char) :=
  match s.dropWhile (· != c) with
  | [] => none
  | _ :: after => some (s.takeWhile (· != c), after)

def rsplitOnce (c : Char) (s : List Char) : Option (List Char × List Char) :=
  (splitOnce c s.reverse).map fun x => (x.2.reverse, x.1.reverse)

def eqIgnoreAsciiCase (s t : String) : Bool := s.toList.map Char.toLower == t.toList.map Char.toLower

def toAsciiLowercase (s : String) : String := String.ofList (s.toList.map Char.toLower)

/-! ### Letter case -/

variable {c : Char}

theorem toLower_of_not_isUpper (h : c.isUpper = false) : c.toLower = c :=
  dif_neg (of_decide_eq_false h)

theorem forall_ascii {P : Char → Prop} (h : ∀ n < 128, P (Char.ofNat n)) (hc : c.toNat < 128) : P c :=
  Char.ofNat_toNat c ▸ h c.toNat hc

theorem isUpper_toLower (c : Char) : c.toLower.isUpper = false := by
  by_cases hc : c.toNat < 128
  · exact forall_ascii (P := fun c => c.toLower.isUpper = false) (by decide +kernel) hc
  · have hnot : c.isUpper = false := by
      refine decide_eq_false fun h => hc ?_
      have hle : c.toNat ≤ 90 := h.2
      omega
    rw [toLower_of_not_isUpper hnot, hnot]

theorem toLower_toLower (c : Char) : c.toLower.toLower = c.toLower := toLower_of_not_isUpper (isUpper_toLower c)

theorem eq_of_toLower_eq {c d : Char} (hd : d.isAlpha = false) (h : c.toLower = d) : c = d := by
  cases hupper : c.isUpper with
  | false => rw [← h, toLower_of_not_isUpper hupper]
  | true =>
    have hlt : c.toNat < 128 := by
      rw [Char.isUpper, decide_eq_true_eq] at hupper
      exact Nat.lt_of_le_of_lt (UInt32.le_iff_toNat_le.1 hupper.2) (by decide)
    have halpha : c.isUpper = true → c.toLower.isAlpha = true :=
      forall_ascii (P := fun c => c.isUpper = true → c.toLower.isAlpha = true) (by decide +kernel) hlt
    rw [h, hd] at halpha
    exact absurd (halpha hupper) Bool.false_ne_true

theorem eqIgnoreAsciiCase_iff {s t : String} :
    eqIgnoreAsciiCase s t = true ↔ toAsciiLowercase s = toAsciiLowercase t := by
  rw [eqIgnoreAsciiCase, beq_iff_eq, toAsciiLowercase, toAsciiLowercase, String.ofList_inj]

@[simp] theorem toAsciiLowercase_toAsciiLowercase (s : String) :
    toAsciiLowercase (toAsciiLowercase s) = toAsciiLowercase s := by
  rw [toAsciiLowercase, toAsciiLowercase, String.toList_ofList, map_map]
  exact congrArg _ (map_congr_left fun c _ => toLower_toLower c)

/-! ### Token characters -/

theorem toNat_lt_of_isAlphanum (h : c.isAlphanum = true) : c.toNat < 128 := by
  simp only [Char.isAlphanum, Char.isAlpha, Char.isUpper, Char.isLower, Char.isDigit, Bool.or_eq_true,
    decide_eq_true_eq, UInt32.le_iff_toNat_le, ge_iff_le, Bool.and_eq_true] at h
  have hval : c.toNat = c.val.toNat := rfl
  have hZ : 'Z'.val.toNat = 90 := rfl
  have hz : 'z'.val.toNat = 122 := rfl
  have h9 : '9'.val.toNat = 57 := rfl
  omega

theorem toNat_lt_of_contains {signs : List Char} (hsigns : (signs.all fun d => d.toNat < 128) = true)
    (h : signs.contains c = true) : c.toNat < 128 :=
  of_decide_eq_true (all_eq_true.1 hsigns c (contains_iff_mem.1 h))

theorem toNat_lt_of_isTokenChar (h : isTokenChar c = true) : c.toNat < 128 := by
  rcases Bool.or_eq_true_iff.1 h with hletter | hsign
  · exact toNat_lt_of_isAlphanum hletter
  · exact toNat_lt_of_contains (by decide) hsign

theorem isTokenChar_cases (h : isTokenChar c = true) :
    isTokenChar c.toLower = true ∧ isControl c = false ∧ isWhitespace c = false :=
  forall_ascii (P := fun c => isTokenChar c = true → isTokenChar c.toLower = true ∧ isControl c = false ∧
    isWhitespace c = false) (by decide +kernel) (toNat_lt_of_isTokenChar h) h

theorem isTokenChar_toLower (h : isTokenChar c = true) : isTokenChar c.toLower = true :=
  (isTokenChar_cases h).1

theorem isControl_of_isTokenChar (h : isTokenChar c = true) : isControl c = false :=
  (isTokenChar_cases h).2.1

theorem isWhitespace_of_isTokenChar (h : isTokenChar c = true) : isWhitespace c = false :=
  (isTokenChar_cases h).2.2

/-! ### Bare texts and their parts -/

/-- No white space at the ends. -/
def Bare (s : List Char) : Prop :=
  (∀ c ∈ s.head?, isWhitespace c = false) ∧ ∀ c ∈ s.getLast?, isWhitespace c = false

theorem trim_eq_rdropWhile (s : List Char) : trim s = (s.dropWhile isWhitespace).rdropWhile isWhitespace := rfl

variable {s : List Char}

theorem trim_of_bare (h : Bare s) : trim s = s := by
  have hhead : s.dropWhile isWhitespace = s := by
    cases s with
    | nil => rfl
    | cons c s => rw [dropWhile_cons, h.1 c rfl, if_neg Bool.false_ne_true]
  rw [trim_eq_rdropWhile, hhead, rdropWhile_eq_self_iff]
  intro hne
  rw [h.2 _ (List.getLast?_eq_some_getLast hne)]
  exact Bool.false_ne_true

theorem bare_trim (s : List Char) : Bare (trim s) := by
  refine ⟨fun c hc => ?_, fun c hc => ?_⟩
  · obtain ⟨rest, hrest⟩ := rdropWhile_prefix isWhitespace (l := s.dropWhile isWhitespace)
    have hhead : (s.dropWhile isWhitespace).head? = some c := by
      have hfirst : (List.rdropWhile isWhitespace (s.dropWhile isWhitespace)).head? = some c := hc
      rw [← hrest, List.head?_append, hfirst]
      rfl
    simpa [hhead] using List.head?_dropWhile_not isWhitespace s
  · rw [trim, List.getLast?_reverse] at hc
    have := List.head?_dropWhile_not isWhitespace (List.dropWhile isWhitespace s).reverse
    rw [hc] at this
    simpa using this

theorem mem_of_mem_trim (h : c ∈ trim s) : c ∈ s :=
  (dropWhile_sublist _).subset (( rdropWhile_prefix _ _).subset h)

theorem bare_of_forall (h : ∀ c ∈ s, isWhitespace c = false) : Bare s :=
  ⟨fun c hc => h c (mem_of_head? hc), fun c hc => h c (mem_of_getLast? hc)⟩

theorem trim_space_cons (s : List Char) : trim (' ' :: s) = trim s := rfl

theorem Bare.append_cons {n v : List Char} (hn : Bare n) (hv : Bare v)
    (hc : isWhitespace c = false) : Bare (n ++ c :: v) := by
  refine ⟨fun d hd => ?_, fun d hd => ?_⟩
  · cases n with
    | nil => cases hd; exact hc
    | cons e n => exact hn.1 d hd
  · rw [List.getLast?_append_cons] at hd
    cases v with
    | nil => cases hd; exact hc
    | cons e v =>
      rw [List.getLast?_cons_cons] at hd
      exact hv.2 d hd

theorem splitOnce_eq_some {s before after : List Char} (h : splitOnce c s = some (before, after)) :
    s = before ++ c :: after ∧ c ∉ before := by
  unfold splitOnce at h
  split at h
  · cases h
  · next d after' hdrop =>
    cases h
    have hd : d = c := by
      have hnot := List.head?_dropWhile_not (· != c) s
      rw [hdrop] at hnot
      simpa using hnot
    subst hd
    refine ⟨?_, fun hmem => ?_⟩
    · rw [← hdrop, takeWhile_append_dropWhile]
    · exact absurd (mem_takeWhile_imp hmem) (by simp)

theorem takeWhile_bne_append {before : List Char} (h : c ∉ before) (after : List Char) :
    (before ++ c :: after).takeWhile (· != c) = before := by
  have hne : ∀ d ∈ before, (d != c) = true := fun d hd => bne_iff_ne.2 fun heq => h (heq ▸ hd)
  rw [takeWhile_append_of_pos hne, takeWhile_cons_of_neg (by simp), append_nil]

theorem dropWhile_bne_append {before : List Char} (h : c ∉ before) (after : List Char) :
    (before ++ c :: after).dropWhile (· != c) = c :: after := by
  have hne : ∀ d ∈ before, (d != c) = true := fun d hd => bne_iff_ne.2 fun heq => h (heq ▸ hd)
  rw [dropWhile_append_of_pos hne, dropWhile_cons_of_neg (by simp)]

theorem splitOnce_append {before : List Char} (h : c ∉ before) (after : List Char) :
    splitOnce c (before ++ c :: after) = some (before, after) := by
  unfold splitOnce
  rw [dropWhile_bne_append h, takeWhile_bne_append h]

theorem rsplitOnce_append {after : List Char} (h : c ∉ after) (before : List Char) :
    rsplitOnce c (before ++ c :: after) = some (before, after) := by
  have hreverse : (before ++ c :: after).reverse = after.reverse ++ c :: before.reverse := by simp
  rw [rsplitOnce, hreverse, splitOnce_append (by simpa using h), Option.map_some, reverse_reverse,
    reverse_reverse]

theorem rsplitOnce_eq_some {s before after : List Char} (h : rsplitOnce c s = some (before, after)) :
    s = before ++ c :: after := by
  obtain ⟨⟨front, back⟩, hsplit, hparts⟩ := Option.map_eq_some_iff.1 h
  obtain ⟨rfl, rfl⟩ := Prod.mk.inj hparts
  rw [← reverse_inj, (splitOnce_eq_some hsplit).1]
  simp

theorem splitOnce_eq_none (h : splitOnce c s = none) : c ∉ s := by
  intro hmem
  obtain ⟨before, after, rfl, hbefore⟩ := eq_append_cons_of_mem hmem
  rw [splitOnce_append hbefore] at h
  exact nomatch h

theorem trim_append_left {blank : List Char} (h : ∀ c ∈ blank, isWhitespace c = true) (s : List Char) :
    trim (blank ++ s) = trim s := by
  rw [trim, dropWhile_append_of_pos h, trim]

theorem trim_append_right {blank : List Char} (h : ∀ c ∈ blank, isWhitespace c = true) (s : List Char) :
    trim (s ++ blank) = trim s := by
  unfold trim
  rw [dropWhile_append]
  split
  · next hempty =>
    rw [isEmpty_iff.1 hempty, dropWhile_eq_nil_iff.2 h]
  · rw [reverse_append, dropWhile_append_of_pos fun c hc => h c (mem_reverse.1 hc)]

theorem trim_dropWhile (s : List Char) : trim (s.dropWhile isWhitespace) = trim s := by
  have hblank : ∀ c ∈ s.takeWhile isWhitespace, isWhitespace c = true := fun c hc => mem_takeWhile_imp hc
  rw [← trim_append_left hblank, takeWhile_append_dropWhile]

theorem trim_rdropWhile (s : List Char) : trim (s.rdropWhile isWhitespace) = trim s := by
  have hblank : ∀ c ∈ s.rtakeWhile isWhitespace, isWhitespace c = true := fun c hc => mem_rtakeWhile_imp hc
  rw [← trim_append_right hblank, rdropWhile_append_rtakeWhile]

theorem dropWhile_append_cons {p : Char → Bool} (hc : p c = false) (s t : List Char) :
    (s ++ c :: t).dropWhile p = s.dropWhile p ++ c :: t := by
  rw [dropWhile_append]
  split
  · next hempty => rw [isEmpty_iff.1 hempty, nil_append, dropWhile_cons_of_neg (by simp [hc])]
  · rfl

theorem trim_append_cons (hc : isWhitespace c = false) (s t : List Char) :
    trim (s ++ c :: t) = s.dropWhile isWhitespace ++ c :: t.rdropWhile isWhitespace := by
  have hreverse : (s.dropWhile isWhitespace ++ c :: t).reverse =
      t.reverse ++ c :: (s.dropWhile isWhitespace).reverse := by simp
  rw [trim, dropWhile_append_cons hc, hreverse, dropWhile_append_cons hc, reverse_append, reverse_cons,
    reverse_reverse, append_assoc, singleton_append, List.rdropWhile]

theorem mem_trim_iff (hc : isWhitespace c = false) : c ∈ trim s ↔ c ∈ s := by
  refine ⟨mem_of_mem_trim, fun hmem => ?_⟩
  obtain ⟨before, after, rfl⟩ := append_of_mem hmem
  rw [trim_append_cons hc]
  exact mem_append_right _ mem_cons_self

theorem splitOnce_of_not_mem (h : c ∉ s) : splitOnce c s = none := by
  cases hsplit : splitOnce c s with
  | none => rfl
  | some x =>
    have hs := (splitOnce_eq_some hsplit).1
    exact absurd (hs ▸ mem_append_right _ mem_cons_self) h

theorem splitOnce_trim (hc : isWhitespace c = false) (s : List Char) : splitOnce c (trim s) =
    (splitOnce c s).map fun x => (x.1.dropWhile isWhitespace, x.2.rdropWhile isWhitespace) := by
  cases hsplit : splitOnce c s with
  | none =>
    have hnot := splitOnce_eq_none hsplit
    rw [splitOnce_of_not_mem fun hmem => hnot ((mem_trim_iff hc).1 hmem)]
    rfl
  | some x =>
    obtain ⟨before, after⟩ := x
    obtain ⟨rfl, hbefore⟩ := splitOnce_eq_some hsplit
    have hfront : c ∉ before.dropWhile isWhitespace := fun hmem =>
      hbefore ((dropWhile_sublist _).subset hmem)
    rw [trim_append_cons hc, splitOnce_append hfront]
    rfl

theorem map_splitOn_intercalate {β : Type} (hc : c ≠ ' ') {f : List Char → β}
    (hf : ∀ s, f (' ' :: s) = f s) : ∀ {parts : List (List Char)}, parts ≠ [] → (∀ part ∈ parts, c ∉ part) →
    (([c, ' '].intercalate parts).splitOn c).map f = parts.map f
  | [part], _, h => by
    rw [intercalate_singleton, splitOn_eq_singleton (h part mem_cons_self)]
  | part :: next :: rest, _, h => by
    have ih : (([c, ' '].intercalate (next :: rest)).splitOn c).map f = (next :: rest).map f :=
      map_splitOn_intercalate hc hf (cons_ne_nil _ _) fun part hpart => h part (mem_cons_of_mem _ hpart)
    have hhead : ∀ l : List (List Char), (l.modifyHead (List.cons ' ')).map f = l.map f := by
      intro l
      cases l with
      | nil => rfl
      | cons s l => rw [modifyHead_cons, map_cons, hf, map_cons]
    rw [intercalate_cons_cons, append_assoc, cons_append, singleton_append,
      splitOn_append_cons_self_of_not_mem (h part mem_cons_self), map_cons,
      splitOn_cons_eq_if_modifyHead, if_neg (by simpa using Ne.symm hc), hhead, ih]
    rfl

/-! ## Bytes -/

/-- `str::as_bytes`. -/
def utf8 (s : String) : List UInt8 := s.toUTF8.data.toList

theorem utf8_injective {s t : String} (h : utf8 s = utf8 t) : s = t := by
  apply String.toByteArray_inj.1
  exact ByteArray.ext (Array.toList_inj.1 h)

def fromUtf8 (bytes : List UInt8) : Option String := String.fromUTF8? ⟨bytes.toArray⟩

theorem utf8_eq_flatMap (s : String) : utf8 s = s.toList.flatMap String.utf8EncodeChar := by
  conv_lhs => rw [← String.ofList_toList (s := s)]
  exact toList_data_toByteArray

theorem utf8_append (s t : String) : utf8 (s ++ t) = utf8 s ++ utf8 t := by
  rw [utf8_eq_flatMap, String.toList_append, flatMap_append, ← utf8_eq_flatMap, ← utf8_eq_flatMap]

theorem fromUtf8_utf8 (s : String) : fromUtf8 (utf8 s) = some s := by
  unfold fromUtf8 utf8
  simp only [String.fromUTF8?, String.toUTF8_eq_toByteArray]
  rw [dif_pos]
  · rfl
  · exact s.isValidUTF8

theorem utf8_of_fromUtf8 {bytes : List UInt8} {s : String} (h : fromUtf8 bytes = some s) : utf8 s = bytes := by
  unfold fromUtf8 String.fromUTF8? at h
  split at h
  · cases h
    rfl
  · exact nomatch h

theorem ofNat_of_mem_utf8EncodeChar {b : UInt8} (h : b ∈ String.utf8EncodeChar c) (hb : b.toNat < 0x80) :
    Char.ofNat b.toNat = c := by
  unfold String.utf8EncodeChar at h
  dsimp only at h
  have hsmall : ∀ n : ℕ, 128 ≤ n → n < 256 → b ≠ UInt8.ofNat n := by
    rintro n hle hlt rfl
    rw [UInt8.toNat_ofNat', Nat.mod_eq_of_lt hlt] at hb
    omega
  split at h
  · next hv =>
    rw [mem_singleton.1 h, UInt8.toNat_ofNat', Nat.mod_eq_of_lt (by omega)]
    exact Char.ofNat_toNat c
  · exfalso
    split at h
    · simp only [mem_cons, not_mem_nil, or_false] at h
      rcases h with h | h <;> exact hsmall _ (by omega) (by omega) h
    · split at h
      · simp only [mem_cons, not_mem_nil, or_false] at h
        rcases h with h | h | h <;> exact hsmall _ (by omega) (by omega) h
      · simp only [mem_cons, not_mem_nil, or_false] at h
        rcases h with h | h | h | h <;> exact hsmall _ (by omega) (by omega) h

theorem utf8EncodeChar_ascii (h : c.toNat < 128) :
    String.utf8EncodeChar c = [UInt8.ofNat c.toNat] ∧ Char.ofNat (UInt8.ofNat c.toNat).toNat = c :=
  forall_ascii (P := fun c => String.utf8EncodeChar c = [UInt8.ofNat c.toNat] ∧
    Char.ofNat (UInt8.ofNat c.toNat).toNat = c) (by decide +kernel) h

theorem toNat_ofNat_byte (b : UInt8) : (Char.ofNat b.toNat).toNat = b.toNat := by
  rw [Char.toNat_ofNat, if_pos (Or.inl (by have := b.toNat_lt; omega))]

theorem utf8EncodeChar_ofNat {b : UInt8} (h : b.toNat < 128) : String.utf8EncodeChar (Char.ofNat b.toNat) = [b] := by
  have hnat := toNat_ofNat_byte b
  rw [(utf8EncodeChar_ascii (by omega)).1, hnat, UInt8.ofNat_toNat]

theorem mem_of_mem_utf8 {s : String} {b : UInt8} (h : b ∈ utf8 s) (hb : b.toNat < 0x80) :
    Char.ofNat b.toNat ∈ s.toList := by
  rw [utf8_eq_flatMap] at h
  obtain ⟨c, hc, hbytes⟩ := mem_flatMap.1 h
  rw [ofNat_of_mem_utf8EncodeChar hbytes hb]
  exact hc

theorem forall_byte {P : UInt8 → Prop} (h : ∀ n < 256, P (UInt8.ofNat n)) (byte : UInt8) : P byte :=
  UInt8.ofNat_toNat (x := byte) ▸ h byte.toNat byte.toNat_lt

def isAsciiHexdigit (b : UInt8) : Bool :=
  (0x30 ≤ b && b ≤ 0x39) || (0x41 ≤ b && b ≤ 0x46) || (0x61 ≤ b && b ≤ 0x66)

def hexValue (b : UInt8) : UInt8 :=
  if b ≤ 0x39 then b - 0x30 else if b ≤ 0x46 then b - 0x41 + 10 else b - 0x61 + 10

def hexDigit (n : Nat) : Char := Char.ofNat (if n < 10 then 0x30 + n else 0x41 + (n - 10))

def isAsciiAlphanumeric (b : UInt8) : Bool :=
  (0x30 ≤ b && b ≤ 0x39) || (0x41 ≤ b && b ≤ 0x5A) || (0x61 ≤ b && b ≤ 0x7A)

theorem isAsciiAlphanumeric_of_isAsciiHexdigit {b : UInt8} (h : isAsciiHexdigit b = true) :
    isAsciiAlphanumeric b = true := by
  simp only [isAsciiHexdigit, isAsciiAlphanumeric, Bool.or_eq_true, Bool.and_eq_true, decide_eq_true_eq,
    UInt8.le_iff_toNat_le, UInt8.reduceToNat] at h ⊢
  omega

/-! ### Slices -/

namespace Checked

def sliceFrom (bytes : List UInt8) (a : ℕ) : Option (List UInt8) :=
  if a ≤ bytes.length then some (bytes.drop a) else none

def sliceBetween (bytes : List UInt8) (a b : ℕ) : Option (List UInt8) :=
  if a ≤ b ∧ b ≤ bytes.length then some ((bytes.drop a).take (b - a)) else none

theorem sliceFrom_eq {bytes : List UInt8} {a : ℕ} (h : a ≤ bytes.length) : sliceFrom bytes a = some (bytes.drop a) :=
  if_pos h

theorem sliceBetween_eq {bytes : List UInt8} {a b : ℕ} (h : a ≤ b) (h' : b ≤ bytes.length) :
    sliceBetween bytes a b = some ((bytes.drop a).take (b - a)) := if_pos ⟨h, h'⟩

end Checked

/-! ## Numbers -/

/-- `u64::to_string`. -/
def decimalText (n : ℕ) : String := String.ofList (Nat.toDigits 10 n)

/-- A number without its plus sign. -/
def dropPlus : List Char → List Char
  | '+' :: digits => digits
  | digits => digits

def parseU64 (text : List Char) : Option ℕ :=
  let digits := dropPlus text
  if digits ≠ [] ∧ digits.all Char.isDigit ∧ Nat.ofDigitChars 10 digits 0 < 2 ^ 64 then
    some (Nat.ofDigitChars 10 digits 0)
  else none

def IsNumber (text : List Char) (n : ℕ) : Prop :=
  text ≠ [] ∧ text.all Char.isDigit = true ∧ Nat.ofDigitChars 10 text 0 = n

variable {text : List Char}

theorem isNumber_ne_plus {n : ℕ} (h : IsNumber text n) (digits : List Char) :
    text ≠ '+' :: digits := by
  rintro rfl
  exact absurd (all_eq_true.1 h.2.1 '+' mem_cons_self) (by decide)

theorem dropPlus_of_isNumber {n : ℕ} (h : IsNumber text n) : dropPlus text = text := by
  unfold dropPlus
  split
  · next digits => exact absurd rfl (isNumber_ne_plus h digits)
  · rfl

theorem parseU64_of_isNumber {n : ℕ} (h : IsNumber text n) :
    parseU64 text = if n < 2 ^ 64 then some n else none := by
  unfold parseU64
  rw [dropPlus_of_isNumber h]
  obtain ⟨hne, hall, rfl⟩ := h
  simp [hne, hall]

theorem trim_of_digits (h : ∀ c ∈ text, c.isDigit = true) : trim text = text :=
  trim_of_bare (bare_of_forall fun c hc => isWhitespace_of_isTokenChar (by simp [isTokenChar, Char.isAlphanum, h c hc]))

/-! ## Percent encoding -/

def percentDecode : List UInt8 → List UInt8
  | [] => []
  | [a] => [a]
  | [a, b] => [a, b]
  | a :: b :: c :: rest =>
    if a = 0x25 ∧ isAsciiHexdigit b ∧ isAsciiHexdigit c then (hexValue b * 16 + hexValue c) :: percentDecode rest
    else a :: percentDecode (b :: c :: rest)

/-- The scan shared by `validate_percent_triplets` and `decode_route_static_segment`: every `%` is followed by two
hexadecimal digits. -/
def percentTriplets : List UInt8 → Bool
  | [] => true
  | [a] => a != 0x25
  | [a, b] => a != 0x25 && b != 0x25
  | a :: b :: c :: rest =>
    if a = 0x25 then isAsciiHexdigit b && isAsciiHexdigit c && percentTriplets rest
    else percentTriplets (b :: c :: rest)

/-- All bytes but the unreserved are escaped. -/
def encodePathSegment (input : String) : String :=
  String.ofList ((utf8 input).flatMap (fun byte =>
    if isAsciiAlphanumeric byte || byte == 0x2D || byte == 0x2E || byte == 0x5F || byte == 0x7E then
      [Char.ofNat byte.toNat]
    else ['%', hexDigit (byte.toNat / 16), hexDigit (byte.toNat % 16)]))

/-! ## Paths -/

/-- `path_segments`: the non-empty segments of a path. -/
def pathSegments (path : String) : List String :=
  ((path.toList.splitOn '/').map String.ofList).filter (fun s => s != "")

end RustRest
