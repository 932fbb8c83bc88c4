import Mathlib

/-!
# Positions in the bytes of a text

A scanner goes through the bytes of a text with a position, and takes slices of the text between two positions. A slice
is a text only when both are between characters.
-/

namespace Utf8Cursor

open List

/-- The bytes of a text. -/
def encode (s : List Char) : List UInt8 := s.flatMap String.utf8EncodeChar

def isContinuation (b : UInt8) : Bool := 0x80 ≤ b && b < 0xc0

def isBoundary (bytes : List UInt8) (i : ℕ) : Bool :=
  i == 0 || i == bytes.length || bytes[i]?.any fun b => !isContinuation b

def slice (bytes : List UInt8) (a b : ℕ) : Option (List UInt8) :=
  if a ≤ b ∧ b ≤ bytes.length ∧ isBoundary bytes a = true ∧ isBoundary bytes b = true then
    some ((bytes.drop a).take (b - a))
  else none

/-- Forward as long as the bytes have a property. -/
def scan (p : UInt8 → Bool) (bytes : List UInt8) (i : ℕ) : ℕ :=
  if h : i < bytes.length then if p bytes[i] then scan p bytes (i + 1) else i
  else i
termination_by bytes.length - i

/-! ## The bytes of a character -/

theorem encode_append (s t : List Char) : encode (s ++ t) = encode s ++ encode t := flatMap_append ..

theorem encode_cons (c : Char) (s : List Char) : encode (c :: s) = String.utf8EncodeChar c ++ encode s :=
  flatMap_cons ..

theorem utf8EncodeChar_cases (c : Char) : ∃ b rest, String.utf8EncodeChar c = b :: rest ∧ isContinuation b = false ∧
    (∀ b' ∈ rest, 0x80 ≤ b') ∧ (c.toNat < 128 → b.toNat = c.toNat ∧ rest = []) ∧ (128 ≤ c.toNat → 0x80 ≤ b) := by
  have hbyte : ∀ n : ℕ, n < 256 → (UInt8.ofNat n).toNat = n := fun n hn => by
    rw [UInt8.toNat_ofNat', Nat.mod_eq_of_lt hn]
  have hhigh : ∀ n : ℕ, 128 ≤ n → n < 256 → 0x80 ≤ UInt8.ofNat n := fun n hle hlt => by
    rw [UInt8.le_iff_toNat_le, hbyte n hlt]
    exact hle
  have hfirst : ∀ n : ℕ, n < 256 → n < 128 ∨ 192 ≤ n → isContinuation (UInt8.ofNat n) = false := fun n hlt hn => by
    unfold isContinuation
    rw [Bool.and_eq_false_iff, decide_eq_false_iff_not, decide_eq_false_iff_not, UInt8.le_iff_toNat_le,
      UInt8.lt_iff_toNat_lt, hbyte n hlt]
    show ¬ 128 ≤ n ∨ ¬ n < 192
    omega
  have hval : c.val.toNat = c.toNat := rfl
  unfold String.utf8EncodeChar
  rw [hval]
  dsimp only
  generalize c.toNat = v
  split
  · exact ⟨_, _, rfl, hfirst _ (by omega) (by omega), nofun, fun _ => ⟨hbyte _ (by omega), rfl⟩, by omega⟩
  · split
    · refine ⟨_, _, rfl, hfirst _ (by omega) (by omega), ?_, by omega, fun _ => hhigh _ (by omega) (by omega)⟩
      simp only [mem_cons, not_mem_nil, or_false, forall_eq]
      exact hhigh _ (by omega) (by omega)
    · split
      · refine ⟨_, _, rfl, hfirst _ (by omega) (by omega), ?_, by omega, fun _ => hhigh _ (by omega) (by omega)⟩
        simp only [mem_cons, not_mem_nil, or_false, forall_eq_or_imp, forall_eq]
        exact ⟨hhigh _ (by omega) (by omega), hhigh _ (by omega) (by omega)⟩
      · refine ⟨_, _, rfl, hfirst _ (by omega) (by omega), ?_, by omega, fun _ => hhigh _ (by omega) (by omega)⟩
        simp only [mem_cons, not_mem_nil, or_false, forall_eq_or_imp, forall_eq]
        exact ⟨hhigh _ (by omega) (by omega), hhigh _ (by omega) (by omega), hhigh _ (by omega) (by omega)⟩

/-! ## Boundaries and slices -/

/-- The position behind a part of the text. -/
theorem isBoundary_encode (before rest : List Char) :
    isBoundary (encode (before ++ rest)) (encode before).length = true := by
  unfold isBoundary
  cases rest with
  | nil => simp
  | cons c rest =>
    obtain ⟨b, others, hc, hfirst, -⟩ := utf8EncodeChar_cases c
    rw [encode_append, encode_cons, hc, List.getElem?_append_right le_rfl, Nat.sub_self]
    simp [hfirst]

theorem encode_eq_cons {value : List Char} {b : UInt8} {rest : List UInt8} (h : encode value = b :: rest)
    (hb : b < 0x80) : ∃ c t, value = c :: t ∧ c.toNat = b.toNat ∧ encode t = rest := by
  cases value with
  | nil => cases h
  | cons c value =>
    obtain ⟨b', others, hc, -, -, hlow, hhigh⟩ := utf8EncodeChar_cases c
    rw [encode_cons, hc, cons_append, List.cons.injEq] at h
    obtain ⟨rfl, h⟩ := h
    rcases Nat.lt_or_ge c.toNat 128 with hascii | hother
    · obtain ⟨hsame, rfl⟩ := hlow hascii
      exact ⟨c, value, rfl, hsame.symm, h⟩
    · exact absurd (hhigh hother) (UInt8.not_le.2 hb)

theorem encode_split {value : List Char} {before rest : List UInt8} (h : encode value = before ++ rest)
    (hrest : ∀ b ∈ rest.head?, b < 0x80) : ∃ s t, value = s ++ t ∧ encode s = before ∧ encode t = rest := by
  induction value generalizing before with
  | nil =>
    obtain ⟨rfl, rfl⟩ := append_eq_nil_iff.1 h.symm
    exact ⟨[], [], rfl, rfl, rfl⟩
  | cons c value ih =>
    cases before with
    | nil => exact ⟨[], c :: value, rfl, rfl, h⟩
    | cons b before =>
      obtain ⟨b', others, hc, -, hothers, -⟩ := utf8EncodeChar_cases c
      rw [encode_cons, hc, cons_append, cons_append, List.cons.injEq] at h
      obtain ⟨rfl, h⟩ := h
      rcases append_eq_append_iff.1 h with ⟨front, rfl, hfront⟩ | ⟨back, rfl, hback⟩
      · obtain ⟨s, t, rfl, rfl, ht⟩ := ih hfront
        exact ⟨c :: s, t, rfl, by rw [encode_cons, hc, cons_append], ht⟩
      · -- the rest would begin inside the character
        cases back with
        | nil => exact ⟨[c], value, rfl, by rw [encode_cons, hc]; simp [encode], hback.symm⟩
        | cons b back =>
          have hhigh := hothers b (mem_append_right _ mem_cons_self)
          have hlow := hrest b (by rw [hback]; exact Option.mem_some_self b)
          exact absurd hhigh (UInt8.not_le.2 hlow)

theorem slice_encode (before part rest : List Char) :
    slice (encode (before ++ (part ++ rest))) (encode before).length (encode (before ++ part)).length =
      some (encode part) := by
  have hlength : (encode (before ++ part)).length = (encode before).length + (encode part).length := by
    rw [encode_append, length_append]
  have hstop : isBoundary (encode (before ++ (part ++ rest))) (encode (before ++ part)).length = true := by
    rw [← append_assoc]
    exact isBoundary_encode (before ++ part) rest
  have hle : (encode (before ++ part)).length ≤ (encode (before ++ (part ++ rest))).length := by
    rw [← append_assoc, encode_append (before ++ part), length_append]
    exact Nat.le_add_right _ _
  unfold slice
  rw [if_pos ⟨hlength ▸ Nat.le_add_right _ _, hle, isBoundary_encode before (part ++ rest), hstop⟩, hlength,
    Nat.add_sub_cancel_left, encode_append, drop_left, encode_append, take_left]

/-! ## Scanning -/

theorem scan_eq (p : UInt8 → Bool) (bytes : List UInt8) (i : ℕ) :
    scan p bytes i = i + ((bytes.drop i).takeWhile p).length := by
  fun_induction scan p bytes i with
  | case1 i h hp ih =>
    rw [ih, drop_eq_getElem_cons h, takeWhile_cons_of_pos hp, length_cons]
    omega
  | case2 i h hp => rw [drop_eq_getElem_cons h, takeWhile_cons_of_neg hp, length_nil, Nat.add_zero]
  | case3 i h => rw [drop_eq_nil_of_le (Nat.le_of_not_lt h), takeWhile_nil, length_nil, Nat.add_zero]

theorem le_scan (p : UInt8 → Bool) (bytes : List UInt8) (i : ℕ) : i ≤ scan p bytes i := by
  rw [scan_eq]
  exact Nat.le_add_right _ _

def Scans (p : UInt8 → Bool) (q : Char → Bool) : Prop := ∀ c, ∀ b ∈ String.utf8EncodeChar c, p b = q c

theorem Scans.of_ascii {p : UInt8 → Bool} {q : Char → Bool} (value : Bool) (hbyte : ∀ b : UInt8, 0x80 ≤ b → p b = value)
    (hchar : ∀ c : Char, 128 ≤ c.toNat → q c = value)
    (hascii : ∀ c : Char, c.toNat < 128 → ∀ b : UInt8, b.toNat = c.toNat → p b = q c) : Scans p q := by
  intro c b hb
  obtain ⟨first, rest, hc, -, hrest, hlow, hhigh⟩ := utf8EncodeChar_cases c
  rw [hc] at hb
  rcases Nat.lt_or_ge c.toNat 128 with hlt | hge
  · obtain ⟨hfirst, hnil⟩ := hlow hlt
    rw [hnil] at hb
    exact hascii c hlt b (mem_singleton.1 hb ▸ hfirst)
  · rw [hchar c hge]
    rcases mem_cons.1 hb with rfl | hb
    · exact hbyte _ (hhigh hge)
    · exact hbyte _ (hrest b hb)

theorem Scans.takeWhile_encode {p : UInt8 → Bool} {q : Char → Bool} (h : Scans p q) (s : List Char) :
    (encode s).takeWhile p = encode (s.takeWhile q) := by
  induction s with
  | nil => rfl
  | cons c s ih =>
    rw [encode_cons]
    cases hq : q c with
    | true =>
      rw [takeWhile_append_of_pos fun b hb => (h c b hb).trans hq, ih, takeWhile_cons_of_pos hq, encode_cons]
    | false =>
      obtain ⟨b, rest, hc, -⟩ := utf8EncodeChar_cases c
      have hb : p b = false := (h c b (hc ▸ mem_cons_self)).trans hq
      rw [hc, cons_append, takeWhile_cons_of_neg (Bool.eq_false_iff.1 hb),
        takeWhile_cons_of_neg (Bool.eq_false_iff.1 hq)]
      rfl

/-! ## A position and the rest of the text -/

/-- A position between characters, and the text behind it. -/
def At (value : List Char) (i : ℕ) (rest : List Char) : Prop :=
  ∃ before, value = before ++ rest ∧ i = (encode before).length

section At

variable {value rest : List Char} {i : ℕ} {c : Char}

theorem At.start (value : List Char) : At value 0 value := ⟨[], rfl, rfl⟩

theorem At.drop (h : At value i rest) : (encode value).drop i = encode rest := by
  obtain ⟨before, rfl, rfl⟩ := h
  rw [encode_append, drop_left]

theorem At.getElem? (h : At value i rest) : (encode value)[i]? = (encode rest).head? := by
  rw [← h.drop, List.head?_drop]

theorem At.lt_iff (h : At value i rest) : i < (encode value).length ↔ rest ≠ [] := by
  obtain ⟨before, rfl, rfl⟩ := h
  rw [encode_append, length_append]
  cases rest with
  | nil => simp [encode]
  | cons c rest =>
    obtain ⟨b, others, hc, -⟩ := utf8EncodeChar_cases c
    rw [encode_cons, hc]
    simp

theorem At.eq_length_iff (h : At value i rest) : i = (encode value).length ↔ rest = [] := by
  have hle : i ≤ (encode value).length := by
    obtain ⟨before, rfl, rfl⟩ := h
    rw [encode_append, length_append]
    exact Nat.le_add_right _ _
  rw [← not_iff_not, ← ne_eq rest, ← h.lt_iff]
  omega

/-- Behind the next character. -/
theorem At.next (h : At value i (c :: rest)) : At value (i + (String.utf8EncodeChar c).length) rest := by
  obtain ⟨before, rfl, rfl⟩ := h
  refine ⟨before ++ [c], by rw [append_assoc, singleton_append], ?_⟩
  rw [encode_append, length_append, encode_cons]
  simp [encode]

/-- Behind the characters that are skipped. -/
theorem At.scan {p : UInt8 → Bool} {q : Char → Bool} (hscans : Scans p q) (h : At value i rest) :
    At value (scan p (encode value) i) (rest.dropWhile q) := by
  obtain ⟨before, rfl, rfl⟩ := h
  refine ⟨before ++ rest.takeWhile q, by rw [append_assoc, takeWhile_append_dropWhile], ?_⟩
  rw [scan_eq, encode_append, drop_left, hscans.takeWhile_encode, encode_append, length_append]

theorem At.slice {part : List Char} {j : ℕ} (h : At value i (part ++ rest)) (hj : At value j rest) :
    slice (encode value) i j = some (encode part) := by
  obtain ⟨before, rfl, rfl⟩ := h
  obtain ⟨before', heq, rfl⟩ := hj
  rw [← append_assoc] at heq
  rw [← append_cancel_right heq]
  exact slice_encode before part rest

end At

end Utf8Cursor
