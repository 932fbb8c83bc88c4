import Mathlib

/-!
# Units of a stream, read one after another

A scanner looks at the front of a stream and finds a complete unit there, or that more symbols are needed, or that no
unit can come. What it finds depends on the symbols of the unit only, so it does not change when the stream goes on.
-/

namespace Framing

variable {α β γ : Type}

/-- What stands at the front of a stream. -/
inductive Scan (β : Type) where
  | complete (length : ℕ) (value : β)
  | incomplete
  | invalid
  deriving DecidableEq, Repr

namespace Scan

/-- The same unit, found `k` symbols further on. -/
def shift (k : ℕ) : Scan β → Scan β
  | complete length value => complete (length + k) value
  | incomplete => incomplete
  | invalid => invalid

/-- Another reading of the unit. -/
def map (f : β → γ) : Scan β → Scan γ
  | complete length value => complete length (f value)
  | incomplete => incomplete
  | invalid => invalid

variable {s : Scan β}

theorem map_eq_complete {f : β → γ} {n : ℕ} {w : γ} :
    s.map f = complete n w ↔ ∃ v, s = complete n v ∧ f v = w := by
  cases s <;> simp [map]

theorem map_eq_invalid {f : β → γ} : s.map f = invalid ↔ s = invalid := by
  cases s <;> simp [map]

theorem map_shift (f : β → γ) (k : ℕ) (s : Scan β) : (s.shift k).map f = (s.map f).shift k := by
  cases s <;> rfl

theorem shift_eq_invalid {k : ℕ} : s.shift k = invalid ↔ s = invalid := by
  cases s <;> simp [shift]

theorem shift_eq_incomplete {k : ℕ} : s.shift k = incomplete ↔ s = incomplete := by
  cases s <;> simp [shift]

theorem shift_eq_complete {k n : ℕ} {v : β} :
    s.shift k = complete n v ↔ ∃ m, s = complete m v ∧ n = m + k := by
  cases s with
  | complete m w =>
    simp only [shift, complete.injEq]
    constructor
    · rintro ⟨rfl, rfl⟩
      exact ⟨m, ⟨rfl, rfl⟩, rfl⟩
    · rintro ⟨_, ⟨rfl, rfl⟩, rfl⟩
      exact ⟨rfl, rfl⟩
  | incomplete | invalid => simp [shift]

theorem shift_zero (s : Scan β) : s.shift 0 = s := by
  cases s <;> rfl

theorem shift_shift (j k : ℕ) (s : Scan β) : (s.shift j).shift k = s.shift (j + k) := by
  cases s with
  | complete m v => simp only [shift, Nat.add_assoc]
  | incomplete | invalid => rfl

end Scan

structure Scanner (α β : Type) where
  scan : List α → Scan β
  complete_bounds : ∀ {b n v}, scan b = .complete n v → 0 < n ∧ n ≤ b.length
  complete_local : ∀ {b n v c}, scan b = .complete n v → c.take n = b.take n → scan c = .complete n v
  invalid_append : ∀ {b} c, scan b = .invalid → scan (b ++ c) = .invalid

namespace Scanner

variable (p : Scanner α β)

def map (f : β → γ) : Scanner α γ where
  scan b := (p.scan b).map f
  complete_bounds h := by
    obtain ⟨v, hv, -⟩ := Scan.map_eq_complete.1 h
    exact p.complete_bounds hv
  complete_local h ht := by
    obtain ⟨v, hv, hf⟩ := Scan.map_eq_complete.1 h
    exact Scan.map_eq_complete.2 ⟨v, p.complete_local hv ht, hf⟩
  invalid_append c h := Scan.map_eq_invalid.2 (p.invalid_append c (Scan.map_eq_invalid.1 h))

variable {p}

theorem complete_append {b c : List α} {n : ℕ} {v : β} (h : p.scan b = .complete n v) :
    p.scan (b ++ c) = .complete n v :=
  p.complete_local h (List.take_append_of_le_length (p.complete_bounds h).2)

theorem scan_nil_ne_complete {n : ℕ} {v : β} : p.scan [] ≠ .complete n v := by
  intro h
  have hb := p.complete_bounds h
  simp only [List.length_nil] at hb
  omega

theorem length_lt_of_complete_append {b c : List α} (hb : ∀ n v, p.scan b ≠ .complete n v) {n : ℕ} {v : β}
    (h : p.scan (b ++ c) = .complete n v) : b.length < n := by
  by_contra hn
  refine hb n v (p.complete_local h ?_)
  rw [List.take_append_of_le_length (by omega)]

end Scanner

section Units

variable (p : Scanner α β) (skip : β → Option ℕ)

inductive Reads : List α → List β → List α → Prop where
  | nil (rest : List α) : Reads rest [] rest
  | cons {rest rest' : List α} {n l : ℕ} {v : β} {vs : List β} : p.scan rest = .complete n v → skip v = some l →
      Reads (rest.drop (n + l)) vs rest' → Reads rest (v :: vs) rest'

def units (bad : List α → List β) (rest : List α) : List β :=
  if rest = [] then []
  else match _hs : p.scan rest with
    | .complete n v => v :: (match skip v with
      | some l => units bad (rest.drop (n + l))
      | none => [])
    | .incomplete => []
    | .invalid => bad rest
termination_by rest.length
decreasing_by
  have hb := p.complete_bounds _hs
  rw [List.length_drop]
  omega

variable {p skip}

variable {bad : List α → List β} {rest : List α}

theorem units_complete {n : ℕ} {v : β} (h : p.scan rest = .complete n v) :
    units p skip bad rest = v :: (match skip v with
      | some l => units p skip bad (rest.drop (n + l))
      | none => []) := by
  have hne : rest ≠ [] := by
    rintro rfl
    exact Scanner.scan_nil_ne_complete h
  rw [units, if_neg hne]
  split
  · rename_i m w hs
    rw [h] at hs
    cases hs
    rfl
  · rename_i hs
    rw [h] at hs
    cases hs
  · rename_i hs
    rw [h] at hs
    cases hs

theorem units_incomplete (h : p.scan rest = .incomplete) :
    units p skip bad rest = [] := by
  rw [units]
  split
  · rfl
  · split
    · rename_i hs
      rw [h] at hs
      cases hs
    · rfl
    · rename_i hs
      rw [h] at hs
      cases hs

theorem units_invalid (hne : rest ≠ []) (h : p.scan rest = .invalid) :
    units p skip bad rest = bad rest := by
  rw [units, if_neg hne]
  split
  · rename_i hs
    rw [h] at hs
    cases hs
  · rename_i hs
    rw [h] at hs
    cases hs
  · rfl

theorem units_nil (bad : List α → List β) : units p skip bad [] = [] := by
  rw [units, if_pos rfl]

theorem Reads.append {a b c : List α} {vs ws : List β} (h : Reads p skip a vs b) (h' : Reads p skip b ws c) :
    Reads p skip a (vs ++ ws) c := by
  induction h with
  | nil => exact h'
  | cons hs hk _ ih => exact .cons hs hk (ih h')

theorem Reads.single {n l : ℕ} {v : β} (h : p.scan rest = .complete n v) (hk : skip v = some l) :
    Reads p skip rest [v] (rest.drop (n + l)) :=
  .cons h hk (.nil _)

/-- Reading some units of a stream leaves the others. -/
theorem Reads.units_eq {rest rest' : List α} {vs : List β} (h : Reads p skip rest vs rest') :
    units p skip bad rest = vs ++ units p skip bad rest' := by
  induction h with
  | nil => rfl
  | cons hs hk _ ih =>
    rw [units_complete hs, hk]
    exact congrArg (List.cons _) ih

theorem Reads.skip_isSome {rest rest' : List α} {vs : List β} (h : Reads p skip rest vs rest') :
    ∀ v ∈ vs, (skip v).isSome = true := by
  induction h with
  | nil => simp
  | cons hs hk _ ih =>
    intro w hw
    rcases List.mem_cons.1 hw with rfl | hw
    · rw [hk]; rfl
    · exact ih w hw

end Units

end Framing
