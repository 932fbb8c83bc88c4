import Mathlib

/-!
# Reading a stream piece by piece

A reader is given the size of a buffer and returns some of the next symbols.
-/

namespace Reader

variable {α σ : Type}

structure Lawful (read : σ → ℕ → List α × σ) (remaining : σ → List α) : Prop where
  append : ∀ s n, (read s n).1 ++ remaining (read s n).2 = remaining s
  progress : ∀ s n, 0 < n → (read s n).1 = [] → remaining s = []

/-- Reads with buffers of the given sizes. -/
def readAll (read : σ → ℕ → List α × σ) : σ → List ℕ → List (List α) × σ
  | s, [] => ([], s)
  | s, n :: sizes =>
    let (chunk, s) := read s n
    let (chunks, s) := readAll read s sizes
    (chunk :: chunks, s)

section Lawful

variable {read : σ → ℕ → List α × σ} {remaining : σ → List α} (h : Lawful read remaining)

include h

/-- What any sequence of reads returns is the front of the stream. -/
theorem Lawful.flatten_readAll (s : σ) (sizes : List ℕ) :
    (readAll read s sizes).1.flatten ++ remaining (readAll read s sizes).2 = remaining s := by
  induction sizes generalizing s with
  | nil => rfl
  | cons n sizes ih =>
    show ((read s n).1 ++ (readAll read (read s n).2 sizes).1.flatten) ++ _ = _
    rw [List.append_assoc, ← h.append s n]
    exact congrArg _ (ih (read s n).2)

theorem Lawful.flatten_readAll_eq (s : σ) {sizes : List ℕ} (hpos : ∀ n ∈ sizes, 0 < n)
    (hlength : (remaining s).length ≤ sizes.length) : (readAll read s sizes).1.flatten = remaining s := by
  induction sizes generalizing s with
  | nil =>
    rw [List.length_nil, Nat.le_zero, List.length_eq_zero_iff] at hlength
    rw [hlength]
    rfl
  | cons n sizes ih =>
    have hrest : (remaining (read s n).2).length ≤ sizes.length := by
      have happend := congrArg List.length (h.append s n)
      rw [List.length_append] at happend
      rw [List.length_cons] at hlength
      cases hread : (read s n).1 with
      | nil =>
        have hend := h.progress s n (hpos n List.mem_cons_self) hread
        rw [hend, List.length_nil] at happend
        omega
      | cons a chunk =>
        rw [hread, List.length_cons] at happend
        omega
    show (read s n).1 ++ (readAll read (read s n).2 sizes).1.flatten = _
    rw [ih (read s n).2 (fun m hm => hpos m (List.mem_cons_of_mem _ hm)) hrest, h.append]

end Lawful

/-! ## Streams in pieces -/

structure Source (α : Type) where
  rest : List α
  splits : ℕ → ℕ
  reads : ℕ

namespace Source

def new (stream : List α) (splits : ℕ → ℕ) : Source α := ⟨stream, splits, 0⟩

def read (s : Source α) (n : ℕ) : List α × Source α :=
  let k := min n (s.splits s.reads + 1)
  (s.rest.take k, { s with rest := s.rest.drop k, reads := s.reads + 1 })

end Source

theorem source_lawful : Lawful (Source.read (α := α)) Source.rest where
  append s n := List.take_append_drop _ s.rest
  progress s n hn hread := by
    rcases List.take_eq_nil_iff.1 hread with hzero | hnil
    · omega
    · exact hnil

end Reader
