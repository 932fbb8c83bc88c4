import Mathlib

/-!
# Searching for a pattern

The first place of a pattern in a list, and lists split at a symbol.
-/

namespace Search

open List

variable {α : Type}

theorem infix_of_overlap {a : α} {pattern text after : List α} {k : ℕ} (ha : a ∉ pattern) (hk : k < text.length)
    (h : a :: pattern <+: (text ++ (a :: pattern ++ after)).drop k) : a :: pattern <:+: text := by
  rw [drop_append_of_le_length (Nat.le_of_lt hk)] at h
  rcases Nat.lt_or_ge (text.drop k).length (a :: pattern).length with hlong | hfits
  · -- the occurrence would go on into the pattern behind the text, whose first symbol it cannot have
    exfalso
    obtain ⟨rest, hrest⟩ : text.drop k <+: a :: pattern :=
      prefix_of_prefix_length_le (prefix_append _ _) h (Nat.le_of_lt hlong)
    have hbehind : text.drop k ++ rest <+: text.drop k ++ (a :: pattern ++ after) := by
      rw [hrest]
      exact h
    rw [prefix_append_right_inj] at hbehind
    cases hdrop : text.drop k with
    | nil =>
      rw [drop_eq_nil_iff] at hdrop
      omega
    | cons b text' =>
      rw [hdrop, cons_append] at hrest
      obtain ⟨-, hpattern⟩ := List.cons.inj hrest
      cases rest with
      | nil =>
        rw [hdrop, ← hpattern, append_nil] at hlong
        exact Nat.lt_irrefl _ hlong
      | cons c rest =>
        obtain ⟨hc, -⟩ := cons_prefix_cons.1 hbehind
        rw [← hpattern, hc] at ha
        exact ha (mem_append_right _ mem_cons_self)
  · have hfront : a :: pattern <+: text.drop k :=
      prefix_of_prefix_length_le h (prefix_append _ _) hfits
    exact hfront.isInfix.trans (drop_suffix k text).isInfix

theorem mem_intercalate {a sep : α} {parts : List (List α)} (h : a ∈ [sep].intercalate parts) :
    a = sep ∨ ∃ part ∈ parts, a ∈ part := by
  induction parts with
  | nil => exact absurd h not_mem_nil
  | cons part parts ih =>
    cases parts with
    | nil => exact .inr ⟨part, mem_cons_self, by simpa using h⟩
    | cons next parts =>
      rw [intercalate_cons_cons] at h
      rcases mem_append.1 h with h | h
      · rcases mem_append.1 h with h | h
        · exact .inr ⟨part, mem_cons_self, h⟩
        · exact .inl (mem_singleton.1 h)
      · exact (ih h).imp_right fun ⟨p, hp, ha⟩ => ⟨p, mem_cons_of_mem _ hp, ha⟩

theorem mem_intercalate_of_mem {a sep : α} {parts : List (List α)} {part : List α} (hpart : part ∈ parts)
    (h : a ∈ part) : a ∈ [sep].intercalate parts := by
  induction parts with
  | nil => exact absurd hpart not_mem_nil
  | cons first parts ih =>
    cases parts with
    | nil =>
      rw [mem_singleton.1 hpart] at h
      simpa using h
    | cons next parts =>
      rw [intercalate_cons_cons, append_assoc]
      rcases mem_cons.1 hpart with rfl | hpart
      · exact mem_append_left _ h
      · exact mem_append_right _ (mem_append_right _ (ih hpart))

/-- The parts of two lists, joined. -/
theorem intercalate_append (sep : List α) {left right : List (List α)} (hleft : left ≠ [])
    (hright : right ≠ []) : sep.intercalate (left ++ right) = sep.intercalate left ++ (sep ++ sep.intercalate right) := by
  induction left with
  | nil => exact absurd rfl hleft
  | cons first left ih =>
    obtain ⟨head, right, rfl⟩ := exists_cons_of_ne_nil hright
    cases left with
    | nil =>
      rw [singleton_append, intercalate_cons_cons, intercalate_singleton, append_assoc]
    | cons second left =>
      have ih := ih (cons_ne_nil _ _)
      rw [cons_append, cons_append, intercalate_cons_cons, ← cons_append, ih,
        intercalate_cons_cons, append_assoc, append_assoc, append_assoc]

/-- The lines of a list are one list. -/
theorem intercalate_flatten (sep : List α) {lines : List (List (List α))} (h : ∀ line ∈ lines, line ≠ []) :
    sep.intercalate (lines.map sep.intercalate) = sep.intercalate lines.flatten := by
  induction lines with
  | nil => rfl
  | cons line lines ih =>
    have ih := ih fun l hl => h l (mem_cons_of_mem _ hl)
    cases lines with
    | nil => rw [map_singleton, intercalate_singleton, flatten_singleton]
    | cons next rest =>
      have hrest : (next :: rest).flatten ≠ [] := by
        rw [flatten_cons]
        exact append_ne_nil_of_left_ne_nil (h next (mem_cons_of_mem _ mem_cons_self)) _
      rw [map_cons, map_cons, intercalate_cons_cons, ← map_cons, ih, flatten_cons (L := next :: rest),
        intercalate_append sep (h line mem_cons_self) hrest, append_assoc]

/-- The symbols of a text are those of its parts. -/
theorem mem_splitOn [BEq α] [LawfulBEq α] {a : α} (sep : α) {text : List α} (h : a ∈ text) :
    a = sep ∨ ∃ part ∈ text.splitOn sep, a ∈ part := by
  have hjoin : [sep].intercalate (text.splitOn sep) = text := intercalate_splitOn sep
  rw [← hjoin] at h
  exact mem_intercalate h

theorem mem_of_mem_splitOn [BEq α] [LawfulBEq α] {a sep : α} {text part : List α} (hpart : part ∈ text.splitOn sep)
    (h : a ∈ part) : a ∈ text := by
  have hjoin : [sep].intercalate (text.splitOn sep) = text := intercalate_splitOn sep
  rw [← hjoin]
  exact mem_intercalate_of_mem hpart h

theorem not_mem_of_mem_splitOn [BEq α] [LawfulBEq α] {c : α} {s part : List α} (h : part ∈ s.splitOn c) : c ∉ part := by
  induction s generalizing part with
  | nil => cases mem_singleton.1 h; exact not_mem_nil
  | cons d s ih =>
    rw [splitOn_cons_eq_if_modifyHead] at h
    split at h
    · rcases mem_cons.1 h with rfl | h
      · exact not_mem_nil
      · exact ih h
    · next hd =>
      cases hsplit : s.splitOn c with
      | nil => exact absurd hsplit (splitOn_ne_nil c s)
      | cons first rest =>
        rw [hsplit] at h ih
        rcases mem_cons.1 h with rfl | h
        · rw [mem_cons, not_or]
          exact ⟨fun heq => hd (beq_iff_eq.2 heq.symm), ih mem_cons_self⟩
        · exact ih (mem_cons_of_mem _ h)

variable [DecidableEq α]

/-- The position of the first occurrence of a pattern. -/
def find : List α → List α → Option ℕ
  | [], pattern => if pattern = [] then some 0 else none
  | a :: text, pattern => if pattern.isPrefixOf (a :: text) then some 0 else (find text pattern).map (· + 1)

variable {text pattern : List α}

theorem find_eq_zero (h : pattern <+: text) : find text pattern = some 0 := by
  cases text with
  | nil => rw [find, if_pos (prefix_nil.1 h)]
  | cons a text => rw [find, if_pos ( isPrefixOf_iff_prefix.2 h)]

theorem find_cons {a : α} (h : ¬ pattern <+: a :: text) :
    find (a :: text) pattern = (find text pattern).map (· + 1) := by
  rw [← isPrefixOf_iff_prefix] at h
  rw [find, if_neg h]

/-- What is found is an occurrence. -/
theorem prefix_of_find {k : ℕ} (h : find text pattern = some k) : pattern <+: text.drop k := by
  induction text generalizing k with
  | nil =>
    rw [find] at h
    split at h
    · next hnil => exact hnil ▸ nil_prefix
    · cases h
  | cons a text ih =>
    by_cases hfront : pattern <+: a :: text
    · cases (find_eq_zero hfront).symm.trans h
      exact hfront
    · rw [find_cons hfront] at h
      obtain ⟨j, hj, rfl⟩ := Option.map_eq_some_iff.1 h
      exact ih hj

theorem exists_find {k : ℕ} (h : pattern <+: text.drop k) :
    ∃ j ≤ k, find text pattern = some j := by
  induction text generalizing k with
  | nil =>
    rw [drop_nil] at h
    exact ⟨0, Nat.zero_le k, find_eq_zero h⟩
  | cons a text ih =>
    by_cases hfront : pattern <+: a :: text
    · exact ⟨0, Nat.zero_le k, find_eq_zero hfront⟩
    · cases k with
      | zero => exact absurd h hfront
      | succ k =>
        obtain ⟨j, hj, hfind⟩ := ih h
        exact ⟨j + 1, Nat.succ_le_succ hj, by rw [find_cons hfront, hfind]; rfl⟩

theorem le_length_of_find {k : ℕ} (h : find text pattern = some k) : k ≤ text.length := by
  by_contra hlt
  have hfront := prefix_of_find h
  rw [drop_eq_nil_of_le (by omega), ← drop_length] at hfront
  obtain ⟨j, hj, hfind⟩ := exists_find hfront
  have hsame : j = k := Option.some.inj (hfind.symm.trans h)
  omega

theorem find_skip {a : α} {before : List α} (h : a ∉ before) (text pattern : List α) :
    find (before ++ text) (a :: pattern) = (find text (a :: pattern)).map (· + before.length) := by
  induction before with
  | nil => simp
  | cons b before ih =>
    rw [mem_cons, not_or] at h
    have hfront : ¬ a :: pattern <+: b :: (before ++ text) := fun hp => h.1 (cons_prefix_cons.1 hp).1
    rw [cons_append, find_cons hfront, ih h.2, Option.map_map]
    rfl

end Search
