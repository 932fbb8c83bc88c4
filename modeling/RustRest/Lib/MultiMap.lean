import Mathlib

/-!
# Ordered multimaps

A key has a list of values, one at least, and the keys stand in the order in which they came. An insertion at a key
that the map has keeps the key's place.
-/

structure MultiMap (K V : Type) where
  entries : List (K × List V)
  nodup : (entries.map Prod.fst).Nodup
  nonempty : ∀ entry ∈ entries, entry.2 ≠ []

namespace MultiMap

open List

variable {K V : Type}

theorem ext_entries {m₁ m₂ : MultiMap K V} (h : m₁.entries = m₂.entries) : m₁ = m₂ := by
  cases m₁
  cases m₂
  cases h
  rfl

variable [DecidableEq K]

instance [DecidableEq V] : DecidableEq (MultiMap K V) := fun m₁ m₂ =>
  decidable_of_iff (m₁.entries = m₂.entries) ⟨ext_entries, fun h => h ▸ rfl⟩

def empty : MultiMap K V := ⟨[], nodup_nil, nofun⟩

instance : EmptyCollection (MultiMap K V) := ⟨empty⟩

variable (m : MultiMap K V)

def keys : List K := m.entries.map Prod.fst

instance : Membership K (MultiMap K V) := ⟨fun m k => k ∈ m.keys⟩

instance (m : MultiMap K V) (k : K) : Decidable (k ∈ m) := inferInstanceAs (Decidable (k ∈ m.keys))

/-- The values of a key, in order. -/
def getAll (k : K) : List V := (m.entries.lookup k).getD []

def get (k : K) : Option V := (m.getAll k).head?

/-- The keys and values one by one. -/
def pairs : List (K × V) := m.entries.flatMap fun entry => entry.2.map (entry.1, ·)

def set (k : K) (values : List V) (h : values ≠ []) : MultiMap K V :=
  if hk : k ∈ m.keys then
    { entries := m.entries.map fun entry => if entry.1 = k then (k, values) else entry
      nodup := by
        have hkeys : (m.entries.map fun entry => if entry.1 = k then (k, values) else entry).map Prod.fst =
            m.entries.map Prod.fst := by
          rw [map_map]
          refine map_congr_left fun entry _ => ?_
          simp only [Function.comp_apply]
          split
          · next heq => exact heq.symm
          · rfl
        exact hkeys ▸ m.nodup
      nonempty := by
        intro entry hentry
        obtain ⟨entry₀, hentry₀, rfl⟩ := mem_map.1 hentry
        split
        · exact h
        · exact m.nonempty entry₀ hentry₀ }
  else
    { entries := m.entries ++ [(k, values)]
      nodup := by
        rw [map_append, map_singleton]
        exact List.Nodup.append m.nodup (nodup_singleton k) (disjoint_singleton.2 hk)
      nonempty := by
        intro entry hentry
        rcases mem_append.1 hentry with hold | hnew
        · exact m.nonempty entry hold
        · exact mem_singleton.1 hnew ▸ h }

/-- Replace the values of a key by one value. -/
def insert (k : K) (v : V) : MultiMap K V := m.set k [v] (cons_ne_nil v [])

def append (k : K) (v : V) : MultiMap K V :=
  m.set k (m.getAll k ++ [v]) (append_ne_nil_of_right_ne_nil _ (cons_ne_nil v []))

/-- Take a key out with its values. -/
def remove (k : K) : MultiMap K V where
  entries := m.entries.filter fun entry => entry.1 ≠ k
  nodup := m.nodup.sublist (filter_sublist.map Prod.fst)
  nonempty entry hentry := m.nonempty entry (mem_of_mem_filter hentry)

/-! ## The values of a key -/

variable {k : K} {l : List (K × List V)}

theorem lookup_eq_none (h : k ∉ l.map Prod.fst) : l.lookup k = none := by
  refine lookup_eq_none_iff.2 fun entry hentry => ?_
  rw [bne_iff_ne]
  rintro rfl
  exact h (mem_map_of_mem hentry)

variable {values : List V}

theorem lookup_eq_some_of_mem (hl : (l.map Prod.fst).Nodup)
    (h : (k, values) ∈ l) : l.lookup k = some values := by
  induction l with
  | nil => cases h
  | cons first l ih =>
    rw [map_cons, nodup_cons] at hl
    rw [lookup_cons]
    rcases mem_cons.1 h with rfl | h
    · rw [beq_self_eq_true]
    · have hne : (k == first.1) = false := by
        rw [beq_eq_false_iff_ne]
        rintro rfl
        exact hl.1 (mem_map.2 ⟨_, h, rfl⟩)
      rw [hne]
      exact ih hl.2 h

variable {m : MultiMap K V}

theorem getAll_of_mem (h : (k, values) ∈ m.entries) :
    m.getAll k = values := by
  rw [getAll, lookup_eq_some_of_mem m.nodup h, Option.getD_some]

theorem getAll_of_not_mem (h : k ∉ m) : m.getAll k = [] := by
  rw [getAll, lookup_eq_none h, Option.getD_none]

theorem mem_iff_getAll : k ∈ m ↔ m.getAll k ≠ [] := by
  constructor
  · intro h
    obtain ⟨entry, hentry, rfl⟩ := mem_map.1 h
    rw [getAll_of_mem hentry]
    exact m.nonempty entry hentry
  · intro h
    by_contra hk
    exact h (getAll_of_not_mem hk)

theorem mem_congr {m m' : MultiMap K V} (h : m'.getAll k = m.getAll k) : k ∈ m' ↔ k ∈ m := by
  rw [mem_iff_getAll, mem_iff_getAll, h]

@[simp] theorem getAll_empty (k : K) : (∅ : MultiMap K V).getAll k = [] := rfl

theorem mem_entries_getAll (h : k ∈ m) : (k, m.getAll k) ∈ m.entries := by
  obtain ⟨entry, hentry, rfl⟩ := mem_map.1 h
  rw [getAll_of_mem hentry]
  exact hentry

theorem mem_set {k k' : K} {h : values ≠ []} :
    k' ∈ m.set k values h ↔ k' = k ∨ k' ∈ m := by
  show k' ∈ (m.set k values h).entries.map Prod.fst ↔ k' = k ∨ k' ∈ m.entries.map Prod.fst
  unfold set
  split
  · next hk =>
    simp only [map_map]
    constructor
    · intro hmem
      obtain ⟨entry, hentry, heq⟩ := mem_map.1 hmem
      simp only [Function.comp_apply] at heq
      split at heq
      · exact .inl heq.symm
      · exact .inr (heq ▸ mem_map_of_mem hentry)
    · intro hmem
      have hin : k' ∈ m.entries.map Prod.fst := hmem.elim (fun heq => heq ▸ hk) id
      obtain ⟨entry, hentry, rfl⟩ := mem_map.1 hin
      refine mem_map.2 ⟨entry, hentry, ?_⟩
      simp only [Function.comp_apply]
      split
      · next heq => exact heq.symm
      · rfl
  · simp only [map_append, map_cons, map_nil, mem_append, mem_singleton]
    exact or_comm

theorem getAll_set (k k' : K) (values : List V) (h : values ≠ []) :
    (m.set k values h).getAll k' = if k' = k then values else m.getAll k' := by
  split
  · next heq =>
    subst heq
    refine getAll_of_mem ?_
    unfold set
    split
    · next hk =>
      obtain ⟨entry, hentry, heq⟩ := mem_map.1 hk
      exact mem_map.2 ⟨entry, hentry, if_pos heq⟩
    · exact mem_append.2 (.inr (mem_singleton.2 rfl))
  · next hne =>
    by_cases hk' : k' ∈ m
    · refine getAll_of_mem ?_
      have hentry := mem_entries_getAll hk'
      unfold set
      split
      · exact mem_map.2 ⟨_, hentry, if_neg hne⟩
      · exact mem_append.2 (.inl hentry)
    · rw [getAll_of_not_mem hk', getAll_of_not_mem]
      rw [mem_set]
      exact fun hmem => hmem.elim hne hk'

theorem getAll_insert (k k' : K) (v : V) :
    (m.insert k v).getAll k' = if k' = k then [v] else m.getAll k' := getAll_set ..

theorem getAll_insert_self (k : K) (v : V) : (m.insert k v).getAll k = [v] := by
  rw [getAll_insert, if_pos rfl]

theorem mem_insert {k k' : K} {v : V} : k' ∈ m.insert k v ↔ k' = k ∨ k' ∈ m := mem_set

theorem mem_remove {k k' : K} : k' ∈ m.remove k ↔ k' ≠ k ∧ k' ∈ m := by
  constructor
  · intro h
    obtain ⟨entry, hentry, rfl⟩ := mem_map.1 h
    obtain ⟨hmem, hne⟩ := mem_filter.1 hentry
    exact ⟨of_decide_eq_true hne, mem_map_of_mem hmem⟩
  · rintro ⟨hne, h⟩
    obtain ⟨entry, hentry, rfl⟩ := mem_map.1 h
    exact mem_map_of_mem (mem_filter.2 ⟨hentry, decide_eq_true hne⟩)

theorem getAll_remove (k k' : K) :
    (m.remove k).getAll k' = if k' = k then [] else m.getAll k' := by
  split
  · next heq => exact getAll_of_not_mem fun h => (mem_remove.1 h).1 heq
  · next hne =>
    by_cases hk' : k' ∈ m
    · exact getAll_of_mem (mem_filter.2 ⟨mem_entries_getAll hk', decide_eq_true hne⟩)
    · rw [getAll_of_not_mem hk', getAll_of_not_mem fun h => hk' (mem_remove.1 h).2]

theorem getAll_foldl_remove : ∀ {ks : List K}, k ∉ ks → ∀ m : MultiMap K V,
    (ks.foldl remove m).getAll k = m.getAll k
  | [], _, _ => rfl
  | first :: ks, h, m => by
    rw [foldl_cons, getAll_foldl_remove (fun hk => h (mem_cons_of_mem _ hk)), getAll_remove, if_neg]
    rintro rfl
    exact h mem_cons_self

/-! ## Changes that change nothing -/

theorem set_getAll {h : values ≠ []} (hk : m.getAll k = values) :
    m.set k values h = m := by
  have hmem : k ∈ m.keys := mem_iff_getAll.2 (hk ▸ h)
  refine ext_entries ?_
  rw [set, dif_pos hmem]
  refine (map_congr_left fun entry hentry => ?_).trans (map_id m.entries)
  split
  · next heq =>
    subst heq
    rw [← hk, getAll_of_mem hentry]
    rfl
  · rfl

/-- The insertion of the value that the key has. -/
theorem insert_of_getAll {v : V} (h : m.getAll k = [v]) : m.insert k v = m := set_getAll h

/-- Removing a key that is not there changes nothing. -/
theorem remove_of_not_mem (h : k ∉ m) : m.remove k = m := by
  refine ext_entries (filter_eq_self.2 fun entry hentry => decide_eq_true ?_)
  rintro rfl
  exact h (mem_map_of_mem hentry)

/-! ## Pairs -/

theorem filter_flatMap (hl : (l.map Prod.fst).Nodup) (k : K) :
    ((l.flatMap fun entry => entry.2.map (entry.1, ·)).filter fun pair => pair.1 = k).map Prod.snd =
      (l.lookup k).getD [] := by
  induction l with
  | nil => rfl
  | cons entry l ih =>
    rw [map_cons, nodup_cons] at hl
    rw [flatMap_cons, filter_append, map_append, ih hl.2, lookup_cons, filter_map,
      map_map]
    by_cases heq : entry.1 = k
    · subst heq
      have hnone : l.lookup entry.1 = none := lookup_eq_none hl.1
      simp [hnone, Function.comp_def]
    · simp [heq, Function.comp_def, beq_eq_false_iff_ne.2 (Ne.symm heq)]

theorem filter_pairs (k : K) :
    (m.pairs.filter fun pair => pair.1 = k).map Prod.snd = m.getAll k := filter_flatMap m.nodup k

/-! ## One map over another -/

def overwrite (m source : MultiMap K V) (wanted : K → Bool) : MultiMap K V :=
  let cleared := (source.keys.filter wanted).foldl remove m
  (source.pairs.filter fun pair => wanted pair.1).foldl (fun m pair => m.append pair.1 pair.2) cleared

theorem getAll_foldl_remove_of_mem {ks : List K} (h : k ∈ ks) (m : MultiMap K V) :
    (ks.foldl remove m).getAll k = [] := by
  induction ks generalizing m with
  | nil => exact absurd h not_mem_nil
  | cons first ks ih =>
    rw [foldl_cons]
    by_cases hks : k ∈ ks
    · exact ih hks _
    · have hfirst : k = first := (mem_cons.1 h).resolve_right hks
      rw [getAll_foldl_remove hks, getAll_remove, if_pos hfirst]

end MultiMap
