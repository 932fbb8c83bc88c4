import RustRest.Lib.SegTrie

/-!
# Addresses of the nodes of a trie

A node is told from another by the way that leads to it from the root.
-/

namespace SegTrie

open List

abbrev Address (κ : Type) := List (Option κ)

variable {κ ν ε : Type} [DecidableEq κ]

def Node.nodeAt (n : Node κ ε) : Address κ → Option (Node κ ε)
  | [] => some n
  | some k :: path => (n.statics.lookup k).bind (·.nodeAt path)
  | none :: path => n.param.bind (·.nodeAt path)

variable {path : Address κ}

theorem nodeAt_empty (h : (({} : Node κ ε).nodeAt path).isSome) : path = [] := by
  match path with
  | [] => rfl
  | none :: path => exact absurd h Bool.false_ne_true
  | some k :: path => exact absurd h Bool.false_ne_true

/-! ## The nodes of a built trie -/

def addressesOf : List (Seg κ ν) → List (Address κ)
  | [] => []
  | .static k :: p => [some k] :: (addressesOf p).map (some k :: ·)
  | .param _ :: p => [none] :: (addressesOf p).map (none :: ·)
  | .wildcard _ :: _ => []

omit [DecidableEq κ] in
theorem length_addressesOf_le (p : List (Seg κ ν)) : (addressesOf p).length ≤ p.length := by
  induction p with
  | nil => exact Nat.le_refl _
  | cons seg p ih =>
    cases seg with
    | static k | param m => simpa [addressesOf] using ih
    | wildcard m => exact Nat.zero_le _

variable {edge : Option κ}

theorem nodeAt_child {old : Option (Node κ ε)} {e : ε} {p : List (Seg κ ν)}
    (ih : ((old.getD {}).insert e p).nodeAt path |>.isSome → ((old.getD {}).nodeAt path).isSome ∨ path ∈ addressesOf p)
    (h : (((old.getD {}).insert e p).nodeAt path).isSome) :
    (old.bind (·.nodeAt path)).isSome ∨ edge :: path ∈ [edge] :: (addressesOf p).map (edge :: ·) := by
  rcases ih h with hold | hnew
  · cases old with
    | some c => exact Or.inl hold
    | none =>
      rw [nodeAt_empty hold]
      exact Or.inr mem_cons_self
  · exact Or.inr (mem_cons_of_mem _ (mem_map_of_mem hnew))

theorem nodeAt_insert (e : ε) (p : List (Seg κ ν)) (n : Node κ ε) (path : Address κ)
    (h : ((n.insert e p).nodeAt path).isSome) : (n.nodeAt path).isSome ∨ path ∈ addressesOf p := by
  induction p generalizing n path with
  | nil =>
    left
    match path with
    | [] => rfl
    | none :: path => exact h
    | some k :: path => exact h
  | cons seg p ih =>
    match seg, path with
    | _, [] => exact Or.inl rfl
    | .static k, none :: path => exact Or.inl h
    | .static k, some l :: path =>
      rw [Node.insert] at h
      simp only [Node.nodeAt, lookup_upsert] at h
      by_cases hl : l = k
      · subst hl
        rw [if_pos rfl] at h
        exact nodeAt_child (ih _ path) h
      · rw [if_neg hl] at h
        exact Or.inl h
    | .param m, some l :: path => exact Or.inl h
    | .param m, none :: path => exact nodeAt_child (ih _ path) h
    | .wildcard m, edge :: path =>
      left
      rw [Node.insert] at h
      split at h
      · cases edge <;> exact h
      · exact h

theorem nodeAt_foldl (es : List (List (Seg κ ν) × ε)) (n : Node κ ε) (path : Address κ)
    (h : ((es.foldl (fun n x => n.insert x.2 x.1) n).nodeAt path).isSome) :
    (n.nodeAt path).isSome ∨ path ∈ es.flatMap fun x => addressesOf x.1 := by
  induction es generalizing n with
  | nil => exact Or.inl h
  | cons x es ih =>
    rw [flatMap_cons, mem_append]
    rcases ih _ h with hn | hes
    · exact (nodeAt_insert x.2 x.1 n path hn).imp_right Or.inl
    · exact Or.inr (Or.inr hes)

theorem nodeAt_build {es : List (List (Seg κ ν) × ε)} (h : ((build es).nodeAt path).isSome) :
    path ∈ [] :: es.flatMap fun x => addressesOf x.1 := by
  rcases nodeAt_foldl es {} path h with hroot | hes
  · rw [nodeAt_empty hroot]
    exact mem_cons_self
  · exact mem_cons_of_mem _ hes

omit [DecidableEq κ] in
theorem length_addresses_le (es : List (List (Seg κ ν) × ε)) :
    (es.flatMap fun x => addressesOf x.1).length ≤ (es.map fun x => x.1.length).sum := by
  rw [length_flatMap]
  exact sum_le_sum fun x _ => length_addressesOf_le x.1

/-! ## The nodes of a walk -/

/-- Below a child, if there is one. -/
def below (edge : Option κ) (paths : Node κ ε → List (Address κ)) (child : Option (Node κ ε)) : List (Address κ) :=
  child.elim [] fun c => (paths c).map (edge :: ·)

/-- The addresses of the nodes that a walk comes by. -/
def Node.reached (n : Node κ ε) : List κ → List (Address κ)
  | [] => [[]]
  | s :: segs => [] :: (below (some s) (Node.reached · segs) (n.statics.lookup s) ++
      below none (Node.reached · segs) n.param)

variable {paths : Node κ ε → List (Address κ)}

omit [DecidableEq κ] in
theorem mem_below {child : Option (Node κ ε)} :
    path ∈ below edge paths child ↔ ∃ c, child = some c ∧ ∃ rest ∈ paths c, path = edge :: rest := by
  cases child with
  | none => simp [below]
  | some c => simp [below, eq_comm]

omit [DecidableEq κ] in
theorem nil_notMem_below {child : Option (Node κ ε)} :
    [] ∉ below edge paths child := by
  rw [mem_below]
  rintro ⟨c, -, rest, -, h⟩
  exact absurd h.symm (cons_ne_nil _ _)

omit [DecidableEq κ] in
theorem below_nodup (h : ∀ c, (paths c).Nodup)
    (child : Option (Node κ ε)) : (below edge paths child).Nodup := by
  cases child with
  | none => exact nodup_nil
  | some c => exact (h c).map fun _ _ heq => (List.cons.inj heq).2

theorem reached_nodup (segs : List κ) (n : Node κ ε) : (n.reached segs).Nodup := by
  induction segs generalizing n with
  | nil => exact nodup_singleton _
  | cons s segs ih =>
    rw [Node.reached, nodup_cons, nodup_append]
    refine ⟨fun hmem => ?_, below_nodup ih _, below_nodup ih _, fun path hstatic path' hparam heq => ?_⟩
    · exact (mem_append.1 hmem).elim nil_notMem_below nil_notMem_below
    · obtain ⟨-, -, rest, -, rfl⟩ := mem_below.1 hstatic
      obtain ⟨-, -, rest', -, rfl⟩ := mem_below.1 hparam
      cases heq

theorem nodeAt_of_mem_reached {segs : List κ} {n : Node κ ε} (h : path ∈ n.reached segs) :
    (n.nodeAt path).isSome := by
  induction segs generalizing n path with
  | nil =>
    rw [mem_singleton.1 h]
    rfl
  | cons s segs ih =>
    rcases mem_cons.1 h with rfl | h
    · rfl
    · rcases mem_append.1 h with h | h
      · obtain ⟨c, hc, rest, hrest, rfl⟩ := mem_below.1 h
        rw [Node.nodeAt, hc]
        exact ih hrest
      · obtain ⟨c, hc, rest, hrest, rfl⟩ := mem_below.1 h
        rw [Node.nodeAt, hc]
        exact ih hrest

theorem length_reached_le (es : List (List (Seg κ ν) × ε)) (segs : List κ) :
    ((build es).reached segs).length ≤ 1 + (es.map fun x => x.1.length).sum := by
  have hsub : (build es).reached segs ⊆ [] :: es.flatMap fun x => addressesOf x.1 :=
    fun path hpath => nodeAt_build (nodeAt_of_mem_reached hpath)
  have hle := ((reached_nodup segs (build es)).subperm hsub).length_le
  have hadd := length_addresses_le es
  rw [length_cons] at hle
  omega

end SegTrie
