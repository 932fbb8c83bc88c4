import RustRest.Lib.SegPattern

/-!
# Tries of segment patterns

A node has a child for each fixed key, at most one child for the one-key placeholder, and two lists of entries: those
whose pattern ends at the node, and those whose pattern ends in a rest placeholder there.
-/

namespace SegTrie

open List

structure Node (κ ε : Type) where
  statics : List (κ × Node κ ε) := []
  param : Option (Node κ ε) := none
  terminals : List ε := []
  wildcards : List ε := []

variable {κ ν ε β : Type} [DecidableEq κ]

/-! ## Keyed children -/

def upsert {υ : Type} (k : κ) (f : Option υ → υ) : List (κ × υ) → List (κ × υ)
  | [] => [(k, f none)]
  | (l, v) :: kvs => if l = k then (l, f (some v)) :: kvs else (l, v) :: upsert k f kvs

theorem lookup_upsert {υ : Type} (k l : κ) (f : Option υ → υ) : ∀ kvs : List (κ × υ),
    (upsert k f kvs).lookup l = if l = k then some (f (kvs.lookup k)) else kvs.lookup l
  | [] => by
    by_cases h : l = k
    · simp [upsert, List.lookup, h]
    · simp [upsert, List.lookup, h, beq_false_of_ne h]
  | (m, v) :: kvs => by
    have ih := lookup_upsert k l f kvs
    by_cases hm : m = k
    · subst hm
      by_cases h : l = m
      · simp [upsert, List.lookup, h]
      · simp [upsert, List.lookup, h, beq_false_of_ne h]
    · have hkm : (k == m) = false := beq_false_of_ne (Ne.symm hm)
      simp only [upsert, if_neg hm, List.lookup, hkm]
      by_cases h : l = m
      · subst h; simp [hm]
      · simp only [beq_false_of_ne h]; exact ih

def Node.child (n : Node κ ε) (k : κ) : Node κ ε := (n.statics.lookup k).getD {}

/-- The child for the one-key placeholder. -/
def Node.paramChild (n : Node κ ε) : Node κ ε := n.param.getD {}

/-! ## Filing entries -/

def Node.insert (e : ε) : List (Seg κ ν) → Node κ ε → Node κ ε
  | [], n => { n with terminals := n.terminals ++ [e] }
  | .static k :: p, n => { n with statics := upsert k (fun c => Node.insert e p (c.getD {})) n.statics }
  | .param _ :: p, n => { n with param := some (Node.insert e p (n.param.getD {})) }
  | .wildcard _ :: p, n => if p.isEmpty then { n with wildcards := n.wildcards ++ [e] } else n

variable (es : List (List (Seg κ ν) × ε))

/-- Files entries one after another. -/
def build : Node κ ε := es.foldl (fun n x => n.insert x.2 x.1) {}

theorem child_insert_static (e : ε) (k l : κ) (p : List (Seg κ ν)) (n : Node κ ε) :
    (n.insert e (.static k :: p)).child l = if l = k then (n.child k).insert e p else n.child l := by
  simp only [Node.insert, Node.child, lookup_upsert]
  split <;> rfl

/-! ## What a node holds -/

/-- The entries whose pattern ends here. -/
def terminalsOf : List ε :=
  es.filterMap (fun x => match x.1 with | [] => some x.2 | _ => none)

def wildcardsOf : List ε :=
  es.filterMap (fun x => match x.1 with | [.wildcard _] => some x.2 | _ => none)

def staticOf (k : κ) (es : List (List (Seg κ ν) × ε)) : List (List (Seg κ ν) × ε) :=
  es.filterMap (fun x => match x.1 with | .static l :: p => if l = k then some (p, x.2) else none | _ => none)

def paramOf : List (List (Seg κ ν) × ε) :=
  es.filterMap (fun x => match x.1 with | .param _ :: p => some (p, x.2) | _ => none)

omit [DecidableEq κ] in
theorem terminalsOf_append (es fs : List (List (Seg κ ν) × ε)) :
    terminalsOf (es ++ fs) = terminalsOf es ++ terminalsOf fs := filterMap_append

omit [DecidableEq κ] in
theorem wildcardsOf_append (es fs : List (List (Seg κ ν) × ε)) :
    wildcardsOf (es ++ fs) = wildcardsOf es ++ wildcardsOf fs := filterMap_append

theorem staticOf_append (k : κ) (es fs : List (List (Seg κ ν) × ε)) :
    staticOf k (es ++ fs) = staticOf k es ++ staticOf k fs := filterMap_append

omit [DecidableEq κ] in
theorem paramOf_append (es fs : List (List (Seg κ ν) × ε)) :
    paramOf (es ++ fs) = paramOf es ++ paramOf fs := filterMap_append

def Holds : Nat → Node κ ε → List (List (Seg κ ν) × ε) → Prop
  | 0, _, _ => True
  | d + 1, n, es => n.terminals = terminalsOf es ∧ n.wildcards = wildcardsOf es ∧
      (∀ k, Holds d (n.child k) (staticOf k es)) ∧ Holds d n.paramChild (paramOf es)

theorem holds_empty : ∀ d, Holds d ({} : Node κ ε) ([] : List (List (Seg κ ν) × ε))
  | 0 => trivial
  | d + 1 => ⟨rfl, rfl, fun _ => holds_empty d, holds_empty d⟩

theorem holds_append {d : Nat} {n n' : Node κ ε} {es fs : List (List (Seg κ ν) × ε)} (h : Holds (d + 1) n es)
    (ht : n'.terminals = n.terminals ++ terminalsOf fs) (hw : n'.wildcards = n.wildcards ++ wildcardsOf fs)
    (hs : ∀ k, Holds d (n.child k) (staticOf k es) → Holds d (n'.child k) (staticOf k es ++ staticOf k fs))
    (hp : Holds d n.paramChild (paramOf es) → Holds d n'.paramChild (paramOf es ++ paramOf fs)) :
    Holds (d + 1) n' (es ++ fs) := by
  obtain ⟨hterminals, hwildcards, hstatics, hparam⟩ := h
  simp only [Holds, terminalsOf_append, wildcardsOf_append, staticOf_append, paramOf_append]
  exact ⟨hterminals ▸ ht, hwildcards ▸ hw, fun k => hs k (hstatics k), hp hparam⟩

theorem holds_append_nil {d : Nat} {n : Node κ ε} {es : List (List (Seg κ ν) × ε)} (h : Holds d n es) :
    Holds d n (es ++ []) := by
  rwa [append_nil]

theorem holds_insert : ∀ (d : Nat) {n : Node κ ε} {es : List (List (Seg κ ν) × ε)} (p : List (Seg κ ν)) (e : ε),
    Holds d n es → Holds d (n.insert e p) (es ++ [(p, e)])
  | 0, _, _, _, _, _ => trivial
  | _ + 1, n, _, [], _, h => holds_append h rfl n.wildcards.append_nil.symm (fun _ => holds_append_nil) holds_append_nil
  | d + 1, n, _, .static k :: p, e, h => by
    refine holds_append h n.terminals.append_nil.symm n.wildcards.append_nil.symm (fun l hl => ?_) holds_append_nil
    rw [child_insert_static]
    by_cases heq : l = k
    · subst heq
      rw [if_pos rfl, show staticOf l [(.static l :: p, e)] = [(p, e)] by simp [staticOf]]
      exact holds_insert d p e hl
    · rw [if_neg heq, show staticOf l [(.static k :: p, e)] = [] by simp [staticOf, Ne.symm heq]]
      exact holds_append_nil hl
  | d + 1, n, _, .param _ :: p, e, h =>
    holds_append h n.terminals.append_nil.symm n.wildcards.append_nil.symm (fun _ => holds_append_nil) (holds_insert d p e)
  | _ + 1, n, _, [.wildcard _], _, h =>
    holds_append h n.terminals.append_nil.symm rfl (fun _ => holds_append_nil) holds_append_nil
  | _ + 1, n, _, .wildcard _ :: _ :: _, _, h =>
    -- such a pattern is filed nowhere
    holds_append h n.terminals.append_nil.symm n.wildcards.append_nil.symm (fun _ => holds_append_nil) holds_append_nil

theorem holds_foldl (d : Nat) : ∀ (es' es : List (List (Seg κ ν) × ε)) (n : Node κ ε), Holds d n es →
    Holds d (es'.foldl (fun n x => n.insert x.2 x.1) n) (es ++ es')
  | [], es, n, h => by simpa using h
  | x :: es', es, n, h => by
    have := holds_foldl d es' (es ++ [(x.1, x.2)]) (n.insert x.2 x.1) (holds_insert d x.1 x.2 h)
    simpa using this

theorem holds_build (d : Nat) (es : List (List (Seg κ ν) × ε)) : Holds d (build es) es := by
  simpa [build] using holds_foldl d es [] {} (holds_empty d)

/-! ## Walking the trie -/

section Visit

variable (f : List ε → List β)

def Node.visit (n : Node κ ε) : List κ → List β
  | [] => f n.terminals ++ f n.wildcards
  | s :: segs => (match n.statics.lookup s with | some c => Node.visit c segs | none => []) ++
      (match n.param with | some c => Node.visit c segs | none => []) ++ f n.wildcards

def classOf (segs : List κ) (k : List Nat) : List ε :=
  (es.filter (fun x => Fits x.1 segs && decide (order x.1 = k))).map Prod.snd

variable {f}

theorem visit_empty (hf : f [] = []) : ∀ segs : List κ, ({} : Node κ ε).visit f segs = []
  | [] => by simp [Node.visit, hf]
  | _ :: _ => by simp [Node.visit, hf]

theorem visit_cons (hf : f [] = []) (n : Node κ ε) (s : κ) (segs : List κ) :
    n.visit f (s :: segs) = (n.child s).visit f segs ++ n.paramChild.visit f segs ++ f n.wildcards := by
  simp only [Node.visit, Node.child, Node.paramChild]
  cases n.statics.lookup s <;> cases n.param <;> simp [visit_empty hf]

theorem classOf_nil_end : classOf es ([] : List κ) [2] = terminalsOf es := by
  induction es with
  | nil => rfl
  | cons x es ih =>
    obtain ⟨p, e⟩ := x
    simp only [classOf, terminalsOf] at ih ⊢
    rcases p with _ | ⟨k | m | m, p⟩ <;> simp [order, ih]

theorem classOf_wildcard (segs : List κ) :
    classOf es segs [3, 2] = wildcardsOf es := by
  induction es with
  | nil => rfl
  | cons x es ih =>
    obtain ⟨p, e⟩ := x
    simp only [classOf, wildcardsOf] at ih ⊢
    rcases p with _ | ⟨k | m | m, _ | ⟨q, p⟩⟩ <;> simp [order, ih]

theorem classOf_static (s : κ) (segs : List κ) (k : List Nat) :
    classOf es (s :: segs) (0 :: k) = classOf (staticOf s es) segs k := by
  induction es with
  | nil => rfl
  | cons x es ih =>
    obtain ⟨p, e⟩ := x
    simp only [classOf, staticOf] at ih ⊢
    rcases p with _ | ⟨l | m | m, p⟩
    · simp [order, ih]
    · by_cases hl : l = s
      · by_cases hp : Fits p segs = true ∧ order p = k
        · simp [order, ih, hl, hp]
        · simp [order, ih, hl, hp]
      · simp [order, ih, hl]
    · simp [order, ih]
    · simp [order, ih]

theorem classOf_param (s : κ) (segs : List κ) (k : List Nat) :
    classOf es (s :: segs) (1 :: k) = classOf (paramOf es) segs k := by
  induction es with
  | nil => rfl
  | cons x es ih =>
    obtain ⟨p, e⟩ := x
    simp only [classOf, paramOf] at ih ⊢
    rcases p with _ | ⟨l | m | m, p⟩
    · simp [order, ih]
    · simp [order, ih]
    · by_cases hp : Fits p segs = true ∧ order p = k
      · simp [order, ih, hp]
      · simp [order, ih, hp]
    · simp [order, ih]

theorem visit_holds (hf : f [] = []) : ∀ (segs : List κ) (n : Node κ ε) (es : List (List (Seg κ ν) × ε)),
    Holds (segs.length + 1) n es → n.visit f segs = (orders segs.length).flatMap (fun k => f (classOf es segs k))
  | [], n, es, ⟨ht, hw, _, _⟩ => by
    simp [Node.visit, orders, classOf_nil_end, classOf_wildcard, ht, hw]
  | s :: segs, n, es, ⟨_, hw, hs, hp⟩ => by
    rw [visit_cons hf, visit_holds hf segs _ _ (hs s), visit_holds hf segs _ _ hp, hw]
    simp [orders, flatMap_append, flatMap_map, classOf_static, classOf_param, classOf_wildcard]

theorem visit_build (hf : f [] = []) (es : List (List (Seg κ ν) × ε)) (segs : List κ) :
    (build es).visit f segs = (orders segs.length).flatMap (fun k => f (classOf es segs k)) :=
  visit_holds hf segs _ _ (holds_build _ es)

end Visit

/-! ## All entries that fit -/

theorem flatMap_filter_perm {α γ : Type} [DecidableEq γ] (key : α → γ) : ∀ (ks : List γ) (l : List α), ks.Nodup →
    (∀ x ∈ l, key x ∈ ks) → (ks.flatMap (fun k => l.filter (fun x => decide (key x = k)))).Perm l
  | [], l, _, h => by
    have : l = [] := eq_nil_iff_forall_not_mem.2 (fun x hx => by cases h x hx)
    simp [this]
  | k :: ks, l, hn, h => by
    rw [nodup_cons] at hn
    rw [flatMap_cons]
    have hrest : ∀ k' ∈ ks, l.filter (fun x => decide (key x = k')) =
        (l.filter (fun x => !decide (key x = k))).filter (fun x => decide (key x = k')) := by
      intro k' hk'
      rw [filter_filter]
      apply filter_congr
      intro x _
      by_cases hx : key x = k'
      · have hkk : k' ≠ k := fun e => hn.1 (e ▸ hk')
        simp [hx, hkk]
      · simp [hx]
    have hflat : ks.flatMap (fun k' => l.filter (fun x => decide (key x = k'))) = ks.flatMap
        (fun k' => (l.filter (fun x => !decide (key x = k))).filter (fun x => decide (key x = k'))) :=
      flatMap_congr hrest
    have ih := flatMap_filter_perm key ks (l.filter (fun x => !decide (key x = k))) hn.2 (by
      intro x hx
      obtain ⟨hxl, hxk⟩ := mem_filter.1 hx
      rcases mem_cons.1 (h x hxl) with he | hm
      · simp [he] at hxk
      · exact hm)
    rw [hflat]
    exact (List.Perm.append_left _ ih).trans (filter_append_perm _ l)

theorem flatMap_classOf_perm (segs : List κ) :
    ((orders segs.length).flatMap (classOf es segs)).Perm ((es.filter (fun x => Fits x.1 segs)).map Prod.snd) := by
  have h := flatMap_filter_perm (fun x : List (Seg κ ν) × ε => order x.1) (orders segs.length)
    (es.filter (fun x => Fits x.1 segs)) (orders_nodup _)
    (fun x hx => order_mem_orders (mem_filter.1 hx).2)
  have h' := h.map Prod.snd
  rw [map_flatMap] at h'
  refine List.Perm.trans (List.Perm.of_eq ?_) h'
  apply flatMap_congr
  intro k _
  simp only [classOf, filter_filter, Bool.and_comm]

end SegTrie
