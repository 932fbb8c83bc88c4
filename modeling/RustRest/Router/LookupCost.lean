import RustRest.Router.Index
import RustRest.Lib.TrieAddress

/-!
# What a lookup costs

`collect_candidates` backtracks over static, `:param` and wildcard branches. The items of its work stack refer to nodes
of the trie; here they carry the address of their node, so that two visits of one node can be told from visits of two
equal ones.

Main result: **`lookup_cost`**.
-/

namespace RustRest

open SegTrie WorkStack List

/-- The node that an item refers to. -/
def Work.node : Work → Node String Entry
  | .visit node _ => node
  | .wildcards node => node

abbrev PlacedWork := Address String × Work

def visitAddress : PlacedWork → Option (Address String)
  | (path, .visit _ _) => some path
  | (_, .wildcards _) => none

def wildcardsAddress : PlacedWork → Option (Address String)
  | (_, .visit _ _) => none
  | (path, .wildcards _) => some path

variable (method : String) (segments : List String)

/-- `expandCandidates`, on items with an address. -/
def expandPlaced : PlacedWork → List Nat × List PlacedWork
  | (_, .wildcards node) => (pushMatching method node.wildcards, [])
  | (path, .visit node index) =>
    match segments[index]? with
    | none => (pushMatching method node.terminals ++ pushMatching method node.wildcards, [])
    | some segment =>
      ([], ((node.statics.lookup segment).map fun child => (path ++ [some segment], Work.visit child (index + 1))).toList ++
        (node.param.map fun child => (path ++ [none], Work.visit child (index + 1))).toList ++ [(path, .wildcards node)])

theorem expandPlaced_snd (item : PlacedWork) :
    (expandPlaced method segments item).2.map Prod.snd = (expandCandidates method segments item.2).2 := by
  rcases item with ⟨path, ⟨node, index⟩ | node⟩
  · simp only [expandPlaced, expandCandidates]
    cases segments[index]? with
    | none => rfl
    | some segment =>
      dsimp only
      cases node.statics.lookup segment <;> cases node.param <;> rfl
  · rfl

theorem shrinks_placed : Shrinks (expandPlaced method segments) fun item => item.2.weight segments.length := by
  intro item
  have h := shrinks_candidates method segments item.2
  rw [← expandPlaced_snd, map_map] at h
  exact h

def placedItems (root : Node String Entry) : List PlacedWork :=
  processed (expandPlaced method segments) _ (shrinks_placed method segments) [([], .visit root 0)]

theorem map_snd_placedItems (root : Node String Entry) : (placedItems method segments root).map Prod.snd =
    processed (expandCandidates method segments) (Work.weight segments.length) (shrinks_candidates method segments)
      [.visit root 0] :=
  processed_map _ _ (expandPlaced_snd method segments) _

/-! ## The items of a walk -/

def walkItems (path : Address String) (node : Node String Entry) (index : Nat) : List String → List PlacedWork
  | [] => [(path, .visit node index)]
  | segment :: segs => (path, .visit node index) ::
      ((node.statics.lookup segment).elim [] (fun child => walkItems (path ++ [some segment]) child (index + 1) segs) ++
        node.param.elim [] (fun child => walkItems (path ++ [none]) child (index + 1) segs) ++ [(path, .wildcards node)])

theorem placedItems_eq (root : Node String Entry) : placedItems method segments root = walkItems [] root 0 segments := by
  let spec : PlacedWork → List PlacedWork
    | (path, .visit node index) => walkItems path node index (segments.drop index)
    | (path, .wildcards node) => [(path, .wildcards node)]
  have hspec : ∀ item, spec item = item :: (expandPlaced method segments item).2.flatMap spec := by
    rintro ⟨path, ⟨node, index⟩ | node⟩
    · simp only [expandPlaced]
      cases hindex : segments[index]? with
      | none =>
        have hdrop : segments.drop index = [] := by simpa using hindex
        simp only [spec, hdrop, walkItems, flatMap_nil]
      | some segment =>
        obtain ⟨hlt, hget⟩ := List.getElem?_eq_some_iff.1 hindex
        have hdrop : segments.drop index = segment :: segments.drop (index + 1) := by
          rw [← hget]
          exact drop_eq_getElem_cons hlt
        simp only [spec, hdrop, walkItems]
        cases node.statics.lookup segment <;> cases node.param <;> simp
    · rfl
  rw [placedItems, processed_eq _ hspec]
  simp [spec]

theorem visits_walkItems (segs : List String) (path : Address String) (node : Node String Entry) (index : Nat) :
    (walkItems path node index segs).filterMap visitAddress = (node.reached segs).map (path ++ ·) := by
  induction segs generalizing path node index with
  | nil => simp [walkItems, visitAddress, Node.reached]
  | cons segment segs ih =>
    -- what is visited below a child
    have hbelow : ∀ (edge : Option String) (child : Option (Node String Entry)),
        (child.elim [] fun child => walkItems (path ++ [edge]) child (index + 1) segs).filterMap visitAddress =
          (below edge (Node.reached · segs) child).map (path ++ ·) := by
      intro edge child
      cases child with
      | none => rfl
      | some child => simp [below, ih, Function.comp_def]
    rw [walkItems, Node.reached, map_cons, append_nil, map_append, ← hbelow, ← hbelow]
    simp only [filterMap_cons, filterMap_append, visitAddress, filterMap_nil, append_nil]

theorem wildcards_walkItems (segs : List String) (path : Address String) (node : Node String Entry) (index : Nat) :
    ((walkItems path node index segs).filterMap wildcardsAddress).Subperm
      ((walkItems path node index segs).filterMap visitAddress) := by
  induction segs generalizing path node index with
  | nil => exact nil_subperm
  | cons segment segs ih =>
    have hbelow : ∀ (edge : Option String) (child : Option (Node String Entry)),
        ((child.elim [] fun child => walkItems (path ++ [edge]) child (index + 1) segs).filterMap wildcardsAddress).Subperm
          ((child.elim [] fun child => walkItems (path ++ [edge]) child (index + 1) segs).filterMap visitAddress) := by
      intro edge child
      cases child with
      | none => exact nil_subperm
      | some child => exact ih _ child _
    rw [walkItems]
    simp only [filterMap_cons, filterMap_append, visitAddress, wildcardsAddress, filterMap_nil,
      append_nil]
    refine (perm_append_singleton _ _).subperm.trans ((subperm_cons _).2 ?_)
    exact (hbelow _ _).append (hbelow _ _)

theorem nodeAt_walkItems (segs : List String) (path : Address String) (node : Node String Entry) (index : Nat) :
    ∀ item ∈ walkItems path node index segs, ∃ rest, item.1 = path ++ rest ∧ node.nodeAt rest = some item.2.node := by
  induction segs generalizing path node index with
  | nil =>
    intro item hitem
    rw [mem_singleton.1 hitem]
    exact ⟨[], (append_nil _).symm, rfl⟩
  | cons segment segs ih =>
    intro item hitem
    rw [walkItems, mem_cons, mem_append, mem_append, mem_singleton] at hitem
    obtain rfl | (hstatic | hparam) | rfl := hitem
    · exact ⟨[], (append_nil _).symm, rfl⟩
    · cases hchild : node.statics.lookup segment with
      | none =>
        rw [hchild] at hstatic
        exact absurd hstatic not_mem_nil
      | some child =>
        rw [hchild] at hstatic
        obtain ⟨rest, hrest, hnode⟩ := ih _ child _ item hstatic
        exact ⟨some segment :: rest, by rw [hrest, append_assoc]; rfl, by rw [Node.nodeAt, hchild]; exact hnode⟩
    · cases hchild : node.param with
      | none =>
        rw [hchild] at hparam
        exact absurd hparam not_mem_nil
      | some child =>
        rw [hchild] at hparam
        obtain ⟨rest, hrest, hnode⟩ := ih _ child _ item hparam
        exact ⟨none :: rest, by rw [hrest, append_assoc]; rfl, by rw [Node.nodeAt, hchild]; exact hnode⟩
    · exact ⟨[], (append_nil _).symm, rfl⟩

theorem length_eq_visits_add (items : List PlacedWork) :
    items.length = (items.filterMap visitAddress).length + (items.filterMap wildcardsAddress).length := by
  induction items with
  | nil => rfl
  | cons item items ih =>
    rcases item with ⟨path, ⟨node, index⟩ | node⟩
    · simp only [filterMap_cons, visitAddress, wildcardsAddress, length_cons, ih]
      omega
    · simp only [filterMap_cons, visitAddress, wildcardsAddress, length_cons, ih]
      omega

/-! ## The stack -/

/-- How many items may lie below an item. -/
def Work.room (n : Nat) : Work → Nat
  | .visit _ index => 2 * min index n
  | .wildcards _ => 2 * n

theorem room_le (n : Nat) (work : Work) : work.room n ≤ 2 * n := by
  cases work with
  | visit node index =>
    show 2 * min index n ≤ 2 * n
    omega
  | wildcards node => exact Nat.le_refl _

theorem push_of_visit {node : Node String Entry} {index : Nat} {next : Work} {below : List Work}
    (h : next :: below <:+ (expandCandidates method segments (.visit node index)).2) :
    index < segments.length ∧ ((next = .wildcards node ∧ below = []) ∨
      ∃ child, next = .visit child (index + 1) ∧ below.length ≤ 2) := by
  simp only [expandCandidates] at h
  cases hindex : segments[index]? with
  | none =>
    rw [hindex] at h
    exact absurd (suffix_nil.1 h) (cons_ne_nil _ _)
  | some segment =>
    rw [hindex] at h
    refine ⟨(List.getElem?_eq_some_iff.1 hindex).1, ?_⟩
    cases hstatic : node.statics.lookup segment <;> cases hparam : node.param <;>
      simp only [hstatic, hparam, Option.map_none, Option.map_some, Option.toList_none, Option.toList_some, nil_append,
        cons_append, suffix_cons_iff, suffix_nil, List.cons.injEq, reduceCtorEq, or_false] at h
    · exact Or.inl h
    · obtain ⟨rfl, rfl⟩ | h := h
      · exact Or.inr ⟨_, rfl, Nat.le_succ 1⟩
      · exact Or.inl h
    · obtain ⟨rfl, rfl⟩ | h := h
      · exact Or.inr ⟨_, rfl, Nat.le_succ 1⟩
      · exact Or.inl h
    · obtain ⟨rfl, rfl⟩ | ⟨rfl, rfl⟩ | h := h
      · exact Or.inr ⟨_, rfl, Nat.le_refl 2⟩
      · exact Or.inr ⟨_, rfl, Nat.le_succ 1⟩
      · exact Or.inl h

theorem room_push (work next : Work) (below : List Work)
    (h : next :: below <:+ (expandCandidates method segments work).2) :
    work.room segments.length + below.length ≤ next.room segments.length := by
  cases work with
  | wildcards node => exact absurd (suffix_nil.1 h) (cons_ne_nil _ _)
  | visit node index =>
    show 2 * min index segments.length + below.length ≤ _
    obtain ⟨hlt, ⟨rfl, rfl⟩ | ⟨child, rfl, hbelow⟩⟩ := push_of_visit method segments h
    · exact room_le segments.length (.visit node index)
    · show _ ≤ 2 * min (index + 1) segments.length
      omega

/-- **What a lookup costs.** In an index built from any patterns, for any request: the items that the loop processes are
those of nodes of the trie, each node is visited at most once, and its wildcards are looked at later at most once; so that
the loop processes no more than twice as many items as there are segments registered, and a root. No stack of the loop is
larger than twice the number of segments of the request, and one. -/
theorem lookup_cost (patterns : List (String × List Segment)) :
    let root := (RouteIndex.build patterns).root
    let start := [Work.visit root 0]
    let items := processed (expandCandidates method segments) (Work.weight segments.length)
      (shrinks_candidates method segments) start
    (RouteIndex.build patterns).findCandidates method segments =
      items.flatMap (fun work => (expandCandidates method segments work).1) ∧
    (∃ placed : List PlacedWork, placed.map Prod.snd = items ∧
      (∀ item ∈ placed, root.nodeAt item.1 = some item.2.node) ∧
      (placed.filterMap visitAddress).Nodup ∧ (placed.filterMap wildcardsAddress).Nodup) ∧
    items.length ≤ 2 * (1 + (patterns.map fun pattern => pattern.2.length).sum) ∧
    ∀ stack ∈ stackRun (expandCandidates method segments) (Work.weight segments.length)
      (shrinks_candidates method segments) start, stack.length ≤ 2 * segments.length + 1 := by
  intro root start items
  have hplaced : placedItems method segments root = walkItems [] root 0 segments := placedItems_eq method segments root
  have hvisits : (placedItems method segments root).filterMap visitAddress = root.reached segments := by
    rw [hplaced, visits_walkItems]
    simp
  have hwildcards : ((placedItems method segments root).filterMap wildcardsAddress).Subperm (root.reached segments) := by
    rw [← hvisits, hplaced]
    exact wildcards_walkItems segments [] root 0
  have hnodup : (root.reached segments).Nodup := reached_nodup segments root
  refine ⟨?_, ⟨placedItems method segments root, map_snd_placedItems method segments root, ?_, ?_, ?_⟩, ?_, ?_⟩
  · exact drain_eq_processed _ _ _
  · intro item hitem
    rw [hplaced] at hitem
    obtain ⟨rest, hrest, hnode⟩ := nodeAt_walkItems segments [] root 0 item hitem
    rw [hrest]
    exact hnode
  · rw [hvisits]
    exact hnodup
  · obtain ⟨addresses, hperm, hsub⟩ := hwildcards
    exact hperm.nodup_iff.1 (hnodup.sublist hsub)
  · have hlength : items.length = (placedItems method segments root).length := by
      rw [show items = _ from (map_snd_placedItems method segments root).symm, length_map]
    have hnodes : (root.reached segments).length ≤ 1 + (patterns.map fun pattern => pattern.2.length).sum := by
      have hle := length_reached_le (entriesOf patterns) segments
      rwa [entriesOf, map_map, show ((fun x : List Segment × Entry => x.1.length) ∘ fun x : (String × List Segment) × Nat =>
        (x.1.2, (x.1.1, x.2))) = (fun pattern => pattern.2.length) ∘ Prod.fst from rfl, ← map_map,
        zipIdx_map_fst] at hle
    have hlater := hwildcards.length_le
    rw [hlength, length_eq_visits_add, hvisits]
    omega
  · refine length_le_of_mem_stackRun _ (room_le segments.length) (room_push method segments) ?_
    intro work below hwork
    obtain ⟨rfl, rfl⟩ : work = .visit root 0 ∧ below = [] := by
      rcases suffix_cons_iff.1 hwork with heq | hnil
      · exact List.cons.inj heq
      · exact absurd (suffix_nil.1 hnil) (cons_ne_nil _ _)
    exact Nat.zero_le _

end RustRest
