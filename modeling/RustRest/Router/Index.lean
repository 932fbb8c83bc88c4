import RustRest.Router.Pattern
import RustRest.Lib.SegTrie
import RustRest.Lib.WorkStack

/-!
# The route index

`RouteIndex` and its two lookups, both loops over an explicit stack of work.
-/

namespace RustRest

open SegTrie WorkStack List

abbrev Entry := String × Nat

/-- The trie of the routes. -/
structure RouteIndex where
  root : Node String Entry

variable (patterns : List (String × List Segment)) (method : String) (segments : List String)
  (node : Node String Entry)

def entriesOf : List (List Segment × Entry) :=
  patterns.zipIdx.map (fun x => (x.1.2, (x.1.1, x.2)))

/-- `RouteIndex::build`. -/
def RouteIndex.build : RouteIndex := ⟨SegTrie.build (entriesOf patterns)⟩

/-! ## Candidates for a method -/

def indicesFor (entries : List Entry) : List Nat :=
  (entries.filter (fun e => e.1 == method)).map Prod.snd

/-- `push_matching`: what it pushes. -/
def pushMatching (entries : List Entry) : List Nat :=
  indicesFor method entries ++ (if method = "HEAD" then indicesFor "GET" entries else []) ++
    indicesFor methodAll entries

/-- The `Work` of `collect_candidates`. -/
inductive Work where
  | visit (node : Node String Entry) (index : Nat)
  | wildcards (node : Node String Entry)

def expandCandidates : Work → List Nat × List Work
  | .wildcards node => (pushMatching method node.wildcards, [])
  | .visit node index =>
    match segments[index]? with
    -- the end of the path: `index` is never beyond it
    | none => (pushMatching method node.terminals ++ pushMatching method node.wildcards, [])
    | some segment =>
      ([], ((node.statics.lookup segment).map (Work.visit · (index + 1))).toList ++
        (node.param.map (Work.visit · (index + 1))).toList ++ [.wildcards node])

def Work.weight (n : Nat) : Work → Nat
  | .visit _ index => 4 ^ (n + 1 - index)
  | .wildcards _ => 1

theorem weight_step {n index : Nat} (h : index < n) :
    4 ^ (n + 1 - index) = 4 * 4 ^ (n - index) ∧ 0 < 4 ^ (n - index) := by
  refine ⟨?_, by positivity⟩
  rw [← Nat.pow_succ']
  congr 1
  omega

theorem shrinks_candidates :
    Shrinks (expandCandidates method segments) (Work.weight segments.length)
  | .wildcards _ => by simp [expandCandidates, Work.weight]
  | .visit node index => by
    simp only [expandCandidates]
    split
    · simp [Work.weight]
    · rename_i segment hseg
      obtain ⟨hpow, hpos⟩ := weight_step (List.getElem?_eq_some_iff.1 hseg).1
      cases node.statics.lookup segment <;> cases node.param <;> simp [Work.weight, hpow] <;> omega

/-- The loop over the nodes that fit. -/
def collectCandidates (method : String) (segments : List String) : List Nat :=
  drain (expandCandidates method segments) (Work.weight segments.length) (shrinks_candidates method segments)
    [.visit node 0] []

/-- The routes whose pattern fits, in order of precedence. -/
def RouteIndex.findCandidates (ix : RouteIndex) (method : String) (segments : List String) : List Nat :=
  collectCandidates ix.root method segments

theorem pushMatching_nil : pushMatching method [] = [] := by simp [pushMatching, indicesFor]

theorem collectCandidates_eq_visit (method : String) (segments : List String) :
    collectCandidates node method segments = node.visit (pushMatching method) segments := by
  let spec : Work → List Nat
    | .visit n i => n.visit (pushMatching method) (segments.drop i)
    | .wildcards n => pushMatching method n.wildcards
  have hspec : ∀ w, spec w = (expandCandidates method segments w).1 ++
      (expandCandidates method segments w).2.flatMap spec := by
    rintro (⟨n, i⟩ | n)
    · simp only [expandCandidates]
      split
      · rename_i hi
        have hd : segments.drop i = [] := by simpa using hi
        simp [spec, hd, Node.visit]
      · rename_i segment hi
        obtain ⟨hlt, hget⟩ := List.getElem?_eq_some_iff.1 hi
        have hd : segments.drop i = segment :: segments.drop (i + 1) := by
          rw [← hget]; exact drop_eq_getElem_cons hlt
        simp only [spec, hd, Node.visit]
        cases n.statics.lookup segment <;> cases n.param <;> simp
    · simp [spec, expandCandidates]
  rw [collectCandidates, drain_eq _ hspec]
  simp [spec]

theorem findCandidates_build :
    (RouteIndex.build patterns).findCandidates method segments =
      (orders segments.length).flatMap (fun k => pushMatching method (classOf (entriesOf patterns) segments k)) := by
  rw [RouteIndex.findCandidates, collectCandidates_eq_visit]
  exact visit_build (pushMatching_nil method) _ segments

/-! ## Matching routes of any method -/

def methodEntries (entries : List Entry) : List (Nat × String) := entries.map Prod.swap

/-- The body of the loop of `collect_methods`. -/
def expandMethods :
    Node String Entry × Nat → List (Nat × String) × List (Node String Entry × Nat)
  | (node, index) =>
    match segments[index]? with
    | none => (methodEntries node.wildcards ++ methodEntries node.terminals, [])
    | some segment =>
      (methodEntries node.wildcards, ((node.statics.lookup segment).map (·, index + 1)).toList ++
        (node.param.map (·, index + 1)).toList)

theorem shrinks_methods :
    Shrinks (expandMethods segments) (fun w => 4 ^ (segments.length + 1 - w.2))
  | (node, index) => by
    simp only [expandMethods]
    split
    · simp
    · rename_i segment hseg
      obtain ⟨hpow, hpos⟩ := weight_step (List.getElem?_eq_some_iff.1 hseg).1
      cases node.statics.lookup segment <;> cases node.param <;> simp [hpow]
      omega

/-- The loop that keeps the methods. -/
def collectMethods (segments : List String) : List (Nat × String) :=
  drain (expandMethods segments) (fun w => 4 ^ (segments.length + 1 - w.2)) (shrinks_methods segments) [(node, 0)] []

/-- The order by which `matching_methods` sorts. -/
def byIndex (a b : Nat × String) : Prop := a.1 ≤ b.1

instance : DecidableRel byIndex := fun a b => inferInstanceAs (Decidable (a.1 ≤ b.1))

instance : Std.Total byIndex := ⟨fun a b => Nat.le_total a.1 b.1⟩

instance : IsTrans (Nat × String) byIndex := ⟨fun _ _ _ hab hbc => Nat.le_trans hab hbc⟩

/-- The methods of the routes whose pattern fits. -/
def RouteIndex.matchingMethods (ix : RouteIndex) (segments : List String) : List (Nat × String) :=
  (collectMethods ix.root segments).insertionSort byIndex

def visitMethods (n : Node String Entry) : List String → List (Nat × String)
  | [] => methodEntries n.wildcards ++ methodEntries n.terminals
  | s :: segs => methodEntries n.wildcards ++
      ((match n.statics.lookup s with | some c => visitMethods c segs | none => []) ++
        (match n.param with | some c => visitMethods c segs | none => []))

theorem collectMethods_eq_visit (segments : List String) :
    collectMethods node segments = visitMethods node segments := by
  let spec : Node String Entry × Nat → List (Nat × String) := fun w => visitMethods w.1 (segments.drop w.2)
  have hspec : ∀ w, spec w = (expandMethods segments w).1 ++ (expandMethods segments w).2.flatMap spec := by
    rintro ⟨n, i⟩
    simp only [expandMethods]
    split
    · rename_i hi
      have hd : segments.drop i = [] := by simpa using hi
      simp [spec, hd, visitMethods]
    · rename_i segment hi
      obtain ⟨hlt, hget⟩ := List.getElem?_eq_some_iff.1 hi
      have hd : segments.drop i = segment :: segments.drop (i + 1) := by
        rw [← hget]; exact drop_eq_getElem_cons hlt
      simp only [spec, hd, visitMethods]
      cases n.statics.lookup segment <;> cases n.param <;> simp
  rw [collectMethods, drain_eq _ hspec]
  simp [spec]

theorem visitMethods_perm : ∀ (segs : List String) (n : Node String Entry),
    (visitMethods n segs).Perm (n.visit methodEntries segs)
  | [], n => by simpa [visitMethods, Node.visit] using perm_append_comm
  | s :: segs, n => by
    have ih := visitMethods_perm segs
    simp only [visitMethods, Node.visit]
    refine perm_append_comm.trans (List.Perm.append_right _ (List.Perm.append ?_ ?_))
    · cases n.statics.lookup s with
      | none => exact List.Perm.refl _
      | some c => exact ih c
    · cases n.param with
      | none => exact List.Perm.refl _
      | some c => exact ih c

def fittingMethods : List (Nat × String) :=
  (patterns.zipIdx.filter (fun x => Fits x.1.2 segments)).map (fun x => (x.2, x.1.1))

theorem pairwise_zipIdx {α : Type} (l : List α) : ∀ n, (l.zipIdx n).Pairwise (fun a b => a.2 < b.2) := by
  induction l with
  | nil => simp
  | cons a l ih =>
    intro n
    rw [zipIdx_cons, pairwise_cons]
    refine ⟨fun b hb => ?_, ih (n + 1)⟩
    have := le_snd_of_mem_zipIdx hb
    simp only; omega

theorem fittingMethods_pairwise :
    (fittingMethods patterns segments).Pairwise (fun a b => a.1 < b.1) := by
  rw [fittingMethods, pairwise_map]
  exact (pairwise_zipIdx patterns 0).filter _

theorem collectMethods_perm :
    (collectMethods (RouteIndex.build patterns).root segments).Perm (fittingMethods patterns segments) := by
  rw [collectMethods_eq_visit]
  refine (visitMethods_perm segments _).trans ?_
  rw [RouteIndex.build, visit_build rfl]
  have h := (flatMap_classOf_perm (entriesOf patterns) segments).map Prod.swap
  rw [map_flatMap] at h
  refine h.trans (List.Perm.of_eq ?_)
  simp [fittingMethods, entriesOf, filter_map, Function.comp_def]

theorem matchingMethods_build :
    (RouteIndex.build patterns).matchingMethods segments = fittingMethods patterns segments := by
  have hstrict := fittingMethods_pairwise patterns segments
  have hperm : ((RouteIndex.build patterns).matchingMethods segments).Perm (fittingMethods patterns segments) :=
    (perm_insertionSort byIndex _).trans (collectMethods_perm patterns segments)
  refine List.Perm.eq_of_pairwise ?_ (pairwise_insertionSort byIndex _)
    (hstrict.imp (fun h => Nat.le_of_lt h)) hperm
  · -- indices tell the routes apart
    intro a b ha hb hab hba
    have hinj : ∀ x ∈ fittingMethods patterns segments, ∀ y ∈ fittingMethods patterns segments,
        x.1 = y.1 → x = y := by
      have := List.Pairwise.forall_of_forall_of_flip
        (R := fun x y : Nat × String => x.1 = y.1 → x = y) (l := fittingMethods patterns segments)
        (fun x _ _ => rfl) (hstrict.imp (fun h e => absurd e (Nat.ne_of_lt h)))
        (hstrict.imp (fun h e => absurd e.symm (Nat.ne_of_lt h)))
      exact fun x hx y hy => this hx hy
    exact hinj a (hperm.mem_iff.1 ha) b hb (Nat.le_antisymm hab hba)

end RustRest
