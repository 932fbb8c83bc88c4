import Mathlib

/-!
# Loops over an explicit stack of work

A traversal without recursion keeps the items still to be processed on a stack: it pops one, emits some outputs, and
pushes further items. `drain` is that loop, for an `expand` that gives an item's outputs and pushes; it ends because
the pushes weigh less than the item. `drain_eq` is the rule for it: a function that satisfies the recursion equation
of the traversal gives the loop's result.

What the loop costs is read off its stacks (`stackRun`) and the items it pops (`processed`):
-/

namespace WorkStack

open List

variable {α β : Type} (expand : α → List β × List α) (weight : α → Nat)

def Shrinks : Prop := ∀ a, ((expand a).2.map weight).sum < weight a

def drain (h : Shrinks expand weight) : List α → List β → List β
  | [], out => out
  | a :: work, out => drain h ((expand a).2 ++ work) (out ++ (expand a).1)
termination_by work => (work.map weight).sum
decreasing_by
  have := h a
  simp only [map_append, sum_append, map_cons, sum_cons]
  omega

variable {expand weight}

theorem drain_eq (h : Shrinks expand weight) {spec : α → List β}
    (hspec : ∀ a, spec a = (expand a).1 ++ (expand a).2.flatMap spec) (work : List α) (out : List β) :
    drain expand weight h work out = out ++ work.flatMap spec := by
  induction work, out using drain.induct expand weight h with
  | case1 out => rw [drain]; simp
  | case2 a work out ih =>
    rw [drain, ih, flatMap_append, flatMap_cons, hspec a]
    simp only [append_assoc]

/-! ## The run of a loop -/

variable (expand weight) in
def stackRun (h : Shrinks expand weight) : List α → List (List α)
  | [] => [[]]
  | a :: work => (a :: work) :: stackRun h ((expand a).2 ++ work)
termination_by work => (work.map weight).sum
decreasing_by
  have := h a
  simp only [map_append, sum_append, map_cons, sum_cons]
  omega

variable (expand weight) in
/-- The items the loop pops. -/
def processed (h : Shrinks expand weight) (work : List α) : List α := (stackRun expand weight h work).filterMap List.head?

theorem processed_nil (h : Shrinks expand weight) : processed expand weight h [] = [] := by
  rw [processed, stackRun]
  rfl

theorem processed_cons (h : Shrinks expand weight) (a : α) (work : List α) :
    processed expand weight h (a :: work) = a :: processed expand weight h ((expand a).2 ++ work) := by
  rw [processed, stackRun]
  rfl

theorem drain_eq_processed (h : Shrinks expand weight) (work : List α) (out : List β) :
    drain expand weight h work out = out ++ (processed expand weight h work).flatMap fun a => (expand a).1 := by
  induction work, out using drain.induct expand weight h with
  | case1 out => rw [drain, processed_nil, flatMap_nil, append_nil]
  | case2 a work out ih => rw [drain, ih, processed_cons, flatMap_cons, append_assoc]

theorem processed_eq (h : Shrinks expand weight) {spec : α → List α}
    (hspec : ∀ a, spec a = a :: (expand a).2.flatMap spec) (work : List α) :
    processed expand weight h work = work.flatMap spec := by
  induction work using stackRun.induct expand weight h with
  | case1 => rw [processed_nil, flatMap_nil]
  | case2 a work ih => rw [processed_cons, ih, flatMap_append, flatMap_cons, hspec a, cons_append]

theorem processed_map {γ δ : Type} {expand' : γ → List δ × List γ} {weight' : γ → Nat} (h : Shrinks expand weight)
    (h' : Shrinks expand' weight') {f : γ → α} (hf : ∀ c, (expand' c).2.map f = (expand (f c)).2) (work : List γ) :
    (processed expand' weight' h' work).map f = processed expand weight h (work.map f) := by
  induction work using stackRun.induct expand' weight' h' with
  | case1 => rw [processed_nil, map_nil, processed_nil]
  | case2 c work ih => rw [processed_cons, map_cons, map_cons, processed_cons, ih, map_append, hf]

section Room

variable {room : α → Nat}

def Roomy (room : α → Nat) (work : List α) : Prop := ∀ a below, a :: below <:+ work → below.length ≤ room a

theorem Roomy.of_cons {a : α} {work : List α} (h : Roomy room (a :: work)) : Roomy room work :=
  fun b below hb => h b below (hb.trans (suffix_cons a work))

theorem Roomy.push {a : α} {work pushes : List α} (h : Roomy room (a :: work))
    (hpush : ∀ b below, b :: below <:+ pushes → room a + below.length ≤ room b) : Roomy room (pushes ++ work) := by
  induction pushes with
  | nil => exact h.of_cons
  | cons c pushes ih =>
    have hrest : Roomy room (pushes ++ work) := ih fun b below hb => hpush b below (hb.trans (suffix_cons c pushes))
    intro b below hb
    rw [cons_append] at hb
    rcases suffix_cons_iff.1 hb with heq | hlater
    · -- the topmost push lies on the others and on what lay below the item
      obtain ⟨rfl, rfl⟩ := List.cons.inj heq
      have hroom := hpush b pushes (suffix_refl _)
      have hbelow := h a work (suffix_refl _)
      rw [length_append]
      omega
    · exact hrest b below hlater

theorem length_le_of_mem_stackRun (h : Shrinks expand weight) {bound : Nat} (hbound : ∀ a, room a ≤ bound)
    (hpush : ∀ a b below, b :: below <:+ (expand a).2 → room a + below.length ≤ room b) {work : List α}
    (hwork : Roomy room work) : ∀ stack ∈ stackRun expand weight h work, stack.length ≤ bound + 1 := by
  induction work using stackRun.induct expand weight h with
  | case1 =>
    intro stack hstack
    rw [stackRun, mem_singleton] at hstack
    rw [hstack]
    exact Nat.zero_le _
  | case2 a work ih =>
    intro stack hstack
    rw [stackRun] at hstack
    rcases mem_cons.1 hstack with rfl | hlater
    · have hbelow := hwork a work (suffix_refl _)
      have hroom := hbound a
      rw [length_cons]
      omega
    · exact ih (hwork.push (hpush a)) stack hlater

end Room

end WorkStack
