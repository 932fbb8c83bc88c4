import Mathlib

/-!
# Searching lists in order of priority

A search loop needs less of a list than that it is sorted.
-/

namespace Priority

open List

variable {α β κ : Type}

/-! ## Prioritized lists -/

/-- What a search of `l` accepts first is `R`-before all else that it would accept. -/
def Prioritized (R : α → α → Prop) (l : List α) : Prop :=
  ∀ (p : α → Bool) (a : α), l.find? p = some a → ∀ b ∈ l, p b = true → R a b

theorem prioritized_nil (R : α → α → Prop) : Prioritized R [] := by
  intro p a h
  cases h

theorem prioritized_of_pairwise {R : α → α → Prop} : ∀ {l : List α}, (∀ a ∈ l, R a a) → l.Pairwise R →
    Prioritized R l
  | [], _, _ => prioritized_nil R
  | x :: l, hr, hp => by
    intro p a h b hb hpb
    rw [pairwise_cons] at hp
    cases hx : p x with
    | true =>
      rw [List.find?_cons_of_pos hx] at h
      cases h
      rcases mem_cons.1 hb with rfl | hb
      · exact hr _ mem_cons_self
      · exact hp.1 b hb
    | false =>
      rw [List.find?_cons_of_neg (by simp [hx])] at h
      have hbl : b ∈ l := by
        rcases mem_cons.1 hb with rfl | hb
        · rw [hx] at hpb; cases hpb
        · exact hb
      exact prioritized_of_pairwise (fun c hc => hr c (mem_cons_of_mem _ hc)) hp.2 p a h b hbl hpb

theorem Prioritized.append {R : α → α → Prop} {l m : List α} (hl : Prioritized R l) (hm : Prioritized R m)
    (hlm : ∀ a ∈ l, ∀ b ∈ m, R a b) : Prioritized R (l ++ m) := by
  intro p a h b hb hpb
  rw [List.find?_append] at h
  cases hfl : l.find? p with
  | some a' =>
    rw [hfl] at h
    cases h
    rcases mem_append.1 hb with hb | hb
    · exact hl p _ hfl b hb hpb
    · exact hlm _ (mem_of_find?_eq_some hfl) b hb
  | none =>
    rw [hfl] at h
    rcases mem_append.1 hb with hb | hb
    · exact absurd hpb (List.find?_eq_none.1 hfl b hb)
    · exact hm p a h b hb hpb

theorem Prioritized.append_subset {R : α → α → Prop} {l m : List α} (hl : Prioritized R l)
    (hml : ∀ b ∈ m, b ∈ l) : Prioritized R (l ++ m) := by
  intro p a h b hb hpb
  have hbl : b ∈ l := by
    rcases mem_append.1 hb with hb | hb
    · exact hb
    · exact hml b hb
  rw [List.find?_append] at h
  cases hfl : l.find? p with
  | some a' => rw [hfl] at h; cases h; exact hl p _ hfl b hbl hpb
  | none => exact absurd hpb (List.find?_eq_none.1 hfl b hbl)

theorem prioritized_flatMap {R : α → α → Prop} {f : κ → List α} : ∀ {ks : List κ},
    (∀ k ∈ ks, Prioritized R (f k)) → ks.Pairwise (fun k k' => ∀ a ∈ f k, ∀ b ∈ f k', R a b) →
    Prioritized R (ks.flatMap f)
  | [], _, _ => prioritized_nil R
  | k :: ks, hg, hp => by
    rw [pairwise_cons] at hp
    rw [flatMap_cons]
    refine (hg k mem_cons_self).append
      (prioritized_flatMap (fun k' hk' => hg k' (mem_cons_of_mem _ hk')) hp.2) ?_
    intro a ha b hb
    obtain ⟨k', hk', hb⟩ := mem_flatMap.1 hb
    exact hp.1 k' hk' a ha b hb

theorem findSome?_eq_bind_find? {f : α → Option β} : ∀ l : List α,
    l.findSome? f = (l.find? (fun a => (f a).isSome)).bind f
  | [] => rfl
  | x :: l => by
    cases hx : f x with
    | some b => rw [List.findSome?_cons, hx, List.find?_cons_of_pos (by simp [hx]), Option.bind_some, hx]
    | none => rw [List.findSome?_cons, hx, List.find?_cons_of_neg (by simp [hx]), findSome?_eq_bind_find? l]

/-! ## The least element under a key -/

section Least

variable {γ : Type} [LinearOrder γ] {key : α → γ}

theorem argmin_eq_some_of_least {l : List α} {a : α} (ha : a ∈ l) (hmin : ∀ b ∈ l, key a ≤ key b)
    (hinj : ∀ b ∈ l, key b = key a → b = a) : l.argmin key = some a := by
  cases h : l.argmin key with
  | none => rw [argmin_eq_none] at h; rw [h] at ha; cases ha
  | some b =>
    have hb : b ∈ l := argmin_mem h
    have hba : key b = key a := le_antisymm (le_of_mem_argmin ha h) (hmin b hb)
    rw [hinj b hb hba]

theorem Prioritized.find?_argmin {l m : List α} {p : α → Bool}
    (hl : Prioritized (fun a b => key a ≤ key b) l) (hm : ∀ a, a ∈ m ↔ a ∈ l ∧ p a = true)
    (hinj : ∀ a ∈ m, ∀ b ∈ m, key a = key b → a = b) : l.find? p = m.argmin key := by
  cases h : l.find? p with
  | none =>
    have hnil : m = [] := by
      apply eq_nil_iff_forall_not_mem.2
      intro a ha
      obtain ⟨hal, hpa⟩ := (hm a).1 ha
      exact List.find?_eq_none.1 h a hal hpa
    simp [hnil]
  | some a =>
    have ham : a ∈ m := (hm a).2 ⟨mem_of_find?_eq_some h, List.find?_some h⟩
    have hleast : ∀ c ∈ m, key a ≤ key c := fun c hc => hl p a h c ((hm c).1 hc).1 ((hm c).1 hc).2
    exact (argmin_eq_some_of_least ham hleast (fun c hc hk => hinj c hc a ham hk)).symm

theorem foldl_eq_argmin {γ' : Type} {pick : γ' → Option α} {f : α → β} {step : Option β → γ' → Option β}
    (hskip : ∀ best c, pick c = none → step best c = best)
    (hfirst : ∀ c a, pick c = some a → step none c = some (f a))
    (hnext : ∀ c a b, pick c = some a → step (some (f b)) c = some (f (if key a < key b then a else b)))
    (l : List γ') : l.foldl step none = ((l.filterMap pick).argmin key).map f := by
  have hrun : ∀ (l : List γ') (o : Option α), l.foldl step (o.map f) =
      ((l.filterMap pick).foldl (List.argAux fun b c => key b < key c) o).map f := by
    intro l
    induction l with
    | nil => intro o; rfl
    | cons c l ih =>
      intro o
      cases hc : pick c with
      | none => rw [foldl_cons, hskip _ c hc, filterMap_cons_none hc, ih]
      | some a =>
        rw [foldl_cons, filterMap_cons_some hc, foldl_cons, ← ih]
        congr 1
        cases o with
        | none => exact hfirst c a hc
        | some b =>
          rw [Option.map_some, hnext c a b hc]
          simp only [List.argAux]
          split <;> rfl
  exact hrun l none

theorem argmin_perm {l m : List α} (h : l.Perm m) (hinj : ∀ a ∈ l, ∀ b ∈ l, key a = key b → a = b) :
    l.argmin key = m.argmin key := by
  cases ha : l.argmin key with
  | none =>
    rw [argmin_eq_none] at ha
    rw [ha] at h
    rw [h.nil_eq.symm]
    rfl
  | some a =>
    have hal : a ∈ l := argmin_mem ha
    refine (argmin_eq_some_of_least (h.mem_iff.1 hal) ?_ ?_).symm
    · exact fun b hb => le_of_mem_argmin (h.mem_iff.2 hb) ha
    · exact fun b hb hk => hinj b (h.mem_iff.2 hb) a hal hk

end Least

end Priority
