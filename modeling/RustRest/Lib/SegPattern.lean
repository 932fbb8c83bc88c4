import Mathlib

/-!
# Patterns over sequences of segments

A pattern is a list of segments, each a fixed key, a placeholder for one key, or a placeholder for the whole rest
(only meaningful in last position). `Fits` is matching; `order` is the precedence key of a pattern, compared
lexicographically: position by position a fixed key comes before a one-key placeholder, the end of the pattern comes
before a rest placeholder.

Among patterns that fit the same sequence, equal precedence keys mean equal patterns up to the names of placeholders
(`shape_eq_of_order_eq`), and the possible keys for a given length form one increasing list (`orders`).
-/

namespace SegTrie

open List

inductive Seg (κ ν : Type) where
  | static (key : κ)
  | param (name : ν)
  | wildcard (name : ν)
  deriving DecidableEq, Repr

variable {κ ν : Type}

/-- Names of placeholders are forgotten. -/
def Seg.shape : Seg κ ν → Seg κ Unit
  | .static k => .static k
  | .param _ => .param ()
  | .wildcard _ => .wildcard ()

def Seg.name? : Seg κ ν → Option ν
  | .static _ => none
  | .param n => some n
  | .wildcard n => some n

/-- The segment stands for the whole rest. -/
def Seg.isWildcard : Seg κ ν → Bool
  | .wildcard _ => true
  | _ => false

/-- The precedence key of a pattern. -/
def order : List (Seg κ ν) → List Nat
  | [] => [2]
  | .static _ :: p => 0 :: order p
  | .param _ :: p => 1 :: order p
  | .wildcard _ :: p => 3 :: order p

section Fits

variable [DecidableEq κ]

def Fits : List (Seg κ ν) → List κ → Bool
  | [], segs => segs.isEmpty
  | .wildcard _ :: p, _ => p.isEmpty
  | _ :: _, [] => false
  | .static k :: p, s :: segs => decide (k = s) && Fits p segs
  | .param _ :: p, _ :: segs => Fits p segs

@[simp] theorem fits_nil (segs : List κ) : Fits ([] : List (Seg κ ν)) segs = segs.isEmpty := by cases segs <;> rfl

@[simp] theorem fits_wildcard (n : ν) (p : List (Seg κ ν)) (segs : List κ) :
    Fits (.wildcard n :: p) segs = p.isEmpty := by cases segs <;> rfl

@[simp] theorem fits_static_nil (k : κ) (p : List (Seg κ ν)) : Fits (.static k :: p) [] = false := rfl

@[simp] theorem fits_param_nil (n : ν) (p : List (Seg κ ν)) : Fits (.param n :: p) ([] : List κ) = false := rfl

@[simp] theorem fits_static_cons (k s : κ) (p : List (Seg κ ν)) (segs : List κ) :
    Fits (.static k :: p) (s :: segs) = (decide (k = s) && Fits p segs) := rfl

@[simp] theorem fits_param_cons (n : ν) (s : κ) (p : List (Seg κ ν)) (segs : List κ) :
    Fits (.param n :: p) (s :: segs) = Fits p segs := rfl

theorem shape_eq_of_order_eq : ∀ {p q : List (Seg κ ν)} {segs : List κ}, Fits p segs = true → Fits q segs = true →
    order p = order q → p.map Seg.shape = q.map Seg.shape
  | [], [], _, _, _, _ => rfl
  | [], .static _ :: _, _, _, _, ho | [], .param _ :: _, _, _, _, ho | [], .wildcard _ :: _, _, _, _, ho
  | .static _ :: _, [], _, _, _, ho | .param _ :: _, [], _, _, _, ho | .wildcard _ :: _, [], _, _, _, ho
  | .static _ :: _, .param _ :: _, _, _, _, ho | .static _ :: _, .wildcard _ :: _, _, _, _, ho
  | .param _ :: _, .static _ :: _, _, _, _, ho | .param _ :: _, .wildcard _ :: _, _, _, _, ho
  | .wildcard _ :: _, .static _ :: _, _, _, _, ho | .wildcard _ :: _, .param _ :: _, _, _, _, ho => by
    simp [order] at ho
  | .static _ :: _, .static _ :: _, [], hp, _, _ | .param _ :: _, .param _ :: _, [], hp, _, _ => by simp at hp
  | .static k :: p, .static l :: q, s :: segs, hp, hq, ho => by
    simp only [fits_static_cons, Bool.and_eq_true, decide_eq_true_eq] at hp hq
    simp only [order, List.cons.injEq, true_and] at ho
    simp only [map_cons, Seg.shape, hp.1, hq.1]
    rw [shape_eq_of_order_eq hp.2 hq.2 ho]
  | .param _ :: p, .param _ :: q, s :: segs, hp, hq, ho => by
    simp only [order, List.cons.injEq, true_and] at ho
    simp only [map_cons, Seg.shape]
    have hp' : Fits p segs = true := hp
    have hq' : Fits q segs = true := hq
    rw [shape_eq_of_order_eq hp' hq' ho]
  | .wildcard _ :: p, .wildcard _ :: q, segs, hp, hq, _ => by
    simp only [fits_wildcard, List.isEmpty_iff] at hp hq
    simp [hp, hq, Seg.shape]

end Fits

/-! ## The precedence keys of one length -/

def orders : Nat → List (List Nat)
  | 0 => [[2], [3, 2]]
  | n + 1 => (orders n).map (0 :: ·) ++ (orders n).map (1 :: ·) ++ [[3, 2]]

theorem orders_pairwise : ∀ n, (orders n).Pairwise (· < ·)
  | 0 => by simp [orders, cons_lt_cons_iff]
  | n + 1 => by
    have ih := orders_pairwise n
    have hmap : ∀ d : Nat, ((orders n).map (d :: ·)).Pairwise (· < ·) := by
      intro d
      rw [pairwise_map]
      exact ih.imp (fun h => cons_lt_cons_iff.2 (Or.inr ⟨rfl, h⟩))
    have hlt : ∀ {d e : Nat} {k l : List Nat}, d < e → d :: k < e :: l := fun h =>
      cons_lt_cons_iff.2 (Or.inl h)
    simp only [orders]
    refine pairwise_append.2 ⟨pairwise_append.2 ⟨hmap 0, hmap 1, ?_⟩, pairwise_singleton _ _, ?_⟩
    · intro a ha b hb
      obtain ⟨k, _, rfl⟩ := mem_map.1 ha
      obtain ⟨l, _, rfl⟩ := mem_map.1 hb
      exact hlt (by omega)
    · intro a ha b hb
      rw [mem_singleton.1 hb]
      rcases mem_append.1 ha with ha | ha
      · obtain ⟨k, _, rfl⟩ := mem_map.1 ha; exact hlt (by omega)
      · obtain ⟨k, _, rfl⟩ := mem_map.1 ha; exact hlt (by omega)

theorem orders_nodup (n : Nat) : (orders n).Nodup := (orders_pairwise n).imp (fun h => h.ne)

theorem order_mem_orders [DecidableEq κ] : ∀ {p : List (Seg κ ν)} {segs : List κ}, Fits p segs = true →
    order p ∈ orders segs.length
  | [], [], _ => by simp [order, orders]
  | [], _ :: _, h => by simp at h
  | .static _ :: _, [], h | .param _ :: _, [], h => by simp at h
  | .wildcard _ :: p, [], h => by
    simp only [fits_wildcard, List.isEmpty_iff] at h
    simp [h, order, orders]
  | .wildcard _ :: p, _ :: _, h => by
    simp only [fits_wildcard, List.isEmpty_iff] at h
    simp [h, order, orders]
  | .static _ :: p, _ :: segs, h => by
    simp only [fits_static_cons, Bool.and_eq_true] at h
    have ih := order_mem_orders h.2
    simp [order, orders, ih]
  | .param _ :: p, _ :: segs, h => by
    have ih : order p ∈ orders segs.length := order_mem_orders h
    simp [order, orders, ih]

/-! ## Concatenation -/

theorem fits_append [DecidableEq κ] : ∀ {p : List (Seg κ ν)}, (∀ s ∈ p, s.isWildcard = false) →
    ∀ (q : List (Seg κ ν)) (segs : List κ),
      Fits (p ++ q) segs = (Fits p (segs.take p.length) && Fits q (segs.drop p.length))
  | [], _, q, segs => by simp
  | .wildcard n :: p, hp, q, segs => absurd (hp (.wildcard n) mem_cons_self) (by simp [Seg.isWildcard])
  | .static k :: p, _, q, [] | .param n :: p, _, q, [] => by simp
  | .static k :: p, hp, q, s :: segs => by
    have ih := fits_append (fun t ht => hp t (mem_cons_of_mem _ ht)) q segs
    simp [ih, Bool.and_assoc]
  | .param n :: p, hp, q, s :: segs => by
    have ih := fits_append (fun t ht => hp t (mem_cons_of_mem _ ht)) q segs
    simp [ih]

theorem order_append_lt : ∀ {p q q' : List (Seg κ ν)}, order (p ++ q) < order (p ++ q') ↔ order q < order q'
  | [], q, q' => Iff.rfl
  | s :: p, q, q' => by
    have ih := @order_append_lt p q q'
    cases s <;> simp [order, ih]

theorem order_append_inj : ∀ {p q q' : List (Seg κ ν)}, order (p ++ q) = order (p ++ q') ↔ order q = order q'
  | [], q, q' => Iff.rfl
  | s :: p, q, q' => by
    have ih := @order_append_inj p q q'
    cases s <;> simp [order, ih]

end SegTrie
