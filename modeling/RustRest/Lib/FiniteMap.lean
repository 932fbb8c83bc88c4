import Mathlib

/-!
# Finite maps: keys, restriction and sums

Facts on `Finmap` that Mathlib does not have.
-/

namespace FiniteMap

open List

variable {K V : Type} [DecidableEq K]

abbrev Map (K V : Type) := Finmap fun _ : K => V

/-- The map after one key was set. -/
theorem lookup_insert_eq (m : Map K V) (a : K) (b : V) (k : K) :
    (m.insert a b).lookup k = if k = a then some b else m.lookup k := by
  split
  · rename_i heq
    rw [heq, Finmap.lookup_insert]
  · rename_i hne
    exact Finmap.lookup_insert_of_ne _ hne

/-- The map after one key was erased. -/
theorem lookup_erase_eq (m : Map K V) (a k : K) : (m.erase a).lookup k = if k = a then none else m.lookup k := by
  split
  · rename_i heq
    rw [heq, Finmap.lookup_erase]
  · rename_i hne
    exact Finmap.lookup_erase_ne hne

variable {a : K}

theorem insert_erase {m : Map K V} {b : V} (h : m.lookup a = some b) : (m.erase a).insert a b = m := by
  refine Finmap.ext_lookup fun k => ?_
  rw [lookup_insert_eq, lookup_erase_eq]
  split
  · next heq => rw [heq, h]
  · rfl

theorem erase_of_lookup {m : Map K V} (h : m.lookup a = none) : m.erase a = m := by
  refine Finmap.ext_lookup fun k => ?_
  rw [lookup_erase_eq]
  split
  · next heq => rw [heq, h]
  · rfl

theorem mem_keys_of_lookup {m : Map K V} {b : V} (h : m.lookup a = some b) : a ∈ m.keys :=
  Finmap.mem_keys.2 (Finmap.mem_of_lookup_eq_some h)

/-! ## Sums and counts -/

/-- The sum of a quantity over all values. -/
def tally (f : V → ℕ) (m : Map K V) : ℕ := ∑ k ∈ m.keys, (m.lookup k).elim 0 f

theorem tally_eq_sum (f : V → ℕ) (m : Map K V) {ks : Finset K} (h : m.keys ⊆ ks) :
    tally f m = ∑ k ∈ ks, (m.lookup k).elim 0 f := by
  refine Finset.sum_subset h fun k _ hk => ?_
  rw [Finmap.lookup_eq_none.2 fun hmem => hk (Finmap.mem_keys.2 hmem)]
  rfl

variable {m m' : Map K V}

theorem tally_congr {f : V → ℕ} (h : ∀ k, (m'.lookup k).elim 0 f = (m.lookup k).elim 0 f) :
    tally f m' = tally f m := by
  rw [tally_eq_sum f m' Finset.subset_union_left, tally_eq_sum f m Finset.subset_union_right]
  exact Finset.sum_congr rfl fun k _ => h k

variable {new : Option V}

theorem tally_of_lookup (f : V → ℕ)
    (h : ∀ k, m'.lookup k = if k = a then new else m.lookup k) :
    tally f m' + (m.lookup a).elim 0 f = tally f m + new.elim 0 f := by
  -- both sums over the keys of both maps, the changed one apart
  have hsum : ∀ m₁ : Map K V, m₁.keys ⊆ insert a (m.keys ∪ m'.keys) → tally f m₁ =
      (m₁.lookup a).elim 0 f + ∑ k ∈ (insert a (m.keys ∪ m'.keys)).erase a, (m₁.lookup k).elim 0 f := by
    intro m₁ hm₁
    rw [tally_eq_sum f m₁ hm₁]
    exact (Finset.add_sum_erase _ _ (Finset.mem_insert_self _ _)).symm
  have hother : ∑ k ∈ (insert a (m.keys ∪ m'.keys)).erase a, (m'.lookup k).elim 0 f =
      ∑ k ∈ (insert a (m.keys ∪ m'.keys)).erase a, (m.lookup k).elim 0 f := by
    refine Finset.sum_congr rfl fun k hk => ?_
    rw [h k, if_neg (Finset.ne_of_mem_erase hk)]
  have hnew : m'.lookup a = new := by
    rw [h a, if_pos rfl]
  rw [hsum m' (Finset.subset_union_right.trans (Finset.subset_insert _ _)),
    hsum m (Finset.subset_union_left.trans (Finset.subset_insert _ _)), hother, hnew]
  omega

theorem card_keys_eq_tally (m : Map K V) : m.keys.card = tally (fun _ => 1) m := by
  rw [Finset.card_eq_sum_ones]
  refine Finset.sum_congr rfl fun k hk => ?_
  obtain ⟨v, hv⟩ := Finmap.mem_iff.1 (Finmap.mem_keys.1 hk)
  rw [hv]
  rfl

theorem card_keys_of_lookup (h : ∀ k, m'.lookup k = if k = a then new else m.lookup k) :
    m'.keys.card + (m.lookup a).elim 0 (fun _ => 1) = m.keys.card + new.elim 0 (fun _ => 1) := by
  rw [card_keys_eq_tally, card_keys_eq_tally]
  exact tally_of_lookup _ h

/-- The keys whose values have a property. -/
def holders (p : V → Bool) (m : Map K V) : Finset K := m.keys.filter fun k => (m.lookup k).any p

theorem mem_holders {p : V → Bool} {m : Map K V} {k : K} : k ∈ holders p m ↔ ∃ v, m.lookup k = some v ∧ p v = true := by
  unfold holders
  rw [Finset.mem_filter, Finmap.mem_keys, ← Finmap.lookup_isSome]
  cases m.lookup k <;> simp

theorem holders_congr {p : V → Bool} (h : ∀ k, (m'.lookup k).any p = (m.lookup k).any p) :
    holders p m' = holders p m := by
  ext k
  have hany : ∀ m : Map K V, k ∈ holders p m ↔ (m.lookup k).any p = true := fun m =>
    mem_holders.trans (Option.any_eq_true _ _).symm
  rw [hany, hany, h k]

theorem holders_of_lookup (p : V → Bool)
    (h : ∀ k, m'.lookup k = if k = a then new else m.lookup k) :
    holders p m' = if new.any p then insert a (holders p m) else (holders p m).erase a := by
  ext k
  have hmem : k ∈ holders p m' ↔ if k = a then new.any p = true else k ∈ holders p m := by
    rw [mem_holders, h k]
    by_cases hk : k = a
    · rw [if_pos hk, if_pos hk]
      cases new <;> simp
    · rw [if_neg hk, if_neg hk, mem_holders]
  rw [hmem]
  by_cases hk : k = a <;> cases hnew : new.any p <;> simp [hk]

theorem holders_of_lookup_same {p : V → Bool}
    (h : ∀ k, m'.lookup k = if k = a then new else m.lookup k) (hp : new.any p = (m.lookup a).any p) :
    holders p m' = holders p m := by
  refine holders_congr fun k => ?_
  rw [h k]
  split
  · rename_i hk
    rw [hk, hp]
  · rfl

theorem card_holders_eq_tally (p : V → Bool) (m : Map K V) :
    (holders p m).card = tally (fun v => if p v then 1 else 0) m := by
  unfold holders tally
  rw [Finset.card_filter]
  refine Finset.sum_congr rfl fun k _ => ?_
  cases m.lookup k <;> simp

theorem card_holders_of_lookup (p : V → Bool)
    (h : ∀ k, m'.lookup k = if k = a then new else m.lookup k) :
    (holders p m').card + (if (m.lookup a).any p then 1 else 0) = (holders p m).card + if new.any p then 1 else 0 := by
  have hany : ∀ o : Option V, (o.elim 0 fun v => if p v then 1 else 0) = if o.any p then 1 else 0 := fun o => by
    cases o <;> rfl
  rw [card_holders_eq_tally, card_holders_eq_tally, ← hany, ← hany]
  exact tally_of_lookup _ h

/-! ## Restriction and changes of all values -/

/-- The entries with a property. -/
def retain (p : K → V → Bool) (m : Map K V) : Map K V where
  entries := m.entries.filter fun e => p e.1 e.2
  nodupKeys := by
    rw [← Multiset.nodup_keys]
    exact Multiset.nodup_of_le (Multiset.map_le_map (Multiset.filter_le _ _)) (Multiset.nodup_keys.2 m.nodupKeys)

theorem lookup_retain (p : K → V → Bool) (m : Map K V) (a : K) : (retain p m).lookup a = (m.lookup a).filter (p a) := by
  ext b
  rw [Finmap.lookup_eq_some_iff, Option.filter_eq_some_iff, Finmap.lookup_eq_some_iff]
  exact Multiset.mem_filter

/-- All values are changed. -/
def mapValues (f : V → V) (m : Map K V) : Map K V where
  entries := m.entries.map fun e => ⟨e.1, f e.2⟩
  nodupKeys := by
    rw [← Multiset.nodup_keys, Multiset.keys, Multiset.map_map]
    exact Multiset.nodup_keys.2 m.nodupKeys

theorem lookup_mapValues (f : V → V) (m : Map K V) (a : K) : (mapValues f m).lookup a = (m.lookup a).map f := by
  ext b
  rw [Finmap.lookup_eq_some_iff, Option.map_eq_some_iff]
  refine Multiset.mem_map.trans ⟨?_, ?_⟩
  · rintro ⟨⟨k, v⟩, hmem, heq⟩
    cases heq
    exact ⟨v, Finmap.lookup_eq_some_iff.2 hmem, rfl⟩
  · rintro ⟨v, hv, rfl⟩
    exact ⟨⟨a, v⟩, Finmap.lookup_eq_some_iff.1 hv, rfl⟩

/-! ## The map of a list of pairs -/

/-- The pairs inserted one after the other. -/
def collect (pairs : List (K × V)) : Map K V := pairs.foldl (fun m pair => m.insert pair.1 pair.2) ∅

/-- The last value that the pairs list for a key. -/
def lastValue (pairs : List (K × V)) (a : K) : Option V :=
  ((pairs.filter fun pair => pair.1 = a).getLast?).map Prod.snd

theorem collect_concat (pairs : List (K × V)) (pair : K × V) :
    collect (pairs ++ [pair]) = (collect pairs).insert pair.1 pair.2 := foldl_concat ..

theorem lastValue_concat (pairs : List (K × V)) (pair : K × V) (a : K) :
    lastValue (pairs ++ [pair]) a = if a = pair.1 then some pair.2 else lastValue pairs a := by
  unfold lastValue
  rw [filter_append]
  by_cases h : pair.1 = a
  · rw [filter_singleton, decide_eq_true h, if_pos h.symm]
    simp
  · rw [filter_singleton, decide_eq_false h, if_neg (Ne.symm h)]
    simp

theorem lookup_collect (pairs : List (K × V)) (a : K) : (collect pairs).lookup a = lastValue pairs a := by
  induction pairs using List.reverseRecOn with
  | nil => rfl
  | append_singleton pairs pair ih => rw [collect_concat, lookup_insert_eq, lastValue_concat, ih]

theorem lastValue_append (pairs₁ pairs₂ : List (K × V)) (a : K) :
    lastValue (pairs₁ ++ pairs₂) a = (lastValue pairs₂ a).or (lastValue pairs₁ a) := by
  unfold lastValue
  rw [filter_append, List.getLast?_append, Option.map_or]

theorem mem_of_lastValue {pairs : List (K × V)} {b : V} (h : lastValue pairs a = some b) : (a, b) ∈ pairs := by
  obtain ⟨pair, hlast, rfl⟩ := Option.map_eq_some_iff.1 h
  obtain ⟨hmem, hkey⟩ := mem_filter.1 (mem_of_getLast? hlast)
  exact of_decide_eq_true hkey ▸ hmem

theorem lastValue_eq_none {pairs : List (K × V)} : lastValue pairs a = none ↔ a ∉ pairs.map Prod.fst := by
  rw [lastValue, Option.map_eq_none_iff, List.getLast?_eq_none_iff, filter_eq_nil_iff]
  simp only [decide_eq_true_eq, mem_map, not_exists, not_and]

theorem collect_append (pairs₁ pairs₂ : List (K × V)) :
    collect (pairs₁ ++ pairs₂) = collect pairs₂ ∪ collect pairs₁ := by
  refine Finmap.ext_lookup fun a => ?_
  rw [lookup_collect, lastValue_append]
  by_cases h : a ∈ collect pairs₂
  · obtain ⟨b, hb⟩ := Finmap.mem_iff.1 h
    rw [Finmap.lookup_union_left h, hb, ← lookup_collect, hb, Option.some_or]
  · rw [Finmap.lookup_union_right h, lookup_collect, ← lookup_collect pairs₂, Finmap.lookup_eq_none.2 h,
      Option.none_or]

theorem collect_map_eq {m : Map K V} {keys : List K} {f : K → V} (hkeys : ∀ a, a ∈ keys ↔ a ∈ m)
    (hf : ∀ a ∈ keys, m.lookup a = some (f a)) : collect (keys.map fun a => (a, f a)) = m := by
  refine Finmap.ext_lookup fun a => ?_
  rw [lookup_collect]
  by_cases h : a ∈ keys
  · rw [hf a h]
    cases hlast : lastValue (keys.map fun a => (a, f a)) a with
    | none =>
      refine absurd ?_ (lastValue_eq_none.1 hlast)
      exact mem_map.2 ⟨(a, f a), mem_map_of_mem h, rfl⟩
    | some b =>
      obtain ⟨a', -, heq⟩ := mem_map.1 (mem_of_lastValue hlast)
      cases heq
      rfl
  · rw [Finmap.lookup_eq_none.2 fun hmem => h ((hkeys a).2 hmem), lastValue_eq_none]
    intro hmem
    obtain ⟨pair, hpair, rfl⟩ := mem_map.1 hmem
    obtain ⟨a', ha', rfl⟩ := mem_map.1 hpair
    exact h ha'

/-! ## Sets in ascending order -/

section Ascending

variable {α : Type} [LinearOrder α]

def ascending (s : Finset α) : List α :=
  Quot.liftOn s.val (List.insertionSort (· ≤ ·)) fun _ _ hperm =>
    List.Perm.eq_of_pairwise (fun _ _ _ _ => le_antisymm) (pairwise_insertionSort _ _)
      (pairwise_insertionSort _ _)
      (((perm_insertionSort _ _).trans hperm).trans (perm_insertionSort _ _).symm)

theorem coe_ascending (s : Finset α) : (ascending s : Multiset α) = s.val := by
  obtain ⟨val, hnodup⟩ := s
  induction val using Quotient.inductionOn with
  | h l => exact Multiset.coe_eq_coe.2 (perm_insertionSort _ l)

@[simp] theorem mem_ascending {s : Finset α} {a : α} : a ∈ ascending s ↔ a ∈ s := by
  rw [← Multiset.mem_coe, coe_ascending, Finset.mem_val]

theorem nodup_ascending (s : Finset α) : (ascending s).Nodup := by
  rw [← Multiset.coe_nodup, coe_ascending]
  exact s.nodup

theorem pairwise_ascending (s : Finset α) : (ascending s).Pairwise (· < ·) := by
  have hle : (ascending s).Pairwise (· ≤ ·) := by
    obtain ⟨val, hnodup⟩ := s
    induction val using Quotient.inductionOn with
    | h l => exact pairwise_insertionSort _ l
  exact (hle.and (nodup_ascending s)).imp fun h => lt_of_le_of_ne h.1 h.2

end Ascending

end FiniteMap
