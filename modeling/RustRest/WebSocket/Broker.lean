import RustRest.WebSocket.Hub

/-!
# Publications from other nodes

A node remembers the publications it has delivered, up to a number of them, so that one that comes again is not
delivered again. The memory is a set together with the queue in which its elements came.

Main result: **`publications_deduplicated`**.
-/

namespace RustRest

open FiniteMap List

@[irreducible] def maxSeenPublications : ℕ := 4096

/-- What a publication is remembered by. -/
def WsBrokerPublication.key (publication : WsBrokerPublication) : ℕ × ℕ := (publication.origin, publication.id)

namespace WsRuntime

variable (s : WsRuntime)

def forgetOldest : WsRuntime :=
  if s.seenPublicationOrder.length > maxSeenPublications then
    match s.seenPublicationOrder with
    | [] => s
    | expired :: rest =>
      { s with seenPublicationOrder := rest, seenPublications := s.seenPublications.erase expired }
  else s

/-- Whether the publication is new; the oldest are forgotten. -/
def markPublicationSeen (key : ℕ × ℕ) : Bool × WsRuntime :=
  if key ∈ s.seenPublications then (false, s)
  else (true, forgetOldest { s with
    seenPublications := insert key s.seenPublications
    seenPublicationOrder := s.seenPublicationOrder ++ [key] })

def recordBrokerError : WsRuntime :=
  { s with counters := { s.counters with brokerErrors := saturatingAdd s.counters.brokerErrors 1 } }

/-- `handle_broker_publication`, and whether it delivers. -/
def handleBrokerPublication (hub : RuntimeHubConfig) (publication : WsBrokerPublication) : Bool × WsRuntime :=
  if publication.origin = hub.nodeId then (false, s)
  else match validateBrokerPublication hub publication with
    | .error _ => (false, s.recordBrokerError)
    | .ok _ => s.markPublicationSeen publication.key

end WsRuntime

/-! ## A node -/

structure BrokerNode where
  runtime : WsRuntime
  delivered : List WsBrokerPublication

/-- A publication comes in. -/
def BrokerNode.handle (hub : RuntimeHubConfig) (node : BrokerNode) (publication : WsBrokerPublication) : BrokerNode where
  runtime := (node.runtime.handleBrokerPublication hub publication).2
  delivered :=
    if (node.runtime.handleBrokerPublication hub publication).1 then node.delivered ++ [publication] else node.delivered

/-- Publications come in one after the other. -/
def BrokerNode.handleAll (hub : RuntimeHubConfig) (publications : List WsBrokerPublication) : BrokerNode :=
  publications.foldl (BrokerNode.handle hub) ⟨.new, []⟩

def BrokerNode.keys (node : BrokerNode) : List (ℕ × ℕ) := node.delivered.map WsBrokerPublication.key

structure BrokerNode.Remembers (node : BrokerNode) : Prop where
  seen : node.runtime.seenPublications = node.runtime.seenPublicationOrder.toFinset
  nodup : node.runtime.seenPublicationOrder.Nodup
  length_le : node.runtime.seenPublicationOrder.length ≤ maxSeenPublications
  recent : node.runtime.seenPublicationOrder = node.keys.drop (node.keys.length - maxSeenPublications)

section Handle

variable {hub : RuntimeHubConfig} {node : BrokerNode} {publication : WsBrokerPublication}

theorem handle_cases (hub : RuntimeHubConfig) (node : BrokerNode) (publication : WsBrokerPublication) :
    (publication.origin ≠ hub.nodeId ∧ validateBrokerPublication hub publication = .ok () ∧
      publication.key ∉ node.runtime.seenPublications ∧
      (node.handle hub publication).delivered = node.delivered ++ [publication] ∧
      (node.handle hub publication).runtime = WsRuntime.forgetOldest { node.runtime with
        seenPublications := insert publication.key node.runtime.seenPublications
        seenPublicationOrder := node.runtime.seenPublicationOrder ++ [publication.key] }) ∨
    ((publication.origin = hub.nodeId ∨ validateBrokerPublication hub publication ≠ .ok () ∨
        publication.key ∈ node.runtime.seenPublications) ∧
      (node.handle hub publication).delivered = node.delivered ∧
      (node.handle hub publication).runtime.seenPublications = node.runtime.seenPublications ∧
      (node.handle hub publication).runtime.seenPublicationOrder = node.runtime.seenPublicationOrder) := by
  unfold BrokerNode.handle WsRuntime.handleBrokerPublication
  by_cases horigin : publication.origin = hub.nodeId
  · rw [if_pos horigin]
    exact Or.inr ⟨Or.inl horigin, rfl, rfl, rfl⟩
  rw [if_neg horigin]
  cases hvalid : validateBrokerPublication hub publication with
  | error e => exact Or.inr ⟨Or.inr (Or.inl nofun), rfl, rfl, rfl⟩
  | ok _ =>
    dsimp only
    unfold WsRuntime.markPublicationSeen
    by_cases hseen : publication.key ∈ node.runtime.seenPublications
    · rw [if_pos hseen]
      exact Or.inr ⟨Or.inr (Or.inr hseen), rfl, rfl, rfl⟩
    · rw [if_neg hseen]
      exact Or.inl ⟨horigin, rfl, hseen, rfl, rfl⟩

theorem forgetOldest_cases {s : WsRuntime} {key : ℕ × ℕ} (hseen : s.seenPublications = s.seenPublicationOrder.toFinset)
    (hnodup : s.seenPublicationOrder.Nodup) (hkey : key ∉ s.seenPublications)
    (hlength : s.seenPublicationOrder.length ≤ maxSeenPublications) :
    let s' := WsRuntime.forgetOldest { s with
      seenPublications := insert key s.seenPublications, seenPublicationOrder := s.seenPublicationOrder ++ [key] }
    s'.seenPublications = s'.seenPublicationOrder.toFinset ∧ s'.seenPublicationOrder.Nodup ∧
    s'.seenPublicationOrder =
      (s.seenPublicationOrder ++ [key]).drop (s.seenPublicationOrder.length + 1 - maxSeenPublications) := by
  intro s'
  have hmem : key ∉ s.seenPublicationOrder := fun h => hkey (hseen ▸ mem_toFinset.2 h)
  have hnodup' : (s.seenPublicationOrder ++ [key]).Nodup := by
    rw [nodup_append]
    refine ⟨hnodup, nodup_singleton _, fun a ha b hb => ?_⟩
    rw [mem_singleton.1 hb]
    rintro rfl
    exact hmem ha
  have hset : insert key s.seenPublications = (s.seenPublicationOrder ++ [key]).toFinset := by
    rw [hseen]
    ext x
    simp
  by_cases hfull : s.seenPublicationOrder.length = maxSeenPublications
  · -- the oldest key goes
    cases horder : s.seenPublicationOrder ++ [key] with
    | nil => simp at horder
    | cons expired rest =>
      have hs' : s' = { s with
          seenPublicationOrder := rest
          seenPublications := (insert key s.seenPublications).erase expired } := by
        show WsRuntime.forgetOldest _ = _
        unfold WsRuntime.forgetOldest
        rw [if_pos (by rw [length_append, hfull, length_singleton]; exact Nat.lt_succ_self _)]
        rw [horder]
      rw [horder] at hnodup' hset
      obtain ⟨hexpired, hrest⟩ := nodup_cons.1 hnodup'
      rw [hs', hfull, Nat.add_sub_cancel_left]
      refine ⟨?_, hrest, rfl⟩
      show (insert key s.seenPublications).erase expired = rest.toFinset
      rw [hset, toFinset_cons, Finset.erase_insert fun h => hexpired (mem_toFinset.1 h)]
  · have hs' : s' = { s with
        seenPublications := insert key s.seenPublications, seenPublicationOrder := s.seenPublicationOrder ++ [key] } := by
      show WsRuntime.forgetOldest _ = _
      unfold WsRuntime.forgetOldest
      rw [if_neg]
      rw [length_append, length_singleton]
      omega
    rw [hs', Nat.sub_eq_zero_of_le (by omega)]
    exact ⟨hset, hnodup', rfl⟩

theorem BrokerNode.Remembers.handle (h : node.Remembers) (publication : WsBrokerPublication) :
    (node.handle hub publication).Remembers := by
  rcases handle_cases hub node publication with ⟨-, -, hkey, hdelivered, hruntime⟩ | ⟨-, hdelivered, hseen, horder⟩
  · obtain ⟨hseen, hnodup, horder⟩ := forgetOldest_cases h.seen h.nodup hkey h.length_le
    have hkeys : (node.handle hub publication).keys = node.keys ++ [publication.key] := by
      unfold BrokerNode.keys
      rw [hdelivered, map_append]
      rfl
    have hrecent : (node.handle hub publication).runtime.seenPublicationOrder =
        (node.keys ++ [publication.key]).drop (node.keys.length + 1 - maxSeenPublications) := by
      rw [hruntime, horder, h.recent, ← drop_append_of_le_length (Nat.sub_le _ _), drop_drop, length_drop]
      congr 1
      omega
    constructor
    case seen =>
      rw [hruntime]
      exact hseen
    case nodup =>
      rw [hruntime]
      exact hnodup
    case length_le =>
      rw [hrecent, length_drop, length_append, length_singleton]
      omega
    case recent =>
      rw [hrecent, hkeys, length_append]
      rfl
  · constructor
    case seen =>
      rw [hseen, horder]
      exact h.seen
    case nodup =>
      rw [horder]
      exact h.nodup
    case length_le =>
      rw [horder]
      exact h.length_le
    case recent =>
      rw [horder, BrokerNode.keys, hdelivered]
      exact h.recent

structure BrokerNode.Delivered (hub : RuntimeHubConfig) (publications : List WsBrokerPublication) (node : BrokerNode) :
    Prop where
  foreign : ∀ p ∈ node.delivered, p.origin ≠ hub.nodeId
  valid : ∀ p ∈ node.delivered, p ∈ publications ∧ validateBrokerPublication hub p = .ok ()
  apart : ∀ before between after first again, node.delivered = before ++ first :: between ++ again :: after →
    again.key = first.key →
      maxSeenPublications ≤ ((between.map WsBrokerPublication.key).toFinset.erase first.key).card

theorem BrokerNode.Remembers.forgotten (h : node.Remembers) {before between : List WsBrokerPublication}
    {first : WsBrokerPublication} (hdelivered : node.delivered = before ++ first :: between)
    (hkey : first.key ∉ node.runtime.seenPublications) :
    maxSeenPublications ≤ ((between.map WsBrokerPublication.key).toFinset.erase first.key).card := by
  have hkeys : node.keys = (before.map WsBrokerPublication.key ++ [first.key]) ++
      between.map WsBrokerPublication.key := by
    unfold BrokerNode.keys
    rw [hdelivered, map_append, map_cons, append_assoc]
    rfl
  have hlength : node.keys.length = before.length + 1 + between.length := by
    rw [hkeys]
    simp only [length_append, length_map, length_singleton]
  rw [h.seen, mem_toFinset] at hkey
  have hmany : maxSeenPublications ≤ between.length := by
    by_contra hfew
    refine hkey ?_
    rw [h.recent, hkeys, append_assoc, drop_append_of_le_length]
    · exact mem_append_right _ mem_cons_self
    · rw [← append_assoc, ← hkeys, hlength, length_map]
      omega
  -- the memory is the end of what came between
  have hrecent : node.runtime.seenPublicationOrder =
      (between.map WsBrokerPublication.key).drop (between.length - maxSeenPublications) := by
    rw [h.recent, hlength, hkeys, drop_append, drop_eq_nil_of_le, nil_append]
    · simp only [length_append, length_map, length_singleton]
      congr 1
      omega
    · simp only [length_append, length_map, length_singleton]
      omega
  calc maxSeenPublications = node.runtime.seenPublicationOrder.toFinset.card := by
        rw [toFinset_card_of_nodup h.nodup, hrecent, length_drop, length_map]
        omega
    _ ≤ _ := by
        refine Finset.card_le_card fun k hk => Finset.mem_erase.2 ⟨?_, ?_⟩
        · rintro rfl
          exact hkey (mem_toFinset.1 hk)
        · rw [hrecent] at hk
          exact mem_toFinset.2 (mem_of_mem_drop (mem_toFinset.1 hk))

theorem BrokerNode.Delivered.handle {publications : List WsBrokerPublication} (h : node.Delivered hub publications)
    (hmemory : node.Remembers) (publication : WsBrokerPublication) :
    (node.handle hub publication).Delivered hub (publications ++ [publication]) := by
  rcases handle_cases hub node publication with ⟨horigin, hvalid, hkey, hdelivered, -⟩ | ⟨-, hdelivered, -⟩
  · constructor
    case foreign =>
      intro p hp
      rw [hdelivered] at hp
      rcases mem_append.1 hp with hp | hp
      · exact h.foreign p hp
      · rw [mem_singleton.1 hp]
        exact horigin
    case valid =>
      intro p hp
      rw [hdelivered] at hp
      rcases mem_append.1 hp with hp | hp
      · exact ⟨mem_append_left _ (h.valid p hp).1, (h.valid p hp).2⟩
      · rw [mem_singleton.1 hp]
        exact ⟨mem_append_right _ mem_cons_self, hvalid⟩
    case apart =>
      intro before between after first again heq hagain
      rw [hdelivered] at heq
      rcases eq_nil_or_concat' after with rfl | ⟨after, last, rfl⟩
      · -- the new one is the second of the two
        obtain ⟨hbefore, hlast⟩ := append_inj' heq rfl
        obtain rfl : publication = again := (List.cons.inj hlast).1
        exact hmemory.forgotten hbefore (hagain ▸ hkey)
      · rw [← cons_append, ← append_assoc] at heq
        exact h.apart before between after first again (append_inj' heq rfl).1 hagain
  · constructor
    case foreign =>
      rw [hdelivered]
      exact h.foreign
    case valid =>
      rw [hdelivered]
      exact fun p hp => ⟨mem_append_left _ (h.valid p hp).1, (h.valid p hp).2⟩
    case apart =>
      rw [hdelivered]
      exact h.apart

theorem handleAll_delivered (hub : RuntimeHubConfig) (publications : List WsBrokerPublication) :
    (BrokerNode.handleAll hub publications).Remembers ∧
    (BrokerNode.handleAll hub publications).Delivered hub publications := by
  induction publications using List.reverseRecOn with
  | nil =>
    exact ⟨⟨rfl, nodup_nil, Nat.zero_le _, drop_nil.symm⟩, ⟨nofun, nofun, fun before _ _ _ _ heq => by
      cases before <;> cases heq⟩⟩
  | append_singleton publications publication ih =>
    unfold BrokerNode.handleAll
    rw [foldl_append]
    exact ⟨ih.1.handle publication, ih.2.handle ih.1 publication⟩

end Handle

/-- **Publications from other nodes.** After any sequence of publications: none that was delivered is from this node; the
remembered set is the remembered queue, without duplicates and within its limit; a valid one from another node whose key
has not been seen in a valid one is delivered; what was delivered twice has as many other keys delivered in between as are
remembered; and an invalid one neither is delivered nor makes the node forget. -/
theorem publications_deduplicated (hub : RuntimeHubConfig) (publications : List WsBrokerPublication) :
    let node := BrokerNode.handleAll hub publications
    (∀ p ∈ node.delivered, p.origin ≠ hub.nodeId) ∧
    (node.runtime.seenPublications = node.runtime.seenPublicationOrder.toFinset ∧
      node.runtime.seenPublicationOrder.Nodup ∧ node.runtime.seenPublicationOrder.length ≤ maxSeenPublications) ∧
    (∀ p, p.origin ≠ hub.nodeId → validateBrokerPublication hub p = .ok () →
      (∀ q ∈ publications, q.key = p.key → validateBrokerPublication hub q ≠ .ok ()) →
        (node.handle hub p).delivered = node.delivered ++ [p]) ∧
    (∀ before between after first again, node.delivered = before ++ first :: between ++ again :: after →
      again.key = first.key →
        maxSeenPublications ≤ ((between.map WsBrokerPublication.key).toFinset.erase first.key).card) ∧
    (∀ p, validateBrokerPublication hub p ≠ .ok () → (node.handle hub p).delivered = node.delivered ∧
      (node.handle hub p).runtime.seenPublications = node.runtime.seenPublications ∧
      (node.handle hub p).runtime.seenPublicationOrder = node.runtime.seenPublicationOrder) := by
  intro node
  obtain ⟨hmemory, hdelivered⟩ := handleAll_delivered hub publications
  refine ⟨hdelivered.foreign, ⟨hmemory.seen, hmemory.nodup, hmemory.length_le⟩, ?_, hdelivered.apart, ?_⟩
  · intro p horigin hvalid hfirst
    rcases handle_cases hub node p with ⟨-, -, -, heq, -⟩ | ⟨hnot, -⟩
    · exact heq
    · rcases hnot with hown | hinvalid | hseen
      · exact absurd hown horigin
      · exact absurd hvalid hinvalid
      · -- a remembered key was delivered
        rw [hmemory.seen, mem_toFinset, hmemory.recent] at hseen
        obtain ⟨q, hq, hkey⟩ := mem_map.1 (mem_of_mem_drop hseen)
        exact absurd (hdelivered.valid q hq).2 (hfirst q (hdelivered.valid q hq).1 hkey)
  · intro p hinvalid
    rcases handle_cases hub node p with ⟨-, hvalid, -⟩ | ⟨-, heq, hseen, horder⟩
    · exact absurd hvalid hinvalid
    · exact ⟨heq, hseen, horder⟩

end RustRest
