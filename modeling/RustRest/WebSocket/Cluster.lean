import RustRest.WebSocket.Broker

/-!
# Runtimes that share a broker

Each runtime numbers its publications by itself and publishes them under its node id. The broker may give a publication to
a runtime late, in any order and any number of times.

Main result: **`cluster_delivers`**.
-/

namespace RustRest

open List

theorem WsTarget.send_key {target : WsTarget} {hub : RuntimeHubConfig} {s : WsRuntime} {enqueue : ℕ → LocalEnqueueOutcome}
    {publish : WsBrokerPublication → Except WsBrokerError Unit} {id : ℕ} {message : WebSocketMessage}
    {p : WsBrokerPublication} (h : (target.send hub s enqueue publish id message).2 = some p) :
    p.key = (hub.nodeId, id) := by
  unfold WsTarget.send at h
  dsimp only at h
  repeat' split at h
  all_goals cases h
  all_goals rfl

/-- The broker keeps what was published; each runtime has its counter and what it received so far. The counter is one of
64 bits in the source and has no bound here: publications are told apart by it up to the `2 ^ 64`-th of a runtime. -/
structure Cluster (R : Type) where
  published : List WsBrokerPublication
  nextPublicationId : R → ℕ
  received : R → List WsBrokerPublication

namespace Cluster

variable {R : Type} [DecidableEq R] (hub : R → RuntimeHubConfig)

def new : Cluster R := ⟨[], fun _ => 1, fun _ => []⟩

/-- A runtime sends, or receives something that was published. -/
inductive Step : Cluster R → Cluster R → Prop where
  | send (c : Cluster R) (r : R) {target : WsTarget} {s : WsRuntime} {enqueue : ℕ → LocalEnqueueOutcome}
      {publish : WsBrokerPublication → Except WsBrokerError Unit} {message : WebSocketMessage} {p : WsBrokerPublication} :
      (target.send (hub r) s enqueue publish (c.nextPublicationId r) message).2 = some p → Step c { c with
        published := c.published ++ [p]
        nextPublicationId := Function.update c.nextPublicationId r (c.nextPublicationId r + 1) }
  | receive (c : Cluster R) (r : R) {p : WsBrokerPublication} : p ∈ c.published →
      Step c { c with received := Function.update c.received r (c.received r ++ [p]) }

/-- Under distinct node ids a key stands for one publication. -/
structure Inv (c : Cluster R) : Prop where
  numbered : ∀ p ∈ c.published, ∃ r, ∃ id < c.nextPublicationId r, p.key = ((hub r).nodeId, id)
  unique : (c.published.map WsBrokerPublication.key).Nodup
  received : ∀ r, c.received r ⊆ c.published

variable {hub} {c c' : Cluster R}

theorem Inv.step (hids : Function.Injective fun r => (hub r).nodeId) (h : c.Inv hub) (hstep : Step hub c c') :
    c'.Inv hub := by
  cases hstep with
  | @send r _ _ _ _ _ p hsend =>
    have hkey := WsTarget.send_key hsend
    refine ⟨fun q hq => ?_, ?_, fun r' q hq => mem_append_left _ (h.received r' hq)⟩
    · rcases mem_append.1 hq with hq | hq
      · obtain ⟨r', id, hlt, hq⟩ := h.numbered q hq
        refine ⟨r', id, hlt.trans_le ?_, hq⟩
        dsimp only
        rw [Function.update_apply]
        split <;> simp [*]
      · exact ⟨r, _, by simp, (congrArg _ (mem_singleton.1 hq)).trans hkey⟩
    · rw [map_append]
      refine h.unique.append (nodup_singleton _) (disjoint_singleton.2 fun hmem => ?_)
      -- a number that this runtime has given is below the next one
      obtain ⟨q, hq, heq⟩ := mem_map.1 hmem
      obtain ⟨r', id, hlt, hq⟩ := h.numbered q hq
      obtain ⟨hnode, rfl⟩ := Prod.ext_iff.1 (hq.symm.trans (heq.trans hkey))
      exact absurd (hids hnode ▸ hlt) (lt_irrefl _)
  | receive r hp =>
    refine ⟨h.numbered, h.unique, fun r' => ?_⟩
    dsimp only
    rw [Function.update_apply]
    split
    · exact append_subset.2 ⟨h.received r, cons_subset.2 ⟨hp, nil_subset _⟩⟩
    · exact h.received r'

theorem Inv.run (hids : Function.Injective fun r => (hub r).nodeId) (hrun : Relation.ReflTransGen (Step hub) new c) :
    c.Inv hub := by
  induction hrun with
  | refl => exact ⟨nofun, nodup_nil, fun _ => List.Subset.refl _⟩
  | tail _ hstep ih => exact ih.step hids hstep

end Cluster

section Delivered

variable {hub : RuntimeHubConfig} {ps : List WsBrokerPublication}

/-- Where a key stands for one publication, a key that is remembered hides nothing that was not delivered. -/
theorem mem_delivered (hunique : ∀ p ∈ ps, ∀ q ∈ ps, p.key = q.key → p = q) {p : WsBrokerPublication} (hp : p ∈ ps)
    (horigin : p.origin ≠ hub.nodeId) (hvalid : validateBrokerPublication hub p = .ok ()) :
    p ∈ (BrokerNode.handleAll hub ps).delivered := by
  induction ps using List.reverseRecOn with
  | nil => cases hp
  | append_singleton ps x ih =>
    obtain ⟨hmemory, hdelivered⟩ := handleAll_delivered hub ps
    have hps : ∀ q ∈ ps, q ∈ ps ++ [x] := fun q hq => mem_append_left _ hq
    have hold : p ∈ ps → p ∈ (BrokerNode.handleAll hub ps).delivered :=
      ih fun q hq q' hq' => hunique q (hps q hq) q' (hps q' hq')
    rw [BrokerNode.handleAll, foldl_append]
    show p ∈ ((BrokerNode.handleAll hub ps).handle hub x).delivered
    rcases handle_cases hub (BrokerNode.handleAll hub ps) x with ⟨-, -, -, heq, -⟩ | ⟨hnot, heq, -⟩
    · rw [heq]
      exact mem_append.2 ((mem_append.1 hp).imp_left hold)
    · rw [heq]
      rcases mem_append.1 hp with hp | hx
      · exact hold hp
      · obtain rfl := mem_singleton.1 hx
        have hseen := (hnot.resolve_left horigin).resolve_left (not_not.2 hvalid)
        rw [hmemory.seen, mem_toFinset, hmemory.recent] at hseen
        obtain ⟨q, hq, hkey⟩ := mem_map.1 (mem_of_mem_drop hseen)
        exact hunique q (hps q (hdelivered.valid q hq).1) p hp hkey ▸ hq

theorem nodup_delivered (hfew : (ps.map WsBrokerPublication.key).toFinset.card ≤ maxSeenPublications) :
    (BrokerNode.handleAll hub ps).delivered.Nodup := by
  obtain ⟨-, hdelivered⟩ := handleAll_delivered hub ps
  refine nodup_iff_sublist.2 fun p htwice => ?_
  obtain ⟨l₁, l₂, hsplit, hp₁, hp₂⟩ := cons_sublist_iff.1 htwice
  obtain ⟨before, between₁, rfl⟩ := append_of_mem hp₁
  obtain ⟨between₂, after, rfl⟩ := append_of_mem (singleton_sublist.1 hp₂)
  have hmany := hdelivered.apart before (between₁ ++ between₂) after p p (by simp [hsplit]) rfl
  have hkeys : ∀ q ∈ (BrokerNode.handleAll hub ps).delivered, q.key ∈ (ps.map WsBrokerPublication.key).toFinset :=
    fun q hq => mem_toFinset.2 (mem_map_of_mem (hdelivered.valid q hq).1)
  -- the keys in between and that of `p` are too many
  have hsub : ((between₁ ++ between₂).map WsBrokerPublication.key).toFinset ⊆ (ps.map WsBrokerPublication.key).toFinset := by
    intro k hk
    obtain ⟨q, hq, rfl⟩ := mem_map.1 (mem_toFinset.1 hk)
    refine hkeys q ?_
    rw [hsplit]
    simp only [mem_append, mem_cons] at hq ⊢
    tauto
  have hp := hkeys p (by simp [hsplit])
  have hcard := Finset.card_erase_lt_of_mem hp
  have := Finset.card_le_card (Finset.erase_subset_erase p.key hsub)
  omega

end Delivered

/-- In every run of runtimes with distinct node ids, however the broker delays, reorders and repeats: what a runtime has
delivered is what it received of the others and found valid, so that no key hides another publication; and nothing is
delivered twice until more publications came in than a runtime remembers. -/
theorem cluster_delivers {R : Type} [DecidableEq R] {hub : R → RuntimeHubConfig}
    (hids : Function.Injective fun r => (hub r).nodeId) {c : Cluster R}
    (hrun : Relation.ReflTransGen (Cluster.Step hub) .new c) (r : R) :
    let delivered := (BrokerNode.handleAll (hub r) (c.received r)).delivered
    (∀ p, p ∈ delivered ↔
      p ∈ c.received r ∧ p.origin ≠ (hub r).nodeId ∧ validateBrokerPublication (hub r) p = .ok ()) ∧
    (((c.received r).map WsBrokerPublication.key).toFinset.card ≤ maxSeenPublications → delivered.Nodup) := by
  have hinv := Cluster.Inv.run hids hrun
  obtain ⟨-, hdelivered⟩ := handleAll_delivered (hub r) (c.received r)
  refine ⟨fun p => ⟨fun hp => ?_, fun ⟨hp, horigin, hvalid⟩ => ?_⟩, nodup_delivered⟩
  · exact ⟨(hdelivered.valid p hp).1, hdelivered.foreign p hp, (hdelivered.valid p hp).2⟩
  · refine mem_delivered (fun q hq q' hq' => ?_) hp horigin hvalid
    exact inj_on_of_nodup_map hinv.unique (hinv.received r hq) (hinv.received r hq')

/-- Node 2 sends to its route, and node 1 receives that twice. -/
theorem cluster_delivers_twice :
    let hub : Bool → RuntimeHubConfig := fun r => { brokerHub with nodeId := cond r 2 1 }
    let p : WsBrokerPublication := ⟨1, 2, .routeAll "/chat", .text "hola"⟩
    (BrokerNode.handleAll (hub false) [p, p]).delivered.Nodup ∧ p ∈ (BrokerNode.handleAll (hub false) [p, p]).delivered := by
  intro hub p
  have hsend : Cluster.Step hub .new _ := .send .new true
    (show ((WsRoute.all "/chat").send (hub true) .new (fun _ => .enqueued) (fun _ => .ok ()) 1 (.text "hola")).2 = some p
      from rfl)
  have hrun := ((Relation.ReflTransGen.single hsend).tail (.receive _ false (mem_singleton_self p))).tail
    (.receive _ false (mem_singleton_self p))
  have h := cluster_delivers (by decide) hrun false
  refine ⟨h.2 ?_, (h.1 p).2 ⟨mem_cons_self, by decide, by decide +kernel⟩⟩
  unfold maxSeenPublications
  decide

end RustRest
