import RustRest.WebSocket.Indices

/-!
# The lifecycle of a connection

A connection is connecting, open and closing, in this order. `record_opened` does not look at the state it replaces: when
`close` or `begin_shutdown` comes before the driver has reported itself open, the connection goes back from closing.

Main result: **`lifecycle_forward_iff`**.
-/

namespace RustRest

open FiniteMap

def WebSocketLifecycleState.rank : WebSocketLifecycleState → ℕ
  | .connecting => 0
  | .opened => 1
  | .closing => 2

/-- The state of a connection that can be seen. -/
def WsRuntime.lifecycle (s : WsRuntime) (id : ℕ) : Option WebSocketLifecycleState :=
  (s.connections.lookup id).map ConnectionEntry.lifecycle

section Calls

variable {hub : RuntimeHubConfig} {s : WsRuntime} {id k : ℕ} {entry : ConnectionEntry}

theorem lifecycle_insert (s : WsRuntime) (id k : ℕ) (entry : ConnectionEntry) :
    ((s.connections.insert k entry).lookup id).map ConnectionEntry.lifecycle =
      if id = k then some entry.lifecycle else s.lifecycle id := by
  rw [lookup_insert_eq]
  split <;> rfl

theorem lifecycle_insert_same (hentry : s.connections.lookup k = some entry) {entry' : ConnectionEntry}
    (heq : entry'.lifecycle = entry.lifecycle) :
    ((s.connections.insert k entry').lookup id).map ConnectionEntry.lifecycle = s.lifecycle id := by
  rw [lifecycle_insert]
  split
  · rename_i hid
    rw [hid, heq, WsRuntime.lifecycle, hentry]
    rfl
  · rfl

theorem lifecycle_setLifecycle (s : WsRuntime) (id k : ℕ) (lifecycle : WebSocketLifecycleState) :
    (s.setLifecycle k lifecycle).lifecycle id = s.lifecycle id ∨
      id = k ∧ s.lifecycle id ≠ none ∧ (s.setLifecycle k lifecycle).lifecycle id = some lifecycle := by
  unfold WsRuntime.setLifecycle
  split
  · exact Or.inl rfl
  · rename_i hentry
    refine (em (id = k)).symm.imp (fun hid => ?_) fun hid => ⟨hid, ?_, ?_⟩
    · exact (lifecycle_insert s id k _).trans (if_neg hid)
    · rw [hid, WsRuntime.lifecycle, hentry]
      exact Option.some_ne_none _
    · exact (lifecycle_insert s id k _).trans (if_pos hid)

/-- **What a call can do to the state of a connection.** -/
theorem lifecycle_call (hub : RuntimeHubConfig) (s : WsRuntime) (c : RegistryCall) (id : ℕ) :
    (s.call hub c).lifecycle id = s.lifecycle id ∨
    s.nextId = id ∧ c.isAdmit = true ∨
    (s.call hub c).lifecycle id = none ∨
    (s.call hub c).lifecycle id = some .closing ∨
    c = .recordOpened id ∧ s.lifecycle id ≠ none ∧ (s.call hub c).lifecycle id = some .opened := by
  cases c with
  | admitConnection route remoteAddr config =>
    by_cases hid : id = s.nextId
    · exact Or.inr (Or.inl ⟨hid.symm, rfl⟩)
    · refine Or.inl ?_
      show (s.admitConnection hub route remoteAddr config).2.lifecycle id = _
      unfold WsRuntime.admitConnection
      split
      · rfl
      · exact (lifecycle_insert s id _ _).trans (if_neg hid)
  | registerDriver k _ _ | registerUpgradeTask k _ | join k _ | leave k _ | leaveAll k =>
    -- the entry that these methods put has the state of the one it replaces
    refine Or.inl ?_
    dsimp only [WsRuntime.call, WsRuntime.registerDriver, WsRuntime.registerUpgradeTask, WsRuntime.join,
      WsRuntime.leave, WsRuntime.leaveAll]
    repeat' split
    all_goals try rfl
    all_goals
      have hentry := ‹s.connections.lookup k = some _›
      exact lifecycle_insert_same hentry rfl
  | recordOpened k =>
    refine (lifecycle_setLifecycle s id k .opened).imp_right fun ⟨hid, hsome, heq⟩ => ?_
    exact Or.inr (Or.inr (Or.inr ⟨by rw [hid], hsome, heq⟩))
  | recordClosing k =>
    refine (lifecycle_setLifecycle s id k .closing).imp_right fun ⟨_, _, heq⟩ => ?_
    exact Or.inr (Or.inr (Or.inl heq))
  | close k code reason =>
    show (s.close k code reason).2.lifecycle id = _ ∨ _ ∨ (s.close k code reason).2.lifecycle id = _ ∨
      (s.close k code reason).2.lifecycle id = _ ∨ _
    unfold WsRuntime.close
    split
    · exact Or.inl rfl
    · split
      · exact Or.inl rfl
      · refine (em (id = k)).symm.imp (fun hid => ?_) fun hid => Or.inr (Or.inr (Or.inl ?_))
        · exact (lifecycle_insert s id k _).trans (if_neg hid)
        · exact (lifecycle_insert s id k _).trans (if_pos hid)
  | beginShutdown =>
    have heq : s.beginShutdown.lifecycle id = (s.connections.lookup id).map fun _ => .closing := by
      show ((mapValues _ s.connections).lookup id).map _ = _
      rw [lookup_mapValues, Option.map_map]
      rfl
    cases hlookup : s.connections.lookup id with
    | none => exact Or.inr (Or.inr (Or.inl (heq.trans (by rw [hlookup]; rfl))))
    | some entry => exact Or.inr (Or.inr (Or.inr (Or.inl (heq.trans (by rw [hlookup]; rfl)))))
  | abortRemaining =>
    refine Or.inl ?_
    show ((mapValues _ s.connections).lookup id).map _ = _
    rw [lookup_mapValues, Option.map_map]
    refine congrArg (fun f => (s.connections.lookup id).map f) (funext fun entry => ?_)
    show ConnectionEntry.lifecycle (if _ then _ else _) = _
    split <;> rfl
  | release k =>
    show (s.release k).lifecycle id = _ ∨ _ ∨ (s.release k).lifecycle id = _ ∨ _
    unfold WsRuntime.release
    split
    · exact Or.inl rfl
    · by_cases hid : id = k
      · refine Or.inr (Or.inr (Or.inl ?_))
        show ((s.connections.erase k).lookup id).map _ = none
        rw [lookup_erase_eq, if_pos hid]
        rfl
      · refine Or.inl ?_
        show ((s.connections.erase k).lookup id).map _ = _
        rw [lookup_erase_eq, if_neg hid]
        rfl

theorem nextId_le_call (hub : RuntimeHubConfig) (s : WsRuntime) (c : RegistryCall) :
    s.nextId ≤ (s.call hub c).nextId := by
  have heffect := s.call_effect hub c
  generalize s.call hub c = s' at heffect ⊢
  cases heffect with
  | admitted _ => exact Nat.le_succ _
  | _ => exact le_rfl

/-! ## Going forward -/

structure WsRuntime.Past (s : WsRuntime) (id rank : ℕ) : Prop where
  cameIn : id < s.nextId
  rank_le : ∀ x, s.lifecycle id = some x → rank ≤ x.rank
  bounded : rank ≤ WebSocketLifecycleState.closing.rank

theorem WsRuntime.Past.call {rank : ℕ} (h : s.Past id rank) {c : RegistryCall}
    (hc : c = .recordOpened id → s.lifecycle id ≠ some .closing) : (s.call hub c).Past id rank := by
  refine ⟨h.cameIn.trans_le (nextId_le_call hub s c), fun x hx => ?_, h.bounded⟩
  rcases lifecycle_call hub s c id with heq | ⟨hid, -⟩ | heq | heq | ⟨rfl, hsome, heq⟩
  · exact h.rank_le x (heq.symm.trans hx)
  · exact absurd hid.symm h.cameIn.ne
  · cases heq.symm.trans hx
  · obtain rfl := Option.some.inj (heq.symm.trans hx)
    exact h.bounded
  · obtain rfl := Option.some.inj (heq.symm.trans hx)
    obtain ⟨y, hy⟩ := Option.ne_none_iff_exists'.1 hsome
    have hle := h.rank_le y hy
    cases y with
    | connecting => exact hle.trans (Nat.zero_le _)
    | opened => exact hle
    | closing => exact absurd hy (hc rfl)

theorem WsRuntime.Past.calls {rank : ℕ} (h : s.Past id rank) {cs : List RegistryCall}
    (hcs : ∀ pre post, cs = pre ++ .recordOpened id :: post → (s.calls hub pre).lifecycle id ≠ some .closing) :
    (s.calls hub cs).Past id rank := by
  induction cs generalizing s with
  | nil => exact h
  | cons c cs ih =>
    refine ih (h.call fun hc => hcs [] cs (by rw [hc]; rfl)) fun pre post heq => ?_
    exact hcs (c :: pre) post (by rw [heq]; rfl)

theorem calls_append (hub : RuntimeHubConfig) (s : WsRuntime) (cs cs' : List RegistryCall) :
    s.calls hub (cs ++ cs') = (s.calls hub cs).calls hub cs' :=
  List.foldl_append

end Calls

/-- **The lifecycle.** In a sequence of calls every connection only goes forward, until it is released, if and only if no
connection is reported open while it is closing. -/
theorem lifecycle_forward_iff (hub : RuntimeHubConfig) (cs : List RegistryCall) :
    (∀ pre post rest, cs = pre ++ post ++ rest → ∀ id x y, (WsRuntime.new.calls hub pre).lifecycle id = some x →
      (WsRuntime.new.calls hub (pre ++ post)).lifecycle id = some y → x.rank ≤ y.rank) ↔
    ∀ pre id post, cs = pre ++ .recordOpened id :: post → (WsRuntime.new.calls hub pre).lifecycle id ≠ some .closing := by
  constructor
  · intro hforward pre id post heq hclosing
    have hopened : (WsRuntime.new.calls hub (pre ++ [.recordOpened id])).lifecycle id = some .opened := by
      rw [calls_append]
      show ((WsRuntime.new.calls hub pre).setLifecycle id .opened).lifecycle id = _
      unfold WsRuntime.setLifecycle
      obtain ⟨entry, hentry, -⟩ := Option.map_eq_some_iff.1 hclosing
      rw [hentry]
      exact (lifecycle_insert _ id id _).trans (if_pos rfl)
    have hle := hforward pre [.recordOpened id] post (by rw [heq, List.append_assoc]; rfl) id _ _ hclosing hopened
    exact absurd hle (by decide)
  · intro hlate pre post rest heq id x y hx hy
    have hindexed : (WsRuntime.new.calls hub pre).Indexed := indexed_new.calls pre
    have hcameIn : id < (WsRuntime.new.calls hub pre).nextId := by
      by_contra hge
      rw [WsRuntime.lifecycle, hindexed.fresh id (Nat.not_lt.1 hge)] at hx
      cases hx
    have hpast : (WsRuntime.new.calls hub pre).Past id x.rank :=
      ⟨hcameIn, fun z hz => (congrArg _ (Option.some.inj (hx.symm.trans hz))).le, by cases x <;> decide⟩
    rw [calls_append] at hy
    refine (hpast.calls fun pre' post' heq' => ?_).rank_le y hy
    rw [← calls_append]
    exact hlate (pre ++ pre') id (post' ++ rest) (by rw [heq, heq']; simp)

/-- `close` before the driver has reported itself open. -/
theorem opened_after_close :
    let hub : RuntimeHubConfig := ⟨4, 16, false, 1⟩
    let admitted : RegistryCall := .admitConnection "/a" none smallWsConfig
    (WsRuntime.new.calls hub [admitted, .close 1 1000 ""]).lifecycle 1 = some .closing ∧
    (WsRuntime.new.calls hub [admitted, .close 1 1000 "", .recordOpened 1]).lifecycle 1 = some .opened := by
  decide +kernel

end RustRest
