import RustRest.Lib.Notify
import RustRest.WebSocket.Registry

/-!
# Waiting for the registry

`wait_until_empty`, `wait_for_sender` and `wait_for_removal` of `websocket/runtime.rs` are loops: each takes a
`Notified` future, looks at the registry under its lock, and awaits the future when there is nothing to return for yet.
`register_driver` and `release` notify after they have left the lock. A `Notified` future is completed by every
`notify_waiters` behind its creation, so that it is the number of those calls before it.

Main result: **`registry_waits_end`**.
-/

namespace RustRest

open FiniteMap Notify

/-- The two `Notify` of the runtime. -/
inductive RuntimeNotify where
  | empty
  | registryChanged
  deriving DecidableEq

/-- The three loops. -/
inductive RegistryWait where
  | waitUntilEmpty
  | waitForSender (id : ℕ)
  | waitForRemoval (id : ℕ)

/-- The `Notify` whose future a loop takes. -/
def RegistryWait.channel : RegistryWait → RuntimeNotify
  | .waitUntilEmpty => .empty
  | .waitForSender _ | .waitForRemoval _ => .registryChanged

/-- The loop finds in the registry what it returns for. -/
def RegistryWait.ends (s : WsRuntime) : RegistryWait → Bool
  | .waitUntilEmpty => s.connections.keys.card == 0
  | .waitForSender id =>
    match s.connections.lookup id with
    | some entry => entry.internalSender.isSome
    | none => true
  | .waitForRemoval id => (s.connections.lookup id).isNone

/-- Whom a call notifies, in this order. -/
def WsRuntime.notifies (s : WsRuntime) : RegistryCall → List RuntimeNotify
  | .registerDriver id _ _ => if (s.connections.lookup id).isSome then [.registryChanged] else []
  | .release id =>
    if (s.connections.lookup id).isSome then
      let becameEmpty := (s.release id).connections.keys.card == 0
      (if becameEmpty then [.empty] else []) ++ [.registryChanged]
    else []
  | _ => []

def registryWaits (hub : RuntimeHubConfig) : System WsRuntime RegistryCall RegistryWait RuntimeNotify where
  effect c s := (s.call hub c, s.notifies c)
  holds k s := k.ends s
  channel := RegistryWait.channel

/-! ## What makes a loop return -/

/-- The sender of a connection, if there is the connection. -/
def WsRuntime.senders (s : WsRuntime) (id : ℕ) : Option (Option ℕ) :=
  (s.connections.lookup id).map ConnectionEntry.internalSender

variable {hub : RuntimeHubConfig} {s : WsRuntime} {c : RegistryCall} {id : ℕ}

theorem senders_insert {k : ℕ} {old new : ConnectionEntry} (hold : s.connections.lookup k = some old)
    (hsender : new.internalSender = old.internalSender) :
    ((s.connections.insert k new).lookup id).map ConnectionEntry.internalSender = s.senders id := by
  rw [WsRuntime.senders, lookup_insert_eq]
  split
  · next hid => rw [hid, hold, Option.map_some, Option.map_some, hsender]
  · rfl

theorem senders_mapValues {f : ConnectionEntry → ConnectionEntry}
    (hf : ∀ entry, (f entry).internalSender = entry.internalSender) :
    ((mapValues f s.connections).lookup id).map ConnectionEntry.internalSender = s.senders id := by
  rw [lookup_mapValues, Option.map_map]
  exact congrArg (fun f => (s.connections.lookup id).map f) (funext hf)

/-- A call that notifies nobody leaves every connection and its sender. -/
theorem senders_call (hquiet : s.notifies c = []) :
    (s.call hub c).senders id = s.senders id ∨ (s.call hub c).senders id = some none := by
  cases c with
  | admitConnection route remoteAddr config =>
    show (s.admitConnection hub route remoteAddr config).2.senders id = _ ∨
      (s.admitConnection hub route remoteAddr config).2.senders id = _
    unfold WsRuntime.admitConnection
    split
    · exact .inl rfl
    · show ((s.connections.insert _ _).lookup id).map _ = _ ∨ ((s.connections.insert _ _).lookup id).map _ = _
      rw [lookup_insert_eq]
      split
      · exact .inr rfl
      · exact .inl rfl
  | registerDriver k _ _ | release k =>
    have hnone : s.connections.lookup k = none := by
      by_contra hsome
      simp [WsRuntime.notifies, Option.isSome_iff_ne_none.2 hsome] at hquiet
    left
    simp only [WsRuntime.call, WsRuntime.registerDriver, WsRuntime.release, hnone]
  | registerUpgradeTask k _ | join k _ | leave k _ | leaveAll k | recordOpened k | recordClosing k | close k _ _ =>
    -- the entry that these methods put has the sender of the one it replaces
    left
    dsimp only [WsRuntime.call, WsRuntime.registerUpgradeTask, WsRuntime.join, WsRuntime.leave, WsRuntime.leaveAll,
      WsRuntime.recordOpened, WsRuntime.recordClosing, WsRuntime.setLifecycle, WsRuntime.close]
    repeat' split
    all_goals try rfl
    all_goals
      have hentry := ‹s.connections.lookup k = some _›
      exact senders_insert hentry rfl
  | beginShutdown => exact .inl (senders_mapValues fun _ => rfl)
  | abortRemaining => exact .inl (senders_mapValues fun entry => by split <;> rfl)

theorem ends_iff {k : RegistryWait} : k.ends s = true ↔ match k with
    | .waitUntilEmpty => ∀ id, s.senders id = none
    | .waitForSender id => s.senders id ≠ some none
    | .waitForRemoval id => s.senders id = none := by
  cases k with
  | waitUntilEmpty =>
    simp only [RegistryWait.ends, WsRuntime.senders, beq_iff_eq, Finset.card_eq_zero, Finset.eq_empty_iff_forall_notMem,
      Finmap.mem_keys, Option.map_eq_none_iff, Finmap.lookup_eq_none]
  | waitForSender id =>
    cases hid : s.connections.lookup id with
    | none => simp [RegistryWait.ends, WsRuntime.senders, hid]
    | some entry => simp [RegistryWait.ends, WsRuntime.senders, hid, Option.isSome_iff_ne_none]
  | waitForRemoval id => simp [RegistryWait.ends, WsRuntime.senders]

theorem ends_of_senders {s' : WsRuntime} {k : RegistryWait}
    (h : ∀ id, s'.senders id = s.senders id ∨ s'.senders id = some none) (hends : k.ends s' = true) :
    k.ends s = true := by
  rw [ends_iff] at hends ⊢
  cases k with
  | waitUntilEmpty => exact fun id => (h id).elim (fun h => h ▸ hends id) fun h => nomatch h.symm.trans (hends id)
  | waitForSender id => exact (h id).elim (fun heq h => hends (heq.trans h)) fun h => absurd h hends
  | waitForRemoval id => exact (h id).elim (fun heq => heq.symm.trans hends) fun h => nomatch h.symm.trans hends

theorem registryWaits_announced (hub : RuntimeHubConfig) : (registryWaits hub).Announced := by
  intro c s k hends
  replace hends : k.ends (s.call hub c) = true := hends
  show k.ends s = true ∨ k.channel ∈ s.notifies c
  by_cases hquiet : s.notifies c = []
  · exact .inl (ends_of_senders (fun id => senders_call hquiet) hends)
  · right
    have hsome : ∀ {id} {chs : List RuntimeNotify}, (if (s.connections.lookup id).isSome then chs else []) ≠ [] →
        (s.connections.lookup id).isSome := fun h => by_contra fun hnone => h (if_neg hnone)
    cases c with
    | registerDriver id sender abort =>
      have hid := hsome hquiet
      obtain ⟨entry, hentry⟩ := Option.isSome_iff_exists.1 hid
      rw [WsRuntime.notifies, if_pos hid]
      cases k with
      | waitUntilEmpty =>
        have hnone := ends_iff.1 hends id
        simp [WsRuntime.senders, WsRuntime.call, WsRuntime.registerDriver, hentry, WsRuntime.putEntry] at hnone
      | waitForSender | waitForRemoval => exact List.mem_singleton_self _
    | release id =>
      have hid := hsome hquiet
      rw [WsRuntime.notifies, if_pos hid]
      cases k with
      | waitUntilEmpty =>
        replace hends : ((s.release id).connections.keys.card == 0) = true := hends
        rw [hends]
        exact List.mem_cons_self ..
      | waitForSender | waitForRemoval => exact List.mem_append_right _ (List.mem_singleton_self _)
    | _ => exact absurd rfl hquiet

/-- In every interleaving of registry calls, of their notifications and of the turns of any number of loops: a loop that
is parked and was not notified waits for something that is not there, or the notification is still to come. Once it is
there and the notifications were made, every loop returns by its own steps, wherever it is. -/
theorem registry_waits_end (hub : RuntimeHubConfig) {st : State WsRuntime RegistryWait RuntimeNotify}
    (hrun : Relation.ReflTransGen (Step (registryWaits hub)) ⟨.new, fun _ => 0, 0⟩ st) (k : RegistryWait) :
    (.parked k (st.notified k.channel) ∈ st.threads → k.ends st.shared = false ∨ st.Owes k.channel) ∧
    (k.ends st.shared = true → ¬ st.Owes k.channel → ∀ p ts, p.InLoop k → st.threads = p ::ₘ ts →
      Relation.ReflTransGen (Step (registryWaits hub)) st { st with threads := .returned k ::ₘ ts }) := by
  have hsys := registryWaits_announced hub
  refine ⟨no_lost_wakeup hsys rfl hrun, fun hends hquiet p ts hp hthreads => ?_⟩
  refine loop_returns hsys rfl hrun ?_ hp hthreads
  rintro (hfalse | howes)
  · exact Bool.false_ne_true (hfalse.symm.trans hends)
  · exact hquiet howes

/-- A drain is parked while there is a connection, and returns when the last one is released. -/
theorem registry_waits_end_drain :
    let waits := registryWaits ⟨4, 16, false, 1⟩
    let s := WsRuntime.new.call ⟨4, 16, false, 1⟩ (.admitConnection "/a" none ⟨none, none, none, 5, 2, 8⟩)
    let st : State WsRuntime RegistryWait RuntimeNotify :=
      ⟨s.release 1, Function.update (fun _ => 0) .empty 1, .parked .waitUntilEmpty 0 ::ₘ {.notifying [.registryChanged],
        .notifying []}⟩
    Relation.ReflTransGen (Step waits) ⟨.new, fun _ => 0, 0⟩ st ∧
    Relation.ReflTransGen (Step waits) st
      { st with threads := .returned .waitUntilEmpty ::ₘ {.notifying [.registryChanged], .notifying []} } := by
  intro waits s st
  have hrun : Relation.ReflTransGen (Step waits) ⟨.new, fun _ => 0, 0⟩ st := by
    refine .head (.call (.admitConnection "/a" none ⟨none, none, none, 5, 2, 8⟩)) (.head (.wait .waitUntilEmpty) ?_)
    refine .head .take (.head (.park (by decide)) (.head (.call (.release 1)) ?_))
    refine Relation.ReflTransGen.trans (.single .notify) ?_
    rw [Multiset.cons_swap]
    exact .refl
  refine ⟨hrun, (registry_waits_end _ hrun .waitUntilEmpty).2 (by decide) ?_ _ _ (.inr ⟨0, .inr rfl⟩) rfl⟩
  rintro ⟨chs, hmem, hch⟩
  simp [st] at hmem
  rcases hmem with rfl | rfl <;> simp [RegistryWait.channel] at hch

end RustRest
