import RustRest.WebSocket.Lifecycle

/-!
# Forced shutdown

`abort_remaining` aborts the task of each connection once: the one that is registered when it first finds one. A driver
that is registered afterwards takes the place of that task, and no later `abort_remaining` touches it.

Main result: **`forced_shutdown`**.
-/

namespace RustRest

open FiniteMap WsRuntime List

/-! ## What a call can do to a task -/

def ConnectionEntry.task (entry : ConnectionEntry) : Option ℕ × Bool :=
  (entry.driverAbort, entry.forcedShutdownObserved)

/-- Where the entry of a connection comes from. -/
inductive TaskStep (s : WsRuntime) (id : ℕ) (entry' : ConnectionEntry) : RegistryCall → Prop where
  | admitted {route : String} {remoteAddr : Option SocketAddr} {config : ResolvedWebSocketConfig} :
      id = s.nextId → entry'.task = (none, false) → TaskStep s id entry' (.admitConnection route remoteAddr config)
  | kept {c : RegistryCall} {entry : ConnectionEntry} : s.connections.lookup id = some entry →
      entry'.task = entry.task → c ≠ .abortRemaining → (∀ sender abort, c ≠ .registerDriver id sender abort) →
      TaskStep s id entry' c
  | driver {sender abort : ℕ} {entry : ConnectionEntry} : s.connections.lookup id = some entry →
      entry'.task = (some abort, entry.forcedShutdownObserved) → TaskStep s id entry' (.registerDriver id sender abort)
  | upgrade {abort : ℕ} {entry : ConnectionEntry} : s.connections.lookup id = some entry → entry.driverAbort = none →
      entry'.task = (some abort, entry.forcedShutdownObserved) → TaskStep s id entry' (.registerUpgradeTask id abort)
  | forced {entry : ConnectionEntry} : s.connections.lookup id = some entry →
      entry'.task = (entry.driverAbort, entry.forcedShutdownObserved || entry.driverAbort.isSome) →
      TaskStep s id entry' .abortRemaining

section Steps

variable {hub : RuntimeHubConfig} {s : WsRuntime} {id : ℕ} {entry entry' : ConnectionEntry} {c : RegistryCall}

theorem TaskStep.of_insert {k : ℕ} {old new : ConnectionEntry} (hold : s.connections.lookup k = some old)
    (h : (s.connections.insert k new).lookup id = some entry') (htask : new.task = old.task)
    (habort : c ≠ .abortRemaining) (hdriver : ∀ sender abort, c ≠ .registerDriver id sender abort) :
    TaskStep s id entry' c := by
  rw [lookup_insert_eq] at h
  split at h
  · next hid =>
    cases h
    exact .kept (hid ▸ hold) htask habort hdriver
  · exact .kept h rfl habort hdriver

theorem TaskStep.of_setLifecycle {k : ℕ} {lifecycle : WebSocketLifecycleState} (habort : c ≠ .abortRemaining)
    (hdriver : ∀ sender abort, c ≠ .registerDriver id sender abort)
    (h : (s.setLifecycle k lifecycle).connections.lookup id = some entry') : TaskStep s id entry' c := by
  unfold setLifecycle at h
  split at h
  · exact .kept h rfl habort hdriver
  · next hentry => exact .of_insert hentry h rfl habort hdriver

/-- **What a call can do to the task of a connection.** -/
theorem task_step (h : (s.call hub c).connections.lookup id = some entry') : TaskStep s id entry' c := by
  cases c with
  | admitConnection route remoteAddr config =>
    replace h : (s.admitConnection hub route remoteAddr config).2.connections.lookup id = some entry' := h
    unfold admitConnection at h
    split at h
    · exact .kept h rfl nofun nofun
    · replace h := (lookup_insert_eq s.connections s.nextId _ id).symm.trans h
      split at h
      · next hid =>
        cases h
        exact .admitted hid rfl
      · exact .kept h rfl nofun nofun
  | registerDriver k sender abort =>
    replace h : (s.registerDriver k sender abort).2.connections.lookup id = some entry' := h
    unfold registerDriver at h
    split at h
    · next hnone =>
      refine .kept h rfl nofun ?_
      rintro _ _ ⟨⟩
      cases hnone.symm.trans h
    · next hentry =>
      replace h := (lookup_insert_eq s.connections k _ id).symm.trans h
      split at h
      · next hid =>
        cases h
        subst hid
        exact .driver hentry rfl
      · next hid =>
        refine .kept h rfl nofun ?_
        rintro _ _ ⟨⟩
        exact hid rfl
  | registerUpgradeTask k abort =>
    replace h : (s.registerUpgradeTask k abort).2.connections.lookup id = some entry' := h
    unfold registerUpgradeTask at h
    split at h
    · exact .kept h rfl nofun nofun
    · next hentry =>
      split at h
      · exact .kept h rfl nofun nofun
      · next hfree =>
        replace h := (lookup_insert_eq s.connections k _ id).symm.trans h
        split at h
        · next hid =>
          cases h
          subst hid
          exact .upgrade hentry (Option.not_isSome_iff_eq_none.1 hfree) rfl
        · exact .kept h rfl nofun nofun
  | join k rooms =>
    replace h : (s.join k rooms).2.connections.lookup id = some entry' := h
    unfold WsRuntime.join at h
    split at h
    · exact .kept h rfl nofun nofun
    · next hentry =>
      split at h
      · exact .kept h rfl nofun nofun
      · dsimp only at h
        split at h
        · exact .kept h rfl nofun nofun
        · exact .of_insert hentry h rfl nofun nofun
  | leave k rooms =>
    replace h : (s.leave k rooms).2.connections.lookup id = some entry' := h
    unfold WsRuntime.leave at h
    split at h
    · exact .kept h rfl nofun nofun
    · next hentry => exact .of_insert hentry h rfl nofun nofun
  | leaveAll k =>
    replace h : (s.leaveAll k).2.connections.lookup id = some entry' := h
    unfold WsRuntime.leaveAll at h
    split at h
    · exact .kept h rfl nofun nofun
    · next hentry => exact .of_insert hentry h rfl nofun nofun
  | recordOpened k | recordClosing k => exact .of_setLifecycle nofun nofun h
  | close k code reason =>
    replace h : (s.close k code reason).2.connections.lookup id = some entry' := h
    unfold WsRuntime.close at h
    split at h
    · exact .kept h rfl nofun nofun
    · split at h
      · exact .kept h rfl nofun nofun
      · next hentry => exact .of_insert hentry h rfl nofun nofun
  | beginShutdown =>
    replace h := (lookup_mapValues _ s.connections id).symm.trans h
    obtain ⟨entry, hentry, rfl⟩ := Option.map_eq_some_iff.1 h
    exact .kept hentry rfl nofun nofun
  | abortRemaining =>
    replace h := (lookup_mapValues _ s.connections id).symm.trans h
    obtain ⟨entry, hentry, rfl⟩ := Option.map_eq_some_iff.1 h
    refine .forced hentry ?_
    split
    · next hsome => simp [ConnectionEntry.task, hsome]
    · next hnone => simp [ConnectionEntry.task, hnone]
  | release k =>
    replace h : (s.release k).connections.lookup id = some entry' := h
    unfold WsRuntime.release at h
    split at h
    · exact .kept h rfl nofun nofun
    · replace h := (lookup_erase_eq s.connections k id).symm.trans h
      split at h
      · cases h
      · exact .kept h rfl nofun nofun

theorem mem_aborted_abortRemaining {handle : ℕ} : handle ∈ s.abortRemaining.aborted ↔ handle ∈ s.aborted ∨
    ∃ id entry, s.connections.lookup id = some entry ∧ entry.task = (some handle, false) := by
  unfold abortRemaining
  simp only [Finset.mem_union, Finset.mem_biUnion, mem_holders, Option.mem_toFinset, Option.mem_def]
  refine or_congr_right ⟨?_, ?_⟩
  · rintro ⟨id, ⟨entry, hentry, hdue⟩, hhandle⟩
    rw [hentry] at hhandle
    refine ⟨id, entry, hentry, Prod.ext hhandle ?_⟩
    have hflag : entry.forcedShutdownObserved = false := by simpa using (Bool.and_eq_true_iff.1 hdue).2
    exact hflag
  · rintro ⟨id, entry, hentry, htask⟩
    obtain ⟨hhandle, hflag⟩ := Prod.mk.inj htask
    refine ⟨id, ⟨entry, hentry, ?_⟩, ?_⟩
    · rw [hhandle, hflag]
      rfl
    · rw [hentry]
      exact hhandle

theorem driverAbort_abortRemaining (h : s.connections.lookup id = some entry) :
    ∃ entry', s.abortRemaining.connections.lookup id = some entry' ∧ entry'.driverAbort = entry.driverAbort := by
  refine ⟨_, (lookup_mapValues _ s.connections id).trans (by rw [h]; rfl), ?_⟩
  dsimp only
  split <;> rfl

theorem aborted_call (hc : c ≠ .abortRemaining) : (s.call hub c).aborted = s.aborted := by
  cases c with
  | abortRemaining => exact absurd rfl hc
  | _ =>
    -- no branch of another method touches the set
    dsimp only [call, admitConnection, registerDriver, registerUpgradeTask, WsRuntime.join, WsRuntime.leave, leaveAll,
      recordOpened, recordClosing, setLifecycle, WsRuntime.close, beginShutdown, WsRuntime.release]
    repeat' split
    all_goals rfl

end Steps

/-! ## Histories -/

section Histories

variable {hub : RuntimeHubConfig} {cs : List RegistryCall} {id handle : ℕ} {entry : ConnectionEntry}

theorem concat_eq_split {α : Type} {l before after : List α} {c x : α} (h : l ++ [c] = before ++ x :: after) :
    after = [] ∧ l = before ∧ c = x ∨ ∃ after', after = after' ++ [c] ∧ l = before ++ x :: after' := by
  induction after using List.reverseRecOn with
  | nil =>
    obtain ⟨hl, hc⟩ := append_inj' h rfl
    exact .inl ⟨rfl, hl, head_eq_of_cons_eq hc⟩
  | append_singleton after y _ =>
    rw [← cons_append, ← append_assoc] at h
    obtain ⟨hl, hc⟩ := append_inj' h rfl
    exact .inr ⟨after, by rw [head_eq_of_cons_eq hc], hl⟩

theorem exists_split_append {α : Type} {P : List α → α → Prop} {l : List α}
    (h : ∃ before x after, l = before ++ x :: after ∧ P before x) (l' : List α) :
    ∃ before x after, l ++ l' = before ++ x :: after ∧ P before x := by
  obtain ⟨before, x, after, rfl, hx⟩ := h
  exact ⟨before, x, after ++ l', by rw [append_assoc, cons_append], hx⟩

theorem split_unique {α β : Type} {f : α → Option β} {b : β} {before₁ before₂ after₁ after₂ : List α} {x y : α}
    (hnodup : ((before₁ ++ x :: after₁).filterMap f).Nodup) (h : before₁ ++ x :: after₁ = before₂ ++ y :: after₂)
    (hx : f x = some b) (hy : f y = some b) : before₁ = before₂ ∧ x = y := by
  induction before₁ generalizing before₂ with
  | nil =>
    cases before₂ with
    | nil => exact ⟨rfl, head_eq_of_cons_eq h⟩
    | cons z before₂ =>
      obtain ⟨rfl, rfl⟩ := List.cons.inj h
      rw [nil_append, filterMap_cons_some hx] at hnodup
      refine absurd (mem_filterMap.2 ⟨y, ?_, hy⟩) (nodup_cons.1 hnodup).1
      exact mem_append_right _ mem_cons_self
  | cons z before₁ ih =>
    cases before₂ with
    | nil =>
      obtain ⟨rfl, rfl⟩ := List.cons.inj h
      rw [cons_append, filterMap_cons_some hy] at hnodup
      refine absurd (mem_filterMap.2 ⟨x, ?_, hx⟩) (nodup_cons.1 hnodup).1
      exact mem_append_right _ mem_cons_self
    | cons z' before₂ =>
      obtain ⟨rfl, htail⟩ := List.cons.inj h
      have htailNodup := hnodup.sublist ((sublist_cons_self z _).filterMap f)
      obtain ⟨rfl, hxy⟩ := ih htailNodup htail
      exact ⟨rfl, hxy⟩

theorem calls_concat (hub : RuntimeHubConfig) (s : WsRuntime) (cs : List RegistryCall) (c : RegistryCall) :
    s.calls hub (cs ++ [c]) = (s.calls hub cs).call hub c := foldl_concat ..

theorem lt_nextId (h : (WsRuntime.new.calls hub cs).connections.lookup id = some entry) :
    id < (WsRuntime.new.calls hub cs).nextId := by
  by_contra hge
  cases h.symm.trans ((indexed_new.calls cs).fresh id (Nat.not_lt.1 hge))

theorem nextId_le_append (before after : List RegistryCall) :
    (WsRuntime.new.calls hub before).nextId ≤ (WsRuntime.new.calls hub (before ++ after)).nextId := by
  induction after using List.reverseRecOn with
  | nil => rw [append_nil]
  | append_singleton after c ih =>
    rw [← append_assoc, calls_concat]
    exact ih.trans (nextId_le_call hub _ c)

theorem known_before {before after : List RegistryCall} (hid : id < (WsRuntime.new.calls hub before).nextId)
    (h : (WsRuntime.new.calls hub (before ++ after)).connections.lookup id = some entry) :
    ∃ entry', (WsRuntime.new.calls hub before).connections.lookup id = some entry' := by
  induction after using List.reverseRecOn generalizing entry with
  | nil => exact ⟨entry, by rwa [append_nil] at h⟩
  | append_singleton after c ih =>
    rw [← append_assoc, calls_concat] at h
    cases task_step h with
    | admitted heq _ =>
      have hle := @nextId_le_append hub before after
      omega
    | kept hentry _ _ _ | driver hentry _ | upgrade hentry _ _ | forced hentry _ => exact ih hentry

def Forced (hub : RuntimeHubConfig) (cs : List RegistryCall) (id : ℕ) : Prop :=
  ∃ before after entry, cs = before ++ .abortRemaining :: after ∧
    (WsRuntime.new.calls hub before).connections.lookup id = some entry ∧ entry.driverAbort.isSome = true

theorem Forced.append (h : Forced hub cs id) (cs' : List RegistryCall) : Forced hub (cs ++ cs') id := by
  obtain ⟨before, after, entry, rfl, hentry, hsome⟩ := h
  exact ⟨before, after ++ cs', entry, by rw [append_assoc, cons_append], hentry, hsome⟩

theorem forced_concat {c : RegistryCall} : Forced hub (cs ++ [c]) id ↔ Forced hub cs id ∨ c = .abortRemaining ∧
    ∃ entry, (WsRuntime.new.calls hub cs).connections.lookup id = some entry ∧ entry.driverAbort.isSome = true := by
  constructor
  · rintro ⟨before, after, entry, heq, hentry, hsome⟩
    rcases concat_eq_split heq with ⟨-, rfl, rfl⟩ | ⟨after', -, rfl⟩
    · exact .inr ⟨rfl, entry, hentry, hsome⟩
    · exact .inl ⟨before, after', entry, rfl, hentry, hsome⟩
  · rintro (h | ⟨rfl, entry, hentry, hsome⟩)
    · exact h.append [c]
    · exact ⟨cs, [], entry, rfl, hentry, hsome⟩

theorem Forced.lt_nextId (h : Forced hub cs id) : id < (WsRuntime.new.calls hub cs).nextId := by
  obtain ⟨before, after, entry, rfl, hentry, -⟩ := h
  exact (RustRest.lt_nextId hentry).trans_le (nextId_le_append before _)

theorem forced_iff (h : (WsRuntime.new.calls hub cs).connections.lookup id = some entry) :
    (entry.forcedShutdownObserved = true ↔ Forced hub cs id) ∧
      (entry.forcedShutdownObserved = true → entry.driverAbort.isSome = true) := by
  induction cs using List.reverseRecOn generalizing entry with
  | nil => cases (Finmap.lookup_empty id).symm.trans h
  | append_singleton cs c ih =>
    rw [calls_concat] at h
    rw [forced_concat]
    cases task_step h with
    | admitted hid htask =>
      have hflag : entry.forcedShutdownObserved = false := congrArg Prod.snd htask
      rw [hflag]
      refine ⟨iff_of_false Bool.false_ne_true ?_, fun htrue => absurd htrue Bool.false_ne_true⟩
      rintro (hforced | ⟨hc, -⟩)
      · exact hforced.lt_nextId.ne hid
      · cases hc
    | kept hentry htask habort _ =>
      obtain ⟨hhandle, hflag⟩ := Prod.mk.inj htask
      rw [hflag, hhandle]
      exact ⟨(ih hentry).1.trans (or_iff_left fun hc => habort hc.1).symm, (ih hentry).2⟩
    | driver hentry htask | upgrade hentry _ htask =>
      obtain ⟨hhandle, hflag⟩ := Prod.mk.inj htask
      rw [hflag, hhandle]
      exact ⟨(ih hentry).1.trans (or_iff_left fun hc => nomatch hc.1).symm, fun _ => rfl⟩
    | @forced old hentry htask =>
      obtain ⟨hhandle, hflag⟩ := Prod.mk.inj htask
      obtain ⟨hiff, hsome⟩ := ih hentry
      rw [hflag, hhandle, Bool.or_eq_true]
      refine ⟨or_congr hiff ⟨fun hsome => ⟨rfl, old, hentry, hsome⟩, ?_⟩, fun h => h.elim hsome fun hsome => hsome⟩
      rintro ⟨-, entry', hentry', hsome'⟩
      cases hentry.symm.trans hentry'
      exact hsome'

theorem driver_kept {before after : List RegistryCall} {sender : ℕ} {known : ConnectionEntry}
    (hknown : (WsRuntime.new.calls hub before).connections.lookup id = some known)
    (hlast : ∀ sender' handle', RegistryCall.registerDriver id sender' handle' ∉ after)
    (h : (WsRuntime.new.calls hub (before ++ .registerDriver id sender handle :: after)).connections.lookup id =
      some entry) : entry.driverAbort = some handle := by
  induction after using List.reverseRecOn generalizing entry with
  | nil =>
    rw [calls_concat] at h
    cases task_step h with
    | kept _ _ _ hdriver => exact absurd rfl (hdriver sender handle)
    | driver _ htask => exact congrArg Prod.fst htask
  | append_singleton after c ih =>
    rw [← cons_append, ← append_assoc, calls_concat] at h
    have hkept := fun {old} => @ih old fun sender' handle' hmem => hlast sender' handle' (mem_append_left _ hmem)
    cases task_step h with
    | admitted hid _ =>
      have hlt := lt_nextId hknown
      have hle := @nextId_le_append hub before (.registerDriver id sender handle :: after)
      omega
    | kept hentry htask _ _ => exact (congrArg Prod.fst htask).trans (hkept hentry)
    | driver _ _ => exact absurd mem_concat_self (hlast _ _)
    | upgrade hentry hnone _ => cases hnone.symm.trans (hkept hentry)
    | forced hentry htask => exact (congrArg Prod.fst htask).trans (hkept hentry)

def LateDriver (hub : RuntimeHubConfig) (cs : List RegistryCall) (id handle : ℕ) : Prop :=
  ∃ before sender after, cs = before ++ .registerDriver id sender handle :: after ∧ Forced hub before id ∧
    (∀ sender' handle', RegistryCall.registerDriver id sender' handle' ∉ after) ∧
    ∃ entry, (WsRuntime.new.calls hub cs).connections.lookup id = some entry

theorem LateDriver.known (hlate : LateDriver hub cs id handle) :
    ∃ entry, (WsRuntime.new.calls hub cs).connections.lookup id = some entry := by
  obtain ⟨-, -, -, -, -, -, hknown⟩ := hlate
  exact hknown

theorem LateDriver.driverAbort (hlate : LateDriver hub cs id handle)
    (h : (WsRuntime.new.calls hub cs).connections.lookup id = some entry) : entry.driverAbort = some handle := by
  obtain ⟨before, sender, after, rfl, hforced, hlast, -⟩ := hlate
  obtain ⟨known, hknown⟩ := known_before hforced.lt_nextId h
  exact driver_kept hknown hlast h

theorem LateDriver.concat (hlate : LateDriver hub cs id handle) {c : RegistryCall}
    (hc : ∀ sender abort, c ≠ .registerDriver id sender abort)
    (h : (WsRuntime.new.calls hub (cs ++ [c])).connections.lookup id = some entry) :
    LateDriver hub (cs ++ [c]) id handle := by
  obtain ⟨before, sender, after, rfl, hforced, hlast, -⟩ := hlate
  refine ⟨before, sender, after ++ [c], by rw [append_assoc, cons_append], hforced, ?_, entry, h⟩
  intro sender' handle' hmem
  rcases mem_append.1 hmem with hmem | hmem
  · exact hlast sender' handle' hmem
  · exact hc sender' handle' (mem_singleton.1 hmem).symm

theorem aborted_or_late (h : (WsRuntime.new.calls hub cs).connections.lookup id = some entry)
    (htask : entry.task = (some handle, true)) :
    handle ∈ (WsRuntime.new.calls hub cs).aborted ∨ LateDriver hub cs id handle := by
  induction cs using List.reverseRecOn generalizing entry with
  | nil => cases (Finmap.lookup_empty id).symm.trans h
  | append_singleton cs c ih =>
    have hlookup := h
    rw [calls_concat] at h ⊢
    cases task_step h with
    | admitted _ hnone => cases htask.symm.trans hnone
    | kept hentry heq habort hdriver =>
      rw [aborted_call habort]
      exact (ih hentry (heq.symm.trans htask)).imp_right fun hlate => hlate.concat hdriver hlookup
    | @driver sender abort old hentry heq =>
      obtain ⟨hhandle, hflag⟩ := Prod.mk.inj (heq.symm.trans htask)
      obtain rfl := Option.some.inj hhandle
      exact .inr ⟨cs, sender, [], rfl, (forced_iff hentry).1.1 hflag, nofun, entry, hlookup⟩
    | upgrade hentry hnone heq =>
      -- a connection that was forced has a task, so that no upgrade task is registered
      obtain ⟨-, hflag⟩ := Prod.mk.inj (heq.symm.trans htask)
      have hsome := (forced_iff hentry).2 hflag
      rw [hnone] at hsome
      cases hsome
    | @forced old hentry heq =>
      obtain ⟨hhandle, hflag⟩ := Prod.mk.inj (heq.symm.trans htask)
      show handle ∈ (WsRuntime.new.calls hub cs).abortRemaining.aborted ∨ _
      rw [mem_aborted_abortRemaining]
      cases hold : old.forcedShutdownObserved with
      | false => exact .inl (.inr ⟨id, old, hentry, Prod.ext hhandle hold⟩)
      | true =>
        refine (ih hentry (Prod.ext hhandle hold)).imp Or.inl fun hlate => hlate.concat nofun hlookup

/-! ## Tasks of their own -/

def RegistryCall.registeredHandle : RegistryCall → Option ℕ
  | .registerDriver _ _ abort => some abort
  | .registerUpgradeTask _ abort => some abort
  | _ => none

theorem registered_of_driverAbort (h : (WsRuntime.new.calls hub cs).connections.lookup id = some entry)
    (hhandle : entry.driverAbort = some handle) :
    ∃ before c after, cs = before ++ c :: after ∧ c.registeredHandle = some handle ∧
      ∀ other sender abort, c = .registerDriver other sender abort → other = id := by
  induction cs using List.reverseRecOn generalizing entry with
  | nil => cases (Finmap.lookup_empty id).symm.trans h
  | append_singleton cs c ih =>
    rw [calls_concat] at h
    cases task_step h with
    | admitted _ htask => cases hhandle.symm.trans (congrArg Prod.fst htask)
    | kept hentry htask _ _ => exact exists_split_append (ih hentry ((congrArg Prod.fst htask).symm.trans hhandle)) [c]
    | driver _ htask =>
      refine ⟨cs, _, [], rfl, (congrArg Prod.fst htask).symm.trans hhandle, ?_⟩
      rintro _ _ _ ⟨⟩
      rfl
    | upgrade _ _ htask => exact ⟨cs, _, [], rfl, (congrArg Prod.fst htask).symm.trans hhandle, nofun⟩
    | forced hentry htask => exact exists_split_append (ih hentry ((congrArg Prod.fst htask).symm.trans hhandle)) [_]

theorem task_of_aborted (h : handle ∈ (WsRuntime.new.calls hub cs).aborted) :
    ∃ before c after, cs = before ++ c :: after ∧ c = .abortRemaining ∧ ∃ id entry,
      (WsRuntime.new.calls hub before).connections.lookup id = some entry ∧ entry.task = (some handle, false) := by
  induction cs using List.reverseRecOn with
  | nil => exact absurd h (Finset.notMem_empty handle)
  | append_singleton cs c ih =>
    rw [calls_concat] at h
    by_cases hc : c = .abortRemaining
    · subst hc
      rcases mem_aborted_abortRemaining.1 h with hold | htask
      · exact exists_split_append (ih hold) _
      · exact ⟨cs, _, [], rfl, rfl, htask⟩
    · rw [aborted_call hc] at h
      exact exists_split_append (ih h) _

theorem LateDriver.not_aborted (hlate : LateDriver hub cs id handle)
    (hnodup : (cs.filterMap RegistryCall.registeredHandle).Nodup) :
    handle ∉ (WsRuntime.new.calls hub (cs ++ [.abortRemaining])).aborted := by
  intro haborted
  obtain ⟨before, sender, after, hcs, hforced, -, -⟩ := hlate
  obtain ⟨before₁, _, after₁, hsplit, rfl, id₁, entry, hentry, htask⟩ := task_of_aborted haborted
  obtain ⟨before₂, c, after₂, rfl, hc, hdriver⟩ := registered_of_driverAbort hentry (congrArg Prod.fst htask)
  -- both registrations are the same one
  have heq : before₂ ++ c :: (after₂ ++ .abortRemaining :: after₁) =
      before ++ .registerDriver id sender handle :: (after ++ [.abortRemaining]) := by
    rw [← cons_append, ← append_assoc, ← hsplit, hcs, append_assoc, cons_append]
  have hnodup₂ : ((before₂ ++ c :: (after₂ ++ .abortRemaining :: after₁)).filterMap RegistryCall.registeredHandle).Nodup := by
    rw [← cons_append, ← append_assoc, ← hsplit, filterMap_append]
    exact (append_nil _).symm ▸ hnodup
  obtain ⟨rfl, rfl⟩ := split_unique hnodup₂ heq hc rfl
  obtain rfl := hdriver id sender handle rfl
  have hflag : entry.forcedShutdownObserved = false := congrArg Prod.snd htask
  exact Bool.false_ne_true (hflag.symm.trans ((forced_iff hentry).1.2 (hforced.append _)))

end Histories

/-! ## After a forced shutdown -/

/-- The tasks of all connections are aborted. -/
def WsRuntime.AllAborted (s : WsRuntime) : Prop :=
  ∀ id entry handle, s.connections.lookup id = some entry → entry.driverAbort = some handle → handle ∈ s.aborted

/-- **Forced shutdown.** After any calls and then `abort_remaining`:
* all tasks of the connections that are there are aborted, but for drivers that were registered after an earlier
  `abort_remaining` had found a task of their connection;
* when no task is registered twice, all are aborted if and only if there is no such driver;
* whatever was called, a driver is the task of its connection until another driver is. -/
theorem forced_shutdown (hub : RuntimeHubConfig) (cs : List RegistryCall) :
    let s := WsRuntime.new.calls hub (cs ++ [.abortRemaining])
    (s.AllAborted ↔ ∀ id handle, LateDriver hub cs id handle → handle ∈ s.aborted) ∧
    ((cs.filterMap RegistryCall.registeredHandle).Nodup → (s.AllAborted ↔ ∀ id handle, ¬ LateDriver hub cs id handle)) ∧
    ∀ before id sender handle after known entry, cs = before ++ .registerDriver id sender handle :: after →
      (WsRuntime.new.calls hub before).connections.lookup id = some known →
      (∀ sender' handle', RegistryCall.registerDriver id sender' handle' ∉ after) →
      (WsRuntime.new.calls hub cs).connections.lookup id = some entry → entry.driverAbort = some handle := by
  intro s
  have hs : s = (WsRuntime.new.calls hub cs).abortRemaining := calls_concat hub _ cs _
  have hiff : s.AllAborted ↔ ∀ id handle, LateDriver hub cs id handle → handle ∈ s.aborted := by
    constructor
    · intro hall id handle hlate
      obtain ⟨entry, hentry⟩ := hlate.known
      obtain ⟨entry', hentry', hhandle⟩ := driverAbort_abortRemaining hentry
      exact hall id entry' handle (hs ▸ hentry') (hhandle.trans (hlate.driverAbort hentry))
    · intro hlate id entry' handle hentry' hhandle
      rw [hs] at hentry'
      have hstep : TaskStep (WsRuntime.new.calls hub cs) id entry' .abortRemaining := @task_step hub _ _ _ _ hentry'
      cases hstep with
      | kept _ _ habort _ => exact absurd rfl habort
      | @forced old hentry htask =>
        have hold : old.driverAbort = some handle := (congrArg Prod.fst htask).symm.trans hhandle
        have haborted := @mem_aborted_abortRemaining (WsRuntime.new.calls hub cs) handle
        rw [← hs] at haborted
        cases hflag : old.forcedShutdownObserved with
        | false => exact haborted.2 (.inr ⟨id, old, hentry, Prod.ext hold hflag⟩)
        | true =>
          rcases aborted_or_late hentry (Prod.ext hold hflag) with hbefore | hdriver
          · exact haborted.2 (.inl hbefore)
          · exact hlate id handle hdriver
  refine ⟨hiff, fun hnodup => hiff.trans ?_, ?_⟩
  · refine forall₂_congr fun id handle => ⟨fun hall hlate => hlate.not_aborted hnodup (hall hlate), ?_⟩
    exact fun hnone hlate => absurd hlate hnone
  · rintro before id sender handle after known entry rfl hknown hlast hentry
    exact driver_kept hknown hlast hentry

/-- A connection whose upgrade task is replaced by its driver before the first `abort_remaining`. -/
theorem forced_shutdown_driver :
    (WsRuntime.new.calls ⟨4, 16, false, 1⟩ [.admitConnection "/a" none smallWsConfig, .registerUpgradeTask 1 11,
      .registerDriver 1 0 12, .abortRemaining]).AllAborted := by
  have hlaw := forced_shutdown ⟨4, 16, false, 1⟩
    [.admitConnection "/a" none smallWsConfig, .registerUpgradeTask 1 11, .registerDriver 1 0 12]
  refine (hlaw.2.1 (by decide)).2 ?_
  rintro id handle ⟨before, sender, after, hcs, ⟨before', after', -, rfl, -⟩, -⟩
  have hmem : RegistryCall.abortRemaining ∈
      [.admitConnection "/a" none smallWsConfig, .registerUpgradeTask 1 11, .registerDriver 1 0 12] := by
    rw [hcs]
    simp
  exact absurd hmem (by decide)

/-- A driver that is registered between two calls of `abort_remaining` is not aborted by the second one. -/
theorem late_driver_not_aborted :
    let s := WsRuntime.new.calls ⟨4, 16, false, 1⟩ [.admitConnection "/a" none smallWsConfig,
      .registerUpgradeTask 1 11, .abortRemaining, .registerDriver 1 0 12, .abortRemaining]
    (s.connections.lookup 1).bind ConnectionEntry.driverAbort = some 12 ∧ 12 ∉ s.aborted ∧ ¬ s.AllAborted := by
  intro s
  have hdriver : (s.connections.lookup 1).bind ConnectionEntry.driverAbort = some 12 := by decide
  have hnot : 12 ∉ s.aborted := by decide
  refine ⟨hdriver, hnot, fun hall => ?_⟩
  obtain ⟨entry, hentry, hhandle⟩ := Option.bind_eq_some_iff.1 hdriver
  exact hnot (hall 1 entry 12 hentry hhandle)

end RustRest
