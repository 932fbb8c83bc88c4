import RustRest.Session.Calls

/-!
# Ids that were invalidated

`Sessions::clear` and `Sessions::regenerate` take the entry of an id out of the store. It can come back: `Sessions::set`
admits an id that is not stored, whether it was never used or is one that another request has just invalidated.

Main result: **`invalidated_id_stays_invalid`**.
-/

namespace RustRest

open FiniteMap Threads Threads.Prog

namespace SessionStore

/-! ## Sections that insert nothing -/

/-- No id gets an entry that had none. -/
structure Shrinks (cfg : SessionsConfig) (s s' : SessionStore) : Prop where
  exact : s.Exact → s'.Exact
  absent : ∀ id, s.lookup cfg id = none → s'.lookup cfg id = none

variable {cfg : SessionsConfig} {s s' : SessionStore} {id : String}

theorem Shrinks.refl (cfg : SessionsConfig) (s : SessionStore) : Shrinks cfg s s := ⟨fun h => h, fun _ h => h⟩

theorem Put.shrinks_of_none (h : Put cfg s s' id none) : Shrinks cfg s s' where
  exact := h.exact
  absent id' hnone := by
    rw [h.lookup_eq]
    split
    · rfl
    · exact hnone

theorem Put.shrinks_of_some {entry : SessionEntry} {new : Option SessionEntry} (h : Put cfg s s' id new)
    (hentry : s.lookup cfg id = some entry) : Shrinks cfg s s' where
  exact := h.exact
  absent id' hnone := by
    rw [h.lookup_eq, if_neg, hnone]
    rintro rfl
    rw [hentry] at hnone
    cases hnone

theorem Shrinks.fetchSub (h : Shrinks cfg s s') (n : ℕ) : Shrinks cfg s (s'.fetchSub n) := ⟨h.exact, h.absent⟩

theorem touch_shrinks (cfg : SessionsConfig) (s : SessionStore) (id : String) (now : ℕ) :
    Shrinks cfg s (s.touch cfg id now).2 := by
  obtain ⟨entry, s₁, -, -, hput, htouch⟩ | ⟨-, htouch⟩ | ⟨entry, s₁, hentry, -, hput, htouch⟩ := touch_cases cfg s id now
  · rw [htouch]
    exact hput.shrinks_of_none.fetchSub 1
  · rw [htouch]
    exact .refl cfg s
  · rw [htouch]
    exact hput.shrinks_of_some hentry

theorem removeSection_shrinks (cfg : SessionsConfig) (s : SessionStore) (id key : String) (now : ℕ) :
    Shrinks cfg s (s.removeSection cfg id key now) := by
  obtain ⟨-, heq⟩ | ⟨entry, hentry, -, hput⟩ := removeSection_cases cfg s id key now
  · rw [heq]
    exact touch_shrinks cfg s id now
  · exact hput.shrinks_of_some hentry

theorem writeSection_shrinks (cfg : SessionsConfig) (s : SessionStore) (id key value : String) (now : ℕ) :
    Shrinks cfg s (s.writeSection cfg id key value now).2 := by
  obtain ⟨entry, s₁, -, -, hput, heq⟩ | ⟨-, heq⟩ | ⟨entry, error, -, -, -, heq⟩ |
    ⟨entry, data, s₁, hentry, -, -, hput, heq⟩ := writeSection_cases cfg s id key value now
  · rw [heq]
    exact hput.shrinks_of_none.fetchSub 1
  · rw [heq]
    exact .refl cfg s
  · rw [heq]
    exact .refl cfg s
  · rw [heq]
    exact hput.shrinks_of_some hentry

theorem takeSection_shrinks (cfg : SessionsConfig) (s : SessionStore) (id : String) :
    Shrinks cfg s (s.takeSection cfg id).2 := by
  obtain ⟨s₁, hput, heq⟩ := takeSection_cases cfg s id
  rw [heq]
  exact hput.shrinks_of_none

theorem sweepSection_absent (h : s.Exact) (index : Fin sessionStoreShards) (now maximum : ℕ) :
    (s.sweepSection index now maximum).2.Exact ∧
      ∀ id, s.lookup cfg id = none → (s.sweepSection index now maximum).2.lookup cfg id = none := by
  obtain ⟨n, s₁, hsweep, hclean, -⟩ := sweepSection_cases cfg h index now maximum
  rw [hsweep]
  refine ⟨hclean.exact, fun id hnone => ?_⟩
  rcases hclean.lookup_eq id with heq | ⟨heq, -⟩
  · exact heq.trans hnone
  · exact heq

theorem admitSection_put (cfg : SessionsConfig) (s : SessionStore) (id : String) (now : ℕ) :
    (s.Exact → (s.admitSection cfg id now).Exact) ∧
      ∀ id', id' ≠ id → (s.admitSection cfg id now).lookup cfg id' = s.lookup cfg id' := by
  obtain ⟨s₁, hput, heq⟩ := admitSection_cases cfg s id now
  have hother : ∀ id', id' ≠ id → s₁.lookup cfg id' = s.lookup cfg id' := fun id' hne => by
    rw [hput.lookup_eq, if_neg hne]
  rw [heq]
  split
  · exact ⟨hput.exact, hother⟩
  · exact ⟨hput.exact, hother⟩

theorem moveSection_put (cfg : SessionsConfig) (s : SessionStore) (id : String) (entry : SessionEntry) :
    (s.Exact → (s.moveSection cfg id entry).Exact) ∧
      ∀ id', id' ≠ id → (s.moveSection cfg id entry).lookup cfg id' = s.lookup cfg id' := by
  obtain ⟨s₁, hput, heq⟩ := moveSection_cases cfg s id entry
  have hother : ∀ id', id' ≠ id → s₁.lookup cfg id' = s.lookup cfg id' := fun id' hne => by
    rw [hput.lookup_eq, if_neg hne]
  rw [heq]
  split
  · exact ⟨hput.exact, hother⟩
  · exact ⟨hput.exact, hother⟩

end SessionStore

namespace SessionStore

variable {cfg : SessionsConfig} {s s' : SessionStore} {id : String}

theorem exec_shrinks {β : Type} (a : StoreAction β) {now : ℕ} {r : β} (hexec : a.exec cfg now s = some (r, s'))
    (h : s.Exact) : s'.Exact ∧ ∀ id, ¬a.Inserts id → s.lookup cfg id = none → s'.lookup cfg id = none := by
  have of_shrinks : Shrinks cfg s s' →
      s'.Exact ∧ ∀ id, ¬a.Inserts id → s.lookup cfg id = none → s'.lookup cfg id = none := fun hs =>
    ⟨hs.exact h, fun id _ hnone => hs.absent id hnone⟩
  cases a with
  | clock | load | generateId | fetchSub | unlock | takeRotation =>
    cases hexec
    exact ⟨h, fun _ _ hnone => hnone⟩
  | recordRotation old new t =>
    cases hexec
    unfold recordRotation
    dsimp only
    split <;> exact ⟨h, fun _ _ hnone => hnone⟩
  | lock =>
    replace hexec : (if s.locked then none else some (s.maintenance, { s with locked := true })) = some (r, s') := hexec
    split at hexec
    · cases hexec
    · cases hexec
      exact ⟨h, fun _ _ hnone => hnone⟩
  | resume id' t =>
    obtain rfl := congrArg Prod.snd (Option.some.inj hexec)
    exact of_shrinks (touch_shrinks cfg s id' t)
  | probe id' t =>
    obtain rfl := congrArg Prod.snd (Option.some.inj hexec)
    rw [probeSection_eq_touch]
    rw [probeSection_eq_touch] at of_shrinks
    exact of_shrinks (touch_shrinks cfg s id' t)
  | get id' key t =>
    obtain rfl := congrArg Prod.snd (Option.some.inj hexec)
    rw [getSection_eq]
    rw [getSection_eq] at of_shrinks
    exact of_shrinks (touch_shrinks cfg s id' t)
  | remove id' key t =>
    cases hexec
    exact of_shrinks (removeSection_shrinks cfg s id' key t)
  | write id' key value =>
    obtain rfl := congrArg Prod.snd (Option.some.inj hexec)
    exact of_shrinks (writeSection_shrinks cfg s id' key value now)
  | take id' =>
    obtain rfl := congrArg Prod.snd (Option.some.inj hexec)
    exact of_shrinks (takeSection_shrinks cfg s id')
  | sweep index t maximum =>
    obtain rfl := congrArg Prod.snd (Option.some.inj hexec)
    obtain ⟨hexact, habsent⟩ := @sweepSection_absent cfg s h index t maximum
    exact ⟨hexact, fun id _ hnone => habsent id hnone⟩
  | admitSession id' t =>
    cases hexec
    obtain ⟨hexact, hother⟩ := admitSection_put cfg s id' t
    exact ⟨hexact h, fun id hne hnone => (hother id fun heq => hne heq.symm).trans hnone⟩
  | move id' entry =>
    cases hexec
    obtain ⟨hexact, hother⟩ := moveSection_put cfg s id' entry
    exact ⟨hexact h, fun id hne hnone => (hother id fun heq => hne heq.symm).trans hnone⟩

end SessionStore

def Spares {α : Type} (id : String) (p : Prog StoreAction α) : Prop := p.All fun a => ¬a.Inserts id

theorem Confined.spares {α : Type} {id : String} {ids : Set String} {p : Prog StoreAction α} (h : Confined ids p)
    (hid : id ∉ ids) : Spares id p := by
  refine All.imp (fun a ha => ?_) h
  exact fun hinserts => hid (ha.2 id hinserts)

theorem Spares.bind {α γ : Type} {id : String} {p : Prog StoreAction α} {f : α → Prog StoreAction γ} (hp : Spares id p)
    (hf : ∀ r, Spares id (f r)) : Spares id (p >>= f) :=
  All.bind hp hf

/-! ## Uses of the store -/

inductive SessionUse where
  | get (sessionId key : String)
  | set (sessionId key value : String)
  | remove (sessionId key : String)
  | clear (sessionId : String)
  | regenerate (sessionId newId : String)
  | len
  | resume (sessionId : String)
  | takeRotation (sessionId : String)
  deriving DecidableEq

namespace SessionUse

/-- The program of a use, its answer left out. -/
def prog (cfg : SessionsConfig) : SessionUse → Prog StoreAction Unit
  | get id key => do let _ ← SessionStore.get id key
  | set id key value => do let _ ← SessionStore.set cfg id key value
  | remove id key => SessionStore.remove id key
  | clear id => SessionStore.clear id
  | regenerate id newId => do let _ ← Sessions.regenerateAs cfg id newId
  | len => do let _ ← SessionStore.liveLen
  | resume id => do let _ ← SessionStore.resume id
  | takeRotation id => do let _ ← perform (.takeRotation id)

def Admits (id : String) : SessionUse → Prop
  | set id' _ _ => id' = id
  | regenerate _ newId => newId = id
  | _ => False

theorem spares_prog {cfg : SessionsConfig} {id : String} {use : SessionUse} (h : ¬use.Admits id) :
    Spares id (use.prog cfg) := by
  have hempty := Set.notMem_empty id
  cases use with
  | get id' key => exact ((SessionStore.settled_get id' key).confined.spares hempty).bind fun _ => trivial
  | set id' key value =>
    exact ((SessionStore.settled_set id' key value).confined.spares fun heq => h heq.symm).bind fun _ => trivial
  | remove id' key => exact (SessionStore.settled_remove id' key).confined.spares hempty
  | clear id' => exact (SessionStore.settled_clear id').confined.spares hempty
  | regenerate id' newId =>
    have hnew := (@Sessions.confined_rotateOrCreate cfg id' newId).spares fun heq => h heq.symm
    refine Spares.bind (Spares.bind hnew fun admitted => ?_) fun _ => trivial
    cases admitted with
    | true => exact ⟨nofun, fun _ => ⟨nofun, fun _ => trivial⟩⟩
    | false => trivial
  | len => exact (SessionStore.settled_liveLen.confined.spares hempty).bind fun _ => trivial
  | resume id' => exact ((SessionStore.settled_resume id').confined.spares hempty).bind fun _ => trivial
  | takeRotation id' => exact ⟨nofun, fun _ => trivial⟩

end SessionUse

instance (id : String) (use : SessionUse) : Decidable (use.Admits id) := by
  unfold SessionUse.Admits
  split <;> infer_instance

/-- Any use may start at any time. -/
def anyUse (cfg : SessionsConfig) (_ : SessionStore) (use : SessionUse) (p : Prog StoreAction Unit) : Prop :=
  p = use.prog cfg

def anyUseBut (cfg : SessionsConfig) (id : String) (_ : SessionStore) (use : SessionUse) (p : Prog StoreAction Unit) :
    Prop :=
  p = use.prog cfg ∧ ¬use.Admits id

inductive Invalidation (cfg : SessionsConfig) (id : String) :
    Config StoreAction SessionUse SessionStore Unit → Config StoreAction SessionUse SessionStore Unit → Prop where
  | take (s : SessionStore) (pre post : List (SessionUse × Prog StoreAction Unit)) {use : SessionUse}
      (k : Option SessionEntry → Prog StoreAction Unit) : (use = .clear id ∨ ∃ newId, use = .regenerate id newId) →
      Invalidation cfg id ⟨s, pre ++ (use, .act (.take id) k) :: post⟩
        ⟨(s.takeSection cfg id).2, pre ++ (use, k (s.takeSection cfg id).1) :: post⟩

theorem Invalidation.step {cfg : SessionsConfig} {id : String} {c c' : Config StoreAction SessionUse SessionStore Unit}
    (starts : SessionStore → SessionUse → Prog StoreAction Unit → Prop) (h : Invalidation cfg id c c') :
    Step (storeMachine cfg SessionUse) starts c c' := by
  cases h with
  | take s pre post k _ => exact .act pre post 0 rfl

theorem Invalidation.absent {cfg : SessionsConfig} {id : String} {c c' : Config StoreAction SessionUse SessionStore Unit}
    (h : Invalidation cfg id c c') : c'.shared.lookup cfg id = none := by
  cases h with
  | take s pre post k _ =>
    obtain ⟨s₁, hput, heq⟩ := SessionStore.takeSection_cases cfg s id
    show (s.takeSection cfg id).2.lookup cfg id = none
    rw [heq]
    exact hput.lookup_self

/-- **Invalidation.** Once the entry of an id was taken out, and neither a use in flight at that time nor a later one can
admit it, the id is never again a session, in no interleaving. -/
theorem invalidated_id_stays_invalid (cfg : SessionsConfig) (start sessionCounter : ℕ) {id : String}
    {c c' c'' : Config StoreAction SessionUse SessionStore Unit}
    (hbefore : Run (storeMachine cfg SessionUse) (anyUse cfg) ⟨.new start sessionCounter, []⟩ c)
    (htaken : Invalidation cfg id c c') (hflight : ∀ t ∈ c.threads, t.2 = .done () ∨ ¬t.1.Admits id)
    (hafter : Run (storeMachine cfg SessionUse) (anyUseBut cfg id) c' c'') (use : SessionUse) (now : ℕ) :
    ∃ s, (SessionStore.resume id).run (storeMachine cfg SessionUse) use now c''.shared = some (false, s) := by
  -- what a use that cannot admit the id still has to do
  have hspares : ∀ t ∈ c.threads, ¬t.1.Admits id → Spares id t.2 := by
    refine threads_run (fun (use : SessionUse) p => ¬use.Admits id → Spares id p) ?_ (fun _ _ _ r hact h => (hact h).2 r)
      (fun t ht => absurd ht List.not_mem_nil) hbefore
    rintro s use p rfl h
    exact SessionUse.spares_prog h
  have hall : ∀ t ∈ c.threads, Spares id t.2 := by
    intro t ht
    rcases hflight t ht with hdone | hadmits
    · rw [hdone]
      trivial
    · exact hspares t ht hadmits
  have hall' : ∀ t ∈ c'.threads, Spares id t.2 :=
    threads_step (fun _ p => Spares id p) (fun _ _ _ h => h.elim) (fun _ _ _ r h => h.2 r) hall
      (htaken.step fun _ _ _ => False)
  have hexact : c'.shared.Exact :=
    shared_run SessionStore.Exact (fun a _ _ _ _ _ hexec h => (SessionStore.exec_shrinks a hexec h).1)
      (fun _ => SessionShard.exact_empty) (hbefore.tail (htaken.step _))
  obtain ⟨-, habsent⟩ : c''.shared.Exact ∧ c''.shared.lookup cfg id = none := by
    refine all_run (fun s => s.Exact ∧ s.lookup cfg id = none) (fun _ _ _ h => h.1 ▸ SessionUse.spares_prog h.2)
      (fun a _ _ _ _ _ ha hexec h => ?_) hall'
      ⟨hexact, htaken.absent⟩ hafter
    obtain ⟨h₁, h₂⟩ := SessionStore.exec_shrinks a hexec h.1
    exact ⟨h₁, h₂ id ha h.2⟩
  obtain ⟨entry, s₁, hentry, -⟩ | ⟨-, htouch⟩ | ⟨entry, s₁, hentry, -⟩ :=
    SessionStore.touch_cases cfg c''.shared id now
  · rw [habsent] at hentry
    cases hentry
  · exact ⟨c''.shared, congrArg some htouch⟩
  · rw [habsent] at hentry
    cases hentry

def clearing (cfg : SessionsConfig) (id : String) (c : Config StoreAction SessionUse SessionStore Unit) :
    Config StoreAction SessionUse SessionStore Unit :=
  ⟨(c.shared.takeSection cfg id).2, c.threads ++ [(.clear id,
    if (c.shared.takeSection cfg id).1.isSome then perform (.fetchSub 1) else pure ())]⟩

theorem clearing_invalidation (cfg : SessionsConfig) (id : String) (c : Config StoreAction SessionUse SessionStore Unit) :
    Invalidation cfg id ⟨c.shared, c.threads ++ [(.clear id, (SessionUse.clear id).prog cfg)]⟩ (clearing cfg id c) :=
  .take c.shared c.threads [] _ (Or.inl rfl)

def twoUses (use : SessionUse) : Config StoreAction SessionUse SessionStore Unit :=
  ⟨.new 0 1, [(.set "a" "k" "v", (SessionUse.set "a" "k" "v").prog smallConfig), (use, use.prog smallConfig)]⟩

theorem twoUses_run (use : SessionUse) : Run (storeMachine smallConfig SessionUse) (anyUse smallConfig) ⟨.new 0 1, []⟩
    (twoUses use) :=
  .head (.start rfl) (.head (.start rfl) .refl)

def oneUseAndAHalf : List (ℕ × ℕ) := List.replicate 10 (0, 1) ++ [(1, 1)]

/-- A request in flight writes to the id after `clear` has returned, and it is a session again. -/
theorem set_revives_cleared_id : ∃ c c₁ c₂ : Config StoreAction SessionUse SessionStore Unit,
    Run (storeMachine smallConfig SessionUse) (anyUse smallConfig) ⟨.new 0 1, []⟩ c ∧
    Run (storeMachine smallConfig SessionUse) (anyUse smallConfig) (clearing smallConfig "a" c) c₁ ∧
    (c₁.threads.map fun t => (t.1, t.2.isDone)) =
      [(.set "a" "k" "v", true), (.set "a" "k" "w", false), (.clear "a", true)] ∧
    (c₁.shared.touch smallConfig "a" 3).1 = false ∧
    Run (storeMachine smallConfig SessionUse) (anyUse smallConfig) c₁ c₂ ∧
    (c₂.shared.touch smallConfig "a" 3).1 = true := by
  have hperform : ((twoUses (.set "a" "k" "w")).perform (storeMachine smallConfig SessionUse) oneUseAndAHalf).bind
      (fun c => ((clearing smallConfig "a" c).perform (storeMachine smallConfig SessionUse) [(2, 2)]).bind fun c₁ =>
        (c₁.perform (storeMachine smallConfig SessionUse) (List.replicate 9 (1, 3))).map fun c₂ =>
          ((c₁.threads.map fun t => (t.1, t.2.isDone)), (c₁.shared.touch smallConfig "a" 3).1,
            (c₂.shared.touch smallConfig "a" 3).1)) =
      some ([(.set "a" "k" "v", true), (.set "a" "k" "w", false), (.clear "a", true)], false, true) := by
    decide +kernel
  obtain ⟨c, hc, hperform⟩ := Option.bind_eq_some_iff.1 hperform
  obtain ⟨c₁, hc₁, hperform⟩ := Option.bind_eq_some_iff.1 hperform
  obtain ⟨c₂, hc₂, hseen⟩ := Option.map_eq_some_iff.1 hperform
  obtain ⟨hthreads, hseen⟩ := Prod.mk.inj hseen
  obtain ⟨hcleared, hrevived⟩ := Prod.mk.inj hseen
  exact ⟨c, c₁, c₂, (twoUses_run _).trans (Config.perform_run _ hc), Config.perform_run _ hc₁, hthreads, hcleared,
    Config.perform_run _ hc₂, hrevived⟩

/-- A request in flight that reads from the id does not revive it. -/
theorem invalidated_id_stays_invalid_reading : ∃ (c c₁ : Config StoreAction SessionUse SessionStore Unit)
    (s : SessionStore), Run (storeMachine smallConfig SessionUse) (anyUse smallConfig) ⟨.new 0 1, []⟩ c ∧
    (c.shared.touch smallConfig "a" 2).1 = true ∧
    Run (storeMachine smallConfig SessionUse) (anyUseBut smallConfig "a") (clearing smallConfig "a" c) c₁ ∧
    (SessionStore.resume "a").run (storeMachine smallConfig SessionUse) (.resume "a") 3 c₁.shared = some (false, s) := by
  have hperform : ((twoUses (.get "a" "k")).perform (storeMachine smallConfig SessionUse) oneUseAndAHalf).bind
      (fun c => ((clearing smallConfig "a" c).perform (storeMachine smallConfig SessionUse) [(1, 3), (2, 3)]).map fun _ =>
        ((c.threads.all fun t => t.2.isDone || !decide (t.1.Admits "a")), (c.shared.touch smallConfig "a" 2).1)) =
      some (true, true) := by
    decide +kernel
  obtain ⟨c, hc, hperform⟩ := Option.bind_eq_some_iff.1 hperform
  obtain ⟨c₁, hc₁, hseen⟩ := Option.map_eq_some_iff.1 hperform
  obtain ⟨hflight, halive⟩ := Prod.mk.inj hseen
  have hrun : Run (storeMachine smallConfig SessionUse) (anyUse smallConfig) ⟨.new 0 1, []⟩ c :=
    (twoUses_run _).trans (Config.perform_run _ hc)
  have hafter : Run (storeMachine smallConfig SessionUse) (anyUseBut smallConfig "a") (clearing smallConfig "a" c) c₁ :=
    Config.perform_run _ hc₁
  have hquiet : ∀ t ∈ c.threads ++ [(.clear "a", (SessionUse.clear "a").prog smallConfig)],
      t.2 = .done () ∨ ¬t.1.Admits "a" := by
    intro t ht
    rcases List.mem_append.1 ht with ht | ht
    · rcases Bool.or_eq_true_iff.1 (List.all_eq_true.1 hflight t ht) with hdone | hadmits
      · exact Or.inl (eq_done_of_isDone hdone).choose_spec
      · exact Or.inr (by simpa using hadmits)
    · rw [List.mem_singleton.1 ht]
      exact Or.inr nofun
  obtain ⟨s, hs⟩ := invalidated_id_stays_invalid smallConfig 0 1 (hrun.tail (.start rfl))
    (clearing_invalidation smallConfig "a" c) hquiet hafter (.resume "a") 3
  exact ⟨c, c₁, s, hrun, halive, hafter, hs⟩

end RustRest
