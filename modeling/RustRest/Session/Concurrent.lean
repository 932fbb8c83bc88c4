import RustRest.Session.Sections

/-!
# Concurrent operations on the session store

Whatever others do between its actions, a thread keeps the invariant `Counted`, with its own share in it.

Main result: **`counter_exact`**.
-/

namespace RustRest

open FiniteMap Threads Threads.Prog

namespace SessionStore

variable {cfg : SessionsConfig} {s s' : SessionStore} {id : String} {d : Share}

/-! ## The actions -/

section Actions

variable {L α β : Type} {l : L} {Q : α → Share → Prop}

/-- The action moves nothing between the shares. -/
def Neutral (cfg : SessionsConfig) (a : StoreAction β) : Prop :=
  ∀ now s r s' d, a.exec cfg now s = some (r, s') → Counted cfg s d → Counted cfg s' d

theorem keeps_neutral {a : StoreAction β} {next : β → Prog StoreAction α} (ha : Neutral cfg a)
    (hnext : ∀ r, (next r).Keeps (storeMachine cfg L) (Counted cfg) l d Q) :
    (perform a >>= next).Keeps (storeMachine cfg L) (Counted cfg) l d Q :=
  fun now s r s' m hexec hI => ⟨d, ha now s r s' (d + m) hexec hI, hnext r⟩

theorem neutral_clock : Neutral cfg .clock := by
  intro now s r s' d hexec h
  cases hexec
  exact h

theorem neutral_load : Neutral cfg .load := by
  intro now s r s' d hexec h
  cases hexec
  exact h

theorem neutral_resume (id : String) (t : ℕ) : Neutral cfg (.resume id t) := by
  intro now s r s' d hexec h
  obtain rfl := congrArg Prod.snd (Option.some.inj hexec)
  exact h.touch id t

theorem neutral_probe (id : String) (t : ℕ) : Neutral cfg (.probe id t) := by
  intro now s r s' d hexec h
  obtain rfl := congrArg Prod.snd (Option.some.inj hexec)
  rw [probeSection_eq_touch]
  exact h.touch id t

theorem neutral_get (id key : String) (t : ℕ) : Neutral cfg (.get id key t) := by
  intro now s r s' d hexec h
  obtain rfl := congrArg Prod.snd (Option.some.inj hexec)
  rw [getSection_eq]
  exact h.touch id t

theorem neutral_remove (id key : String) (t : ℕ) : Neutral cfg (.remove id key t) := by
  intro now s r s' d hexec h
  cases hexec
  exact h.removeSection id key t

theorem neutral_write (id key value : String) : Neutral cfg (.write id key value) := by
  intro now s r s' d hexec h
  obtain rfl := congrArg Prod.snd (Option.some.inj hexec)
  exact h.writeSection id key value now

theorem keeps_sweep {index : Fin sessionStoreShards} {t maximum k : ℕ} {f : ℕ × ℕ} {next : ℕ → Prog StoreAction α}
    (hnext : ∀ n, (next n).Keeps (storeMachine cfg L) (Counted cfg) l (k + n, f) Q) :
    (perform (.sweep index t maximum) >>= next).Keeps (storeMachine cfg L) (Counted cfg) l (k, f) Q := by
  intro now s r s' m hexec hI
  obtain ⟨n, s₁, hsweep, hclean, -⟩ := sweepSection_cases cfg hI.exact index t maximum
  obtain ⟨rfl, rfl⟩ := Prod.mk.inj ((Option.some.inj hexec).symm.trans hsweep).symm
  refine ⟨(k + n, f), ?_, hnext n⟩
  have h : Counted cfg s (k + m.1, f + m.2) := hI
  have h' := h.cleaned hclean
  rw [Nat.add_right_comm] at h'
  exact h'

theorem keeps_fetchSub {k n : ℕ} {f : ℕ × ℕ} {next : Unit → Prog StoreAction α}
    (hnext : (next ()).Keeps (storeMachine cfg L) (Counted cfg) l (k, f) Q) :
    (perform (.fetchSub n) >>= next).Keeps (storeMachine cfg L) (Counted cfg) l (k + n, f) Q := by
  intro now s r s' m hexec hI
  cases hexec
  refine ⟨(k, f), ?_, hnext⟩
  have h : Counted cfg s (k + n + m.1, f + m.2) := hI
  rw [Nat.add_right_comm] at h
  exact h.fetchSub

theorem keeps_take {id : String} {next : Option SessionEntry → Prog StoreAction α}
    (hnone : (next none).Keeps (storeMachine cfg L) (Counted cfg) l 0 Q)
    (hsome : ∀ entry, (next (some entry)).Keeps (storeMachine cfg L) (Counted cfg) l (0 + 1, 0) Q) :
    (perform (.take id) >>= next).Keeps (storeMachine cfg L) (Counted cfg) l 0 Q := by
  intro now s r s' m hexec hI
  obtain ⟨s₁, hput, htake⟩ := takeSection_cases cfg s id
  obtain ⟨hr, rfl⟩ := Prod.mk.inj ((Option.some.inj hexec).symm.trans htake)
  have h : Counted cfg s (0 + m.1, 0 + m.2) := hI
  have htaken := h.take hput
  rw [← hr, Nat.add_right_comm] at htaken
  cases r with
  | none => exact ⟨0, htaken, hnone⟩
  | some entry => exact ⟨(0 + 1, 0), htaken, hsome entry⟩

theorem keeps_move {id : String} {entry : SessionEntry} {k : ℕ} {f : ℕ × ℕ} {next : Unit → Prog StoreAction α}
    (hnext : (next ()).Keeps (storeMachine cfg L) (Counted cfg) l (k, f) Q) :
    (perform (.move id entry) >>= next).Keeps (storeMachine cfg L) (Counted cfg) l (k + 1, f) Q := by
  intro now s r s' m hexec hI
  cases hexec
  refine ⟨(k, f), ?_, hnext⟩
  have h : Counted cfg s (k + 1 + m.1, f + m.2) := hI
  rw [Nat.add_right_comm] at h
  exact h.moveSection id entry

theorem keeps_lock {next : StoreMaintenance → Prog StoreAction α}
    (hnext : ∀ m, (next m).Keeps (storeMachine cfg L) (Counted cfg) l (0, 1, 0) Q) :
    (perform .lock >>= next).Keeps (storeMachine cfg L) (Counted cfg) l 0 Q := by
  intro now s m s' x hexec hI
  replace hexec : (if s.locked then none else some (s.maintenance, { s with locked := true })) = some (m, s') := hexec
  split at hexec
  · cases hexec
  · rename_i hfree
    cases hexec
    refine ⟨(0, 1, 0), ⟨hI.exact, hI.placed, hI.entries_eq, hI.entries_le, ?_, hI.wrapped_eq, hI.inexact_eq⟩, hnext _⟩
    have hlocked : 0 + x.2.1 + (0 + x.2.2) = if s.locked then 1 else 0 := hI.locked_eq
    rw [if_neg hfree] at hlocked
    show 1 + x.2.1 + (0 + x.2.2) = 1
    omega

theorem keeps_unlock {m : StoreMaintenance} {next : Unit → Prog StoreAction α}
    (hnext : (next ()).Keeps (storeMachine cfg L) (Counted cfg) l 0 Q) :
    (perform (.unlock m) >>= next).Keeps (storeMachine cfg L) (Counted cfg) l (0, 1, 0) Q := by
  intro now s r s' x hexec hI
  cases hexec
  refine ⟨0, ⟨hI.exact, hI.placed, hI.entries_eq, hI.entries_le, ?_, hI.wrapped_eq, hI.inexact_eq⟩, hnext⟩
  have hlocked : 1 + x.2.1 + (0 + x.2.2) = if s.locked then 1 else 0 := hI.locked_eq
  show 0 + x.2.1 + (0 + x.2.2) = 0
  split at hlocked <;> omega

theorem keeps_load {next : ℕ → Prog StoreAction α}
    (hfull : ∀ entries, entries ≥ cfg.maxSessions →
      (next entries).Keeps (storeMachine cfg L) (Counted cfg) l (0, 1, 0) Q)
    (hroom : ∀ entries, ¬entries ≥ cfg.maxSessions →
      (next entries).Keeps (storeMachine cfg L) (Counted cfg) l (0, 0, 1) Q) :
    (perform .load >>= next).Keeps (storeMachine cfg L) (Counted cfg) l (0, 1, 0) Q := by
  intro now s entries s' x hexec hI
  cases hexec
  by_cases hge : s.entries ≥ cfg.maxSessions
  · exact ⟨(0, 1, 0), hI, hfull _ hge⟩
  · refine ⟨(0, 0, 1), ⟨hI.exact, hI.placed, hI.entries_eq, ?_, ?_, hI.wrapped_eq, hI.inexact_eq⟩, hroom _ hge⟩
    · have hlocked : 1 + x.2.1 + (0 + x.2.2) = if s.locked then 1 else 0 := hI.locked_eq
      show s.entries + (1 + x.2.2) ≤ cfg.maxSessions
      split at hlocked <;> omega
    · have hlocked : 1 + x.2.1 + (0 + x.2.2) = if s.locked then 1 else 0 := hI.locked_eq
      show 0 + x.2.1 + (1 + x.2.2) = _
      omega

theorem keeps_admit {id : String} {t : ℕ} {next : Unit → Prog StoreAction α}
    (hnext : (next ()).Keeps (storeMachine cfg L) (Counted cfg) l (0, 1, 0) Q) :
    (perform (.admitSession id t) >>= next).Keeps (storeMachine cfg L) (Counted cfg) l (0, 0, 1) Q := by
  intro now s r s' x hexec hI
  cases hexec
  refine ⟨(0, 1, 0), ?_, hnext⟩
  have h : Counted cfg s (0 + x.1, 0 + x.2.1, 1 + x.2.2) := hI
  rw [Nat.add_comm 1] at h
  have h' := h.admitSection id t
  show Counted cfg _ (0 + x.1, 1 + x.2.1, 0 + x.2.2)
  rw [Nat.add_comm 1, Nat.zero_add x.2.2]
  rw [Nat.zero_add x.2.1] at h'
  exact h'

end Actions

/-! ## The operations -/

section Operations

variable (cfg : SessionsConfig) {L : Type} (l : L)

def Balanced {α : Type} (d : Share) (p : Prog StoreAction α) : Prop :=
  p.Keeps (storeMachine cfg L) (Counted cfg) l d fun _ d' => d' = d

variable {cfg l}

theorem Balanced.bind {α γ : Type} {p : Prog StoreAction α} {f : α → Prog StoreAction γ} (hp : Balanced cfg l d p)
    (hf : ∀ r, Balanced cfg l d (f r)) : Balanced cfg l d (p >>= f) :=
  Keeps.bind (hp.imp fun r _ hd' => hd' ▸ hf r)

theorem Balanced.map {α γ : Type} {p : Prog StoreAction α} (hp : Balanced cfg l d p) (f : α → γ) :
    Balanced cfg l d (f <$> p) :=
  hp.bind fun _ => rfl

theorem balanced_neutral {β : Type} {a : StoreAction β} (ha : Neutral cfg a) : Balanced cfg l d (perform a) :=
  @keeps_neutral cfg d L β β l _ a done ha fun _ => rfl

theorem balanced_resume (id : String) : Balanced cfg l d (resume id) :=
  (balanced_neutral neutral_clock).bind fun t => balanced_neutral (neutral_resume id t)

theorem keeps_cleanupShards (t : ℕ) (first : Fin sessionStoreShards) (f : ℕ × ℕ) :
    ∀ rest remaining removed, (cleanupShards t first rest remaining removed).Keeps (storeMachine cfg L) (Counted cfg) l
      (removed, f) fun result d' => d' = (result.1, f)
  | [], _, _ => rfl
  | visited :: rest, remaining, removed => by
    refine keeps_sweep fun n => ?_
    split
    · rfl
    · exact keeps_cleanupShards t first f rest _ _

theorem keeps_countOff (removed : ℕ) (f : ℕ × ℕ) :
    (countOff removed).Keeps (storeMachine cfg L) (Counted cfg) l (removed, f) fun _ d' => d' = (0, f) := by
  unfold countOff
  split
  · have h := @keeps_fetchSub cfg L Unit l (fun _ d' => d' = (0, f)) 0 removed f done rfl
    rw [Nat.zero_add] at h
    exact h
  · obtain rfl : removed = 0 := by omega
    rfl

theorem balanced_cleanupExpiredBatch (t : ℕ) (m : StoreMaintenance) (f : ℕ × ℕ) :
    Balanced cfg l (0, f) (cleanupExpiredBatch cfg t m) := by
  refine Keeps.bind ((keeps_cleanupShards t m.cleanupShard f _ _ 0).imp ?_)
  rintro ⟨removed, usedUp⟩ d' rfl
  refine Keeps.bind ((keeps_countOff removed f).imp ?_)
  rintro _ d' rfl
  rfl

theorem balanced_cleanupIfNeeded (t : ℕ) (m : StoreMaintenance) (f : ℕ × ℕ) :
    Balanced cfg l (0, f) (cleanupIfNeeded cfg t m) := by
  unfold cleanupIfNeeded
  split
  · rfl
  · exact (balanced_cleanupExpiredBatch t m f).bind fun _ => rfl

theorem balanced_cleanupIfFull (t entries : ℕ) (attempted : Bool) (m : StoreMaintenance) (f : ℕ × ℕ) :
    Balanced cfg l (0, f) (cleanupIfFull cfg t entries attempted m) := by
  unfold cleanupIfFull
  split
  · exact balanced_cleanupExpiredBatch t m f
  · rfl

theorem keeps_createMissing (id : String) (t : ℕ) (m : StoreMaintenance) :
    (createMissing cfg id t m).Keeps (storeMachine cfg L) (Counted cfg) l (0, 1, 0) fun _ d' => d' = 0 := by
  refine Keeps.bind ((balanced_cleanupIfNeeded t m (1, 0)).imp ?_)
  rintro ⟨attempted, m⟩ d' rfl
  refine keeps_neutral neutral_load fun entries => ?_
  refine Keeps.bind ((balanced_cleanupIfFull t entries attempted m (1, 0)).imp ?_)
  rintro m d' rfl
  refine keeps_load (fun entries hfull => ?_) (fun entries hroom => ?_)
  · rw [admitUnlessFull, if_pos hfull]
    exact keeps_unlock rfl
  · rw [admitUnlessFull, if_neg hroom]
    exact keeps_admit (keeps_unlock rfl)

theorem balanced_create (id : String) : Balanced cfg l 0 (create cfg id) := by
  refine keeps_neutral neutral_clock fun t => keeps_lock fun m => keeps_neutral (neutral_probe id t) fun renewed => ?_
  cases renewed with
  | true => exact keeps_unlock rfl
  | false => exact keeps_createMissing id t m

theorem balanced_set (id key value : String) : Balanced cfg l 0 (set cfg id key value) := by
  unfold set
  split
  · rfl
  · refine Balanced.bind ?_ fun available => ?_
    · refine (balanced_resume id).bind fun resumed => ?_
      cases resumed with
      | true => rfl
      | false => exact balanced_create id
    · cases available with
      | true => exact balanced_neutral (neutral_write id key value)
      | false => rfl

theorem balanced_clear (id : String) : Balanced cfg l 0 (clear id) :=
  keeps_take rfl fun _ => @keeps_fetchSub cfg L Unit l (fun _ d' => d' = 0) 0 1 0 done rfl

theorem balanced_rotate (old new : String) : Balanced cfg l 0 (rotate cfg old new) := by
  refine keeps_neutral neutral_clock fun t => keeps_take rfl fun entry => ?_
  unfold moveTo
  dsimp only
  split
  · exact keeps_fetchSub rfl
  · exact keeps_move rfl

theorem keeps_sweepShards (t : ℕ) (f : ℕ × ℕ) :
    ∀ rest removed, (sweepShards t rest removed).Keeps (storeMachine cfg L) (Counted cfg) l (removed, f)
      fun removed' d' => d' = (removed', f)
  | [], _ => rfl
  | _ :: rest, _ => keeps_sweep fun _ => keeps_sweepShards t f rest _

theorem balanced_liveLen : Balanced cfg l 0 liveLen := by
  refine keeps_neutral neutral_clock fun t => Keeps.bind ((keeps_sweepShards t 0 _ 0).imp ?_)
  rintro removed d' rfl
  refine Keeps.bind ((keeps_countOff removed 0).imp ?_)
  rintro _ d' rfl
  exact balanced_neutral neutral_load

theorem balanced_prog (op : SessionOp) : Balanced cfg l 0 (op.prog cfg) := by
  cases op with
  | get id key => exact ((balanced_neutral neutral_clock).bind fun t => balanced_neutral (neutral_get id key t)).map _
  | set id key value => exact (balanced_set id key value).map _
  | remove id key => exact ((balanced_neutral neutral_clock).bind fun t => balanced_neutral (neutral_remove id key t)).map _
  | clear id => exact (balanced_clear id).map _
  | rotate old new => exact (balanced_rotate old new).map _
  | create id => exact (balanced_create id).map _
  | resume id => exact (balanced_resume id).map _
  | liveLen => exact balanced_liveLen.map _

end Operations

theorem counted_new (cfg : SessionsConfig) (now sessionCounter : ℕ) : Counted cfg (new now sessionCounter) 0 where
  exact _ := SessionShard.exact_empty
  placed i id hmem := absurd hmem Finmap.notMem_empty
  entries_eq := by
    show 0 = (new now sessionCounter).stored + 0
    simp [stored, new, SessionShard.empty]
  entries_le := Nat.zero_le _
  locked_eq := rfl
  wrapped_eq := rfl
  inexact_eq := rfl

end SessionStore

/-- Any operation may start at any time. -/
def anyOp (cfg : SessionsConfig) (_ : SessionStore) (op : SessionOp) (p : Prog StoreAction SessionResult) : Prop :=
  p = op.prog cfg

/-- **The counter.** In every interleaving of operations, each reading the clock as it will: the index of every shard is
exact and the assertion on it never reached, the counter never wraps around, is at most `max_sessions` and at least the
number of stored entries, and is that number when no operation is in flight. -/
theorem counter_exact (cfg : SessionsConfig) (now sessionCounter : ℕ) {c : Config StoreAction SessionOp SessionStore
    SessionResult} (hrun : Run (storeMachine cfg SessionOp) (anyOp cfg) ⟨.new now sessionCounter, []⟩ c) :
    c.shared.Exact ∧ c.shared.inexact = false ∧ c.shared.stored ≤ c.shared.entries ∧
      c.shared.entries ≤ cfg.maxSessions ∧ c.shared.wrapped = false ∧
      ((∀ t ∈ c.threads, ∃ r, t.2 = .done r) → c.shared.entries = c.shared.stored) := by
  have hstart : ∀ s l p, anyOp cfg s l p →
      p.Keeps (storeMachine cfg SessionOp) (SessionStore.Counted cfg) l 0 fun _ d => d = 0 := by
    rintro s l p rfl
    exact SessionStore.balanced_prog l
  have hnew : Owned (storeMachine cfg SessionOp) (SessionStore.Counted cfg) (fun (_ : SessionResult) d => d = 0)
      ⟨.new now sessionCounter, []⟩ [] := ⟨.nil, SessionStore.counted_new cfg now sessionCounter⟩
  obtain ⟨ds, howned⟩ := hnew.run hstart hrun
  have hI := howned.2
  refine ⟨hI.exact, hI.inexact_eq, ?_, ?_, hI.wrapped_eq, fun hdone => ?_⟩
  · have := hI.entries_eq
    omega
  · have := hI.entries_le
    omega
  · have hzero := (howned.finished hdone fun _ _ h => h).entries_eq
    rw [Prod.fst_zero, Nat.add_zero] at hzero
    exact hzero

/-- While an id is created, it is cleared: the entry is out of its shard and still counted. -/
theorem counter_exact_clearing : ∃ c, Run (storeMachine smallConfig SessionOp) (anyOp smallConfig) ⟨.new 0 1, []⟩ c ∧
    c.shared.entries = 1 ∧ c.shared.stored = 0 ∧ c.shared.stored ≤ c.shared.entries := by
  have hstart : Run (storeMachine smallConfig SessionOp) (anyOp smallConfig) ⟨.new 0 1, []⟩ ⟨.new 0 1,
      [(.create "a", (SessionOp.create "a").prog smallConfig), (.clear "a", (SessionOp.clear "a").prog smallConfig)]⟩ :=
    .head (.start rfl) (.single (.start rfl))
  obtain ⟨c, hrun, hentries, hstored⟩ := hstart.exists_perform (P := fun c => c.shared.entries = 1 ∧ c.shared.stored = 0)
    [(0, 5), (0, 5), (0, 5), (0, 5), (0, 5), (0, 5), (1, 6)] (by decide +kernel)
  obtain ⟨-, -, hle, -⟩ := counter_exact smallConfig 0 1 hrun
  exact ⟨c, hrun, hentries, hstored, hle⟩

end RustRest
