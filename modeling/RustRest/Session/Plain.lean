import RustRest.Session.Concurrent

/-!
# The session store as a plain map

What the store is for: a map from ids to sessions, in which a session is absent from the instant it expires, each use
renews it, and a new one is admitted if there are fewer than `max_sessions`. The store itself keeps expired entries until
it comes upon them, and counts them.

Main result: **`store_refines_plain`**.
-/

namespace RustRest

open FiniteMap Threads Threads.Prog

/-! ## The plain map -/

def live (now : ℕ) (entry : Option SessionEntry) : Option SessionEntry :=
  entry.filter fun entry => now < entry.expiresAt

/-- The sessions as a plain map. -/
abbrev PlainSessions := Map String SessionEntry

namespace PlainSessions

section Operations

variable (cfg : SessionsConfig) (now : ℕ) (m : PlainSessions)

def session (sessionId : String) : Option SessionEntry := live now (m.lookup sessionId)

def size : ℕ := (m.keys.filter fun sessionId => (m.session now sessionId).isSome).card

def resume (sessionId : String) : Bool × PlainSessions :=
  match m.session now sessionId with
  | some entry => (true, m.insert sessionId { entry with expiresAt := cfg.expiry now })
  | none => (false, m)

def create (sessionId : String) : Bool × PlainSessions :=
  match m.session now sessionId with
  | some entry => (true, m.insert sessionId { entry with expiresAt := cfg.expiry now })
  | none =>
    if m.size now < cfg.maxSessions then (true, m.insert sessionId ⟨∅, cfg.expiry now⟩) else (false, m)

def get (sessionId key : String) : Option String × PlainSessions :=
  match m.session now sessionId with
  | some entry => (entry.data.lookup key, m.insert sessionId { entry with expiresAt := cfg.expiry now })
  | none => (none, m)

def write (sessionId key value : String) : Except SessionDataError Unit × PlainSessions :=
  match m.session now sessionId with
  | none => (.error ⟨.sessionUnavailable, none⟩, m)
  | some entry =>
    match writeValue cfg.limits key value entry.data with
    | .error error => (.error error, m)
    | .ok data => (.ok (), m.insert sessionId { entry with data := data })

def set (sessionId key value : String) : Except SessionDataError Unit × PlainSessions :=
  match validateSessionValue key value cfg.limits with
  | .error error => (.error error, m)
  | .ok () =>
    match m.create cfg now sessionId with
    | (true, m) => m.write cfg now sessionId key value
    | (false, m) => (.error ⟨.sessionUnavailable, none⟩, m)

def remove (sessionId key : String) : PlainSessions :=
  match m.session now sessionId with
  | some entry => m.insert sessionId ⟨entry.data.erase key, cfg.expiry now⟩
  | none => m

/-- A session gets another id. -/
def rotate (oldId newId : String) : Bool × PlainSessions :=
  match m.session now oldId with
  | some entry => (true, (m.erase oldId).insert newId ⟨entry.data, cfg.expiry now⟩)
  | none => (false, m)

def step : SessionOp → SessionResult × PlainSessions
  | .get sessionId key => Prod.map .value id (m.get cfg now sessionId key)
  | .set sessionId key value => Prod.map .written id (m.set cfg now sessionId key value)
  | .remove sessionId key => (.unit, m.remove cfg now sessionId key)
  | .clear sessionId => (.unit, m.erase sessionId)
  | .rotate oldId newId => Prod.map .flag id (m.rotate cfg now oldId newId)
  | .create sessionId => Prod.map .flag id (m.create cfg now sessionId)
  | .resume sessionId => Prod.map .flag id (m.resume cfg now sessionId)
  | .liveLen => (.count (m.size now), m)

end Operations

def runOps (cfg : SessionsConfig) : List (ℕ × SessionOp) → PlainSessions → List SessionResult × PlainSessions
  | [], m => ([], m)
  | (now, op) :: ops, m =>
    let (result, m) := m.step cfg now op
    let (results, m) := runOps cfg ops m
    (result :: results, m)

end PlainSessions

def SessionStore.runOps (cfg : SessionsConfig) :
    List (ℕ × SessionOp) → SessionStore → Option (List SessionResult × SessionStore)
  | [], s => some ([], s)
  | (now, op) :: ops, s =>
    ((op.prog cfg).run (storeMachine cfg SessionOp) op now s).bind fun x =>
      (runOps cfg ops x.2).map fun y => (x.1 :: y.1, y.2)

/-! ## Agreement -/

theorem live_some_iff {now : ℕ} {o : Option SessionEntry} {entry : SessionEntry} :
    live now o = some entry ↔ o = some entry ∧ now < entry.expiresAt := by
  unfold live
  rw [Option.filter_eq_some_iff, decide_eq_true_iff]

theorem live_eq_none {now : ℕ} {entry : SessionEntry} (h : entry.expiresAt ≤ now) : live now (some entry) = none :=
  Option.filter_eq_none_iff.2 fun e he => by
    cases he
    simpa using h

theorem live_live {now now' : ℕ} (h : now ≤ now') (o : Option SessionEntry) : live now' (live now o) = live now' o := by
  unfold live
  rw [Option.filter_filter]
  congr 1
  funext entry
  simp only [Bool.and_eq_right_iff_imp, decide_eq_true_eq]
  omega

namespace SessionStore

def Agrees (cfg : SessionsConfig) (now : ℕ) (s : SessionStore) (m : PlainSessions) : Prop :=
  ∀ id, m.session now id = live now (s.lookup cfg id)

def NoneExpired (cfg : SessionsConfig) (now : ℕ) (s : SessionStore) : Prop :=
  ∀ id entry, s.lookup cfg id = some entry → now < entry.expiresAt

variable {cfg : SessionsConfig} {now : ℕ} {s s' : SessionStore} {m m' : PlainSessions} {id : String}

theorem Agrees.later {now' : ℕ} (h : Agrees cfg now s m) (hle : now ≤ now') : Agrees cfg now' s m := by
  intro id
  unfold PlainSessions.session
  rw [← live_live hle, ← live_live hle (s.lookup cfg id)]
  exact congrArg (live now') (h id)

theorem Agrees.put {new : Option SessionEntry} (h : Agrees cfg now s m) (hput : Put cfg s s' id new)
    (hm : ∀ id', m'.lookup id' = if id' = id then new else m.lookup id') : Agrees cfg now s' m' := by
  intro id'
  unfold PlainSessions.session
  rw [hm, hput.lookup_eq]
  split
  · rfl
  · exact h id'

theorem Agrees.drop (h : Agrees cfg now s m) (hput : Put cfg s s' id none) (hnone : m.session now id = none) :
    Agrees cfg now s' m := by
  intro id'
  rw [hput.lookup_eq]
  split
  · rename_i heq
    rw [heq, hnone]
    rfl
  · exact h id'

theorem Agrees.cleaned {n : ℕ} (h : Agrees cfg now s m) (hclean : Cleaned cfg s s' now n) : Agrees cfg now s' m := by
  intro id
  rw [h id]
  rcases hclean.lookup_eq id with heq | ⟨hnone, entry, hentry, hle⟩
  · rw [heq]
  · rw [hnone, hentry, live_eq_none hle]
    rfl

theorem size_eq_sum (cfg : SessionsConfig) (now : ℕ) (m : PlainSessions) : m.size now =
    ∑ i, ((m.keys.filter fun id => (m.session now id).isSome).filter fun id => cfg.shardIndex id = i).card :=
  Finset.card_eq_sum_card_fiberwise fun _ _ => Finset.mem_coe.2 (Finset.mem_univ _)

theorem Agrees.fetchSub (h : Agrees cfg now s m) (n : ℕ) : Agrees cfg now (s.fetchSub n) m := h

theorem Agrees.session_of_lt {entry : SessionEntry} (h : Agrees cfg now s m) (hentry : s.lookup cfg id = some entry)
    (hlt : now < entry.expiresAt) : m.session now id = some entry := by
  rw [h id]
  exact live_some_iff.2 ⟨hentry, hlt⟩

theorem Agrees.session_of_le {entry : SessionEntry} (h : Agrees cfg now s m) (hentry : s.lookup cfg id = some entry)
    (hle : entry.expiresAt ≤ now) : m.session now id = none := by
  rw [h id, hentry, live_eq_none hle]

theorem Agrees.session_of_none (h : Agrees cfg now s m) (hentry : s.lookup cfg id = none) : m.session now id = none := by
  rw [h id, hentry]
  rfl

theorem Agrees.size_le_stored (h : Agrees cfg now s m) : m.size now ≤ s.stored := by
  rw [size_eq_sum cfg, stored]
  refine Finset.sum_le_sum fun i _ => Finset.card_le_card fun id hid => ?_
  obtain ⟨hmem, rfl⟩ := Finset.mem_filter.1 hid
  obtain ⟨entry, hentry⟩ := Option.isSome_iff_exists.1 (Finset.mem_filter.1 hmem).2
  rw [h id] at hentry
  exact mem_keys_of_lookup (live_some_iff.1 hentry).1

theorem Agrees.stored_le_size (h : Agrees cfg now s m) (hplaced : s.Placed cfg) (hnone : NoneExpired cfg now s) :
    s.stored ≤ m.size now := by
  rw [size_eq_sum cfg, stored]
  refine Finset.sum_le_sum fun i _ => Finset.card_le_card fun id hid => ?_
  have hmem := Finmap.mem_keys.1 hid
  obtain rfl := hplaced i id hmem
  obtain ⟨entry, hentry⟩ := Finmap.mem_iff.1 hmem
  have hsession := h.session_of_lt hentry (hnone id entry hentry)
  refine Finset.mem_filter.2 ⟨Finset.mem_filter.2 ⟨?_, ?_⟩, rfl⟩
  · exact mem_keys_of_lookup (live_some_iff.1 hsession).1
  · rw [hsession]
    rfl

/-! ## Sections -/

theorem Agrees.touch (h : Agrees cfg now s m) (id : String) :
    (m.session now id = none ∧ (s.touch cfg id now).1 = false ∧ Agrees cfg now (s.touch cfg id now).2 m) ∨
    (∃ entry, m.session now id = some entry ∧ s.lookup cfg id = some entry ∧ (s.touch cfg id now).1 = true ∧
      Put cfg s (s.touch cfg id now).2 id (some { entry with expiresAt := cfg.expiry now })) := by
  obtain ⟨entry, s₁, hentry, hle, hput, htouch⟩ | ⟨hentry, htouch⟩ | ⟨entry, s₁, hentry, hlt, hput, htouch⟩ :=
    touch_cases cfg s id now
  · have hnone := h.session_of_le hentry hle
    rw [htouch]
    exact Or.inl ⟨hnone, rfl, (h.drop hput hnone).fetchSub 1⟩
  · rw [htouch]
    exact Or.inl ⟨h.session_of_none hentry, rfl, h⟩
  · rw [htouch]
    exact Or.inr ⟨entry, h.session_of_lt hentry hlt, hentry, rfl, hput⟩

theorem Agrees.resume (h : Agrees cfg now s m) (id : String) :
    (s.touch cfg id now).1 = (m.resume cfg now id).1 ∧ Agrees cfg now (s.touch cfg id now).2 (m.resume cfg now id).2 := by
  unfold PlainSessions.resume
  obtain ⟨hnone, hfalse, hagrees⟩ | ⟨entry, hsome, -, htrue, hput⟩ := h.touch id
  · rw [hnone]
    exact ⟨hfalse, hagrees⟩
  · rw [hsome]
    exact ⟨htrue, h.put hput fun id' => lookup_insert_eq _ _ _ _⟩

theorem Agrees.get (h : Agrees cfg now s m) (id key : String) :
    (s.getSection cfg id key now).1 = (m.get cfg now id key).1 ∧
      Agrees cfg now (s.getSection cfg id key now).2 (m.get cfg now id key).2 := by
  rw [getSection_eq]
  unfold PlainSessions.get
  obtain ⟨hnone, hfalse, hagrees⟩ | ⟨entry, hsome, -, htrue, hput⟩ := h.touch id
  · rw [hnone, hfalse]
    exact ⟨rfl, hagrees⟩
  · rw [hsome, htrue, hput.lookup_self]
    exact ⟨rfl, h.put hput fun id' => lookup_insert_eq _ _ _ _⟩

theorem Agrees.remove (h : Agrees cfg now s m) (id key : String) :
    Agrees cfg now (s.removeSection cfg id key now) (m.remove cfg now id key) := by
  unfold PlainSessions.remove
  obtain ⟨hfalse, heq⟩ | ⟨entry, hentry, hlt, hput⟩ := removeSection_cases cfg s id key now
  · rw [heq]
    obtain ⟨hnone, -, hagrees⟩ | ⟨entry, -, -, htrue, -⟩ := h.touch id
    · rw [hnone]
      exact hagrees
    · rw [hfalse] at htrue
      cases htrue
  · rw [h.session_of_lt hentry hlt]
    exact h.put hput fun id' => lookup_insert_eq _ _ _ _

theorem Agrees.write (h : Agrees cfg now s m) (id key value : String) :
    (s.writeSection cfg id key value now).1 = (m.write cfg now id key value).1 ∧
      Agrees cfg now (s.writeSection cfg id key value now).2 (m.write cfg now id key value).2 := by
  unfold PlainSessions.write
  obtain ⟨entry, s₁, hentry, hle, hput, heq⟩ | ⟨hentry, heq⟩ | ⟨entry, error, hentry, hlt, hwrite, heq⟩ |
    ⟨entry, data, s₁, hentry, hlt, hwrite, hput, heq⟩ := writeSection_cases cfg s id key value now
  · have hnone := h.session_of_le hentry hle
    rw [heq, hnone]
    exact ⟨rfl, (h.drop hput hnone).fetchSub 1⟩
  · rw [heq, h.session_of_none hentry]
    exact ⟨rfl, h⟩
  · rw [heq, h.session_of_lt hentry hlt]
    simp only [hwrite, true_and]
    exact h
  · rw [heq, h.session_of_lt hentry hlt]
    simp only [hwrite, true_and]
    exact h.put hput fun id' => lookup_insert_eq _ _ _ _

/-! ## Cleaning -/

section Cleaning

variable {L : Type} {l : L} {d : Share}

theorem cleanupShards_run (first : Fin sessionStoreShards) (rest : List (Fin sessionStoreShards)) {remaining : ℕ}
    (removed : ℕ) (h : s.Exact) (hpos : 0 < remaining) :
    ∃ n usedUp s', (cleanupShards now first rest remaining removed).run (storeMachine cfg L) l now s =
        some ((removed + n, usedUp), s') ∧ Cleaned cfg s s' now n ∧
      (n = 0 → s' = s ∧ ∀ visited ∈ rest, ∀ id, (s.shards (first + visited)).isExpired id now = false) := by
  induction rest generalizing s remaining removed with
  | nil => exact ⟨0, none, s, rfl, .refl cfg now h, fun _ => ⟨rfl, nofun⟩⟩
  | cons visited rest ih =>
    obtain ⟨n₁, s₁, hsweep, hclean₁, hle, hdone, hsame⟩ := sweepSection_cases cfg h (first + visited) now remaining
    have hact : (storeMachine cfg L).exec (.sweep (first + visited) now remaining) l now s = some (n₁, s₁) :=
      congrArg some hsweep
    unfold cleanupShards
    rw [perform_bind, run_act hact]
    by_cases hzero : remaining - n₁ = 0
    · rw [if_pos hzero]
      exact ⟨n₁, some (first + visited), s₁, rfl, hclean₁, by omega⟩
    · rw [if_neg hzero]
      obtain ⟨n₂, usedUp, s₂, hrun, hclean₂, hnone⟩ := ih (removed + n₁) hclean₁.exact (Nat.pos_of_ne_zero hzero)
      refine ⟨n₁ + n₂, usedUp, s₂, ?_, hclean₁.trans hclean₂, fun hn => ?_⟩
      · rw [hrun, Nat.add_assoc]
      · obtain rfl := hsame (by omega)
        obtain ⟨rfl, hrest⟩ := hnone (by omega)
        refine ⟨rfl, fun v hv => ?_⟩
        rcases List.mem_cons.1 hv with rfl | hv
        · exact hdone (by omega)
        · exact hrest v hv

theorem countOff_run {n : ℕ} {f : ℕ × ℕ} (h : Counted cfg s (n, f)) :
    ∃ s', (countOff n).run (storeMachine cfg L) l now s = some ((), s') ∧ Counted cfg s' (0, f) ∧
      s'.shards = s.shards := by
  unfold countOff
  by_cases hn : n > 0
  · rw [if_pos hn]
    refine ⟨s.fetchSub n, rfl, Counted.fetchSub ?_, rfl⟩
    rw [Nat.zero_add]
    exact h
  · obtain rfl : n = 0 := by omega
    rw [if_neg hn]
    exact ⟨s, rfl, h, rfl⟩

theorem lookup_congr (h : s'.shards = s.shards) (id : String) : s'.lookup cfg id = s.lookup cfg id := by
  unfold lookup shardOf
  rw [h]

theorem stored_congr (h : s'.shards = s.shards) : s'.stored = s.stored := by
  unfold stored
  rw [h]

theorem cleanupExpiredBatch_run (mt : StoreMaintenance) {f : ℕ × ℕ} (h : Counted cfg s (0, f)) :
    ∃ mt' s', (cleanupExpiredBatch cfg now mt).run (storeMachine cfg L) l now s = some (mt', s') ∧
      Counted cfg s' (0, f) ∧ (∀ m, Agrees cfg now s m → Agrees cfg now s' m) ∧
      (s'.entries < s.entries ∨ NoneExpired cfg now s') := by
  obtain ⟨n, usedUp, s₁, hshards, hclean, hnone⟩ :=
    @cleanupShards_run cfg now s L l mt.cleanupShard (List.finRange sessionStoreShards) storeCleanupBatch 0 h.exact
      (by decide)
  obtain ⟨s₂, hcount, h₂, hsame⟩ := @countOff_run cfg now s₁ L l (0 + n) f (h.cleaned hclean)
  refine ⟨afterBatch cfg now mt usedUp, s₂, ?_, h₂, fun m hm id => ?_, ?_⟩
  · unfold cleanupExpiredBatch
    rw [run_bind hshards, run_bind hcount]
    rfl
  · rw [lookup_congr hsame]
    exact hm.cleaned hclean id
  · rcases Nat.eq_zero_or_pos n with hn | hn
    · -- the batch has visited every shard
      obtain ⟨rfl, hshard⟩ := hnone hn
      refine Or.inr fun id entry hentry => ?_
      rw [lookup_congr hsame] at hentry
      have hfalse := hshard (cfg.shardIndex id - mt.cleanupShard) (List.mem_finRange _) id
      rw [add_sub_cancel] at hfalse
      have := (isExpired_of_some now hentry).symm.trans hfalse
      rw [decide_eq_false_iff_not] at this
      omega
    · left
      have hbefore : s.entries = s.stored + 0 := h.entries_eq
      have hafter : s₂.entries = s₂.stored + 0 := h₂.entries_eq
      have hstored := stored_congr hsame
      have hremoved := hclean.stored_eq
      omega

theorem cleanupIfNeeded_run (mt : StoreMaintenance) {f : ℕ × ℕ} (h : Counted cfg s (0, f)) :
    ∃ attempted mt' s', (cleanupIfNeeded cfg now mt).run (storeMachine cfg L) l now s = some ((attempted, mt'), s') ∧
      Counted cfg s' (0, f) ∧ (∀ m, Agrees cfg now s m → Agrees cfg now s' m) ∧
      (attempted = true → s'.entries < s.entries ∨ NoneExpired cfg now s') := by
  unfold cleanupIfNeeded
  by_cases hnow : now < mt.nextCleanup
  · rw [if_pos hnow]
    exact ⟨false, mt, s, rfl, h, fun _ hm => hm, nofun⟩
  · rw [if_neg hnow]
    obtain ⟨mt', s', hrun, hcounted, hagrees, hroom⟩ := @cleanupExpiredBatch_run cfg now s L l mt f h
    exact ⟨true, mt', s', run_bind hrun, hcounted, hagrees, fun _ => hroom⟩

theorem cleanupIfFull_run {attempted : Bool} (mt : StoreMaintenance) {f : ℕ × ℕ} (h : Counted cfg s (0, f))
    (hattempted : attempted = true → s.entries < cfg.maxSessions ∨ NoneExpired cfg now s) :
    ∃ mt' s', (cleanupIfFull cfg now s.entries attempted mt).run (storeMachine cfg L) l now s = some (mt', s') ∧
      Counted cfg s' (0, f) ∧ (∀ m, Agrees cfg now s m → Agrees cfg now s' m) ∧
      (s'.entries < cfg.maxSessions ∨ NoneExpired cfg now s') := by
  unfold cleanupIfFull
  by_cases hfull : s.entries ≥ cfg.maxSessions ∧ attempted = false
  · rw [if_pos hfull]
    obtain ⟨mt', s', hrun, hcounted, hagrees, hroom⟩ := @cleanupExpiredBatch_run cfg now s L l mt f h
    refine ⟨mt', s', hrun, hcounted, hagrees, hroom.imp_left fun hlt => ?_⟩
    have := h.entries_le
    omega
  · rw [if_neg hfull]
    refine ⟨mt, s, rfl, h, fun _ hm => hm, ?_⟩
    cases attempted with
    | true => exact hattempted rfl
    | false => exact Or.inl (by simpa using hfull)

end Cleaning

/-! ## Operations -/

structure StandsFor (cfg : SessionsConfig) (now : ℕ) (s : SessionStore) (m : PlainSessions) : Prop where
  counted : Counted cfg s 0
  agrees : Agrees cfg now s m

theorem standsFor_unlock (mt : StoreMaintenance) (h : Counted cfg s (0, 1, 0)) (hm : Agrees cfg now s m) :
    StandsFor cfg now { s with maintenance := mt, locked := false } m :=
  ⟨⟨h.exact, h.placed, h.entries_eq, h.entries_le, rfl, h.wrapped_eq, h.inexact_eq⟩, hm⟩

section Operations

variable {L : Type} {l : L}

theorem run_clock {α : Type} (next : ℕ → Prog StoreAction α) : (perform .clock >>= next).run (storeMachine cfg L) l now s =
    (next now).run (storeMachine cfg L) l now s := rfl

theorem run_load {α : Type} (next : ℕ → Prog StoreAction α) : (perform .load >>= next).run (storeMachine cfg L) l now s =
    (next s.entries).run (storeMachine cfg L) l now s := rfl

theorem refines_section {α : Type} {a : ℕ → StoreAction α} {f : PlainSessions → α × PlainSessions}
    (hneutral : Neutral cfg (a now))
    (ha : ∀ s m, Agrees cfg now s m → ∃ s', (a now).exec cfg now s = some ((f m).1, s') ∧ Agrees cfg now s' (f m).2) :
    (perform .clock >>= fun t => perform (a t)).Refines (storeMachine cfg L) l now (StandsFor cfg now) f := by
  intro s m h
  obtain ⟨s', hexec, hagrees⟩ := ha s m h.agrees
  refine ⟨s', ?_, hneutral now s _ s' 0 hexec h.counted, hagrees⟩
  rw [run_clock]
  exact run_act hexec

theorem refines_resume (id : String) : (SessionStore.resume id).Refines (storeMachine cfg L) l now (StandsFor cfg now)
    (PlainSessions.resume cfg now · id) :=
  refines_section (neutral_resume id now) fun _ _ h =>
    ⟨_, congrArg some (Prod.ext (h.resume id).1 rfl), (h.resume id).2⟩

theorem refines_get (id key : String) : (SessionStore.get id key).Refines (storeMachine cfg L) l now (StandsFor cfg now)
    (PlainSessions.get cfg now · id key) :=
  refines_section (neutral_get id key now) fun _ _ h =>
    ⟨_, congrArg some (Prod.ext (h.get id key).1 rfl), (h.get id key).2⟩

theorem refines_remove (id key : String) : (SessionStore.remove id key).Refines (storeMachine cfg L) l now
    (StandsFor cfg now) fun m => ((), m.remove cfg now id key) :=
  refines_section (neutral_remove id key now) fun _ _ h => ⟨_, rfl, h.remove id key⟩

theorem createMissing_run (mt : StoreMaintenance) (h : Counted cfg s (0, 1, 0)) (hm : Agrees cfg now s m)
    (hnone : m.session now id = none) :
    ∃ s', (createMissing cfg id now mt).run (storeMachine cfg L) l now s = some ((m.create cfg now id).1, s') ∧
      StandsFor cfg now s' (m.create cfg now id).2 := by
  obtain ⟨attempted, mt₁, s₁, hrun₁, h₁, hm₁, hroom₁⟩ := @cleanupIfNeeded_run cfg now s L l mt (1, 0) h
  have hroom₁' : attempted = true → s₁.entries < cfg.maxSessions ∨ NoneExpired cfg now s₁ := fun ha =>
    (hroom₁ ha).imp_left fun hlt => hlt.trans_le (Nat.le_of_add_right_le h.entries_le)
  obtain ⟨mt₂, s₂, hrun₂, h₂, hm₂, hroom₂⟩ := @cleanupIfFull_run cfg now s₁ L l attempted mt₁ (1, 0) h₁ hroom₁'
  have hagrees := hm₂ m (hm₁ m hm)
  have hrun : (createMissing cfg id now mt).run (storeMachine cfg L) l now s =
      (admitUnlessFull cfg id now s₂.entries mt₂).run (storeMachine cfg L) l now s₂ := by
    unfold createMissing
    rw [run_bind hrun₁, run_load, run_bind hrun₂, run_load]
  rw [hrun]
  unfold admitUnlessFull PlainSessions.create
  rw [hnone]
  have hentries : s₂.entries = s₂.stored + 0 := h₂.entries_eq
  have hle := hagrees.size_le_stored
  by_cases hfull : s₂.entries ≥ cfg.maxSessions
  · have hge := hagrees.stored_le_size h₂.placed (hroom₂.resolve_left (by omega))
    rw [if_pos hfull, if_neg (by omega)]
    exact ⟨_, rfl, standsFor_unlock mt₂ h₂ hagrees⟩
  · rw [if_neg hfull, if_pos (by omega)]
    have hroom : Counted cfg s₂ (0, 0, 0 + 1) :=
      ⟨h₂.exact, h₂.placed, h₂.entries_eq, Nat.lt_of_not_le hfull, h₂.locked_eq, h₂.wrapped_eq, h₂.inexact_eq⟩
    have hadmit := hroom.admitSection id now
    obtain ⟨s₃, hput, heq⟩ := admitSection_cases cfg s₂ id now
    refine ⟨_, rfl, standsFor_unlock mt₂ hadmit fun id' => ?_⟩
    have hlookup : (s₂.admitSection cfg id now).lookup cfg id' = s₃.lookup cfg id' := by
      rw [heq]
      split <;> rfl
    exact (hagrees.put hput (fun _ => lookup_insert_eq _ _ _ _) id').trans (congrArg (live now) hlookup.symm)

theorem refines_create (id : String) : (SessionStore.create cfg id).Refines (storeMachine cfg L) l now
    (StandsFor cfg now) (PlainSessions.create cfg now · id) := by
  intro s m h
  have hfree : s.locked = false := by
    have hlocked := h.counted.locked_eq
    cases hs : s.locked with
    | false => rfl
    | true =>
      rw [hs] at hlocked
      cases hlocked
  have hlock : (storeMachine cfg L).exec .lock l now s = some (s.maintenance, { s with locked := true }) := by
    show (if s.locked then none else some (s.maintenance, { s with locked := true })) = _
    rw [hfree]
    rfl
  have h₁ : Counted cfg { s with locked := true } (0, 1, 0) :=
    ⟨h.counted.exact, h.counted.placed, h.counted.entries_eq, h.counted.entries_le, rfl, h.counted.wrapped_eq,
      h.counted.inexact_eq⟩
  have hm₁ : Agrees cfg now { s with locked := true } m := h.agrees
  have h₂ := h₁.touch id now
  have hprobe : ∀ b, (touch cfg { s with locked := true } id now).1 = b → (storeMachine cfg L).exec (.probe id now) l now
      { s with locked := true } = some (b, (touch cfg { s with locked := true } id now).2) := fun b hb =>
    congrArg some ((probeSection_eq_touch cfg _ id now).trans (Prod.ext hb rfl))
  unfold SessionStore.create
  rw [run_clock, perform_bind, run_act hlock, perform_bind]
  obtain ⟨hnone, hfalse, hm₂⟩ | ⟨entry, hsome, -, htrue, hput⟩ := hm₁.touch id
  · rw [run_act (hprobe false hfalse)]
    exact createMissing_run s.maintenance h₂ hm₂ hnone
  · rw [run_act (hprobe true htrue)]
    unfold PlainSessions.create
    dsimp only
    rw [hsome]
    exact ⟨_, rfl, standsFor_unlock s.maintenance h₂ (hm₁.put hput fun _ => lookup_insert_eq _ _ _ _)⟩

theorem refines_resumeOrCreate (id : String) : (resumeOrCreate cfg id).Refines (storeMachine cfg L) l now
    (StandsFor cfg now) (PlainSessions.create cfg now · id) := by
  have hcreate : ∀ resumed : Bool, (if resumed then pure true else SessionStore.create cfg id).Refines (storeMachine cfg L)
      l now (StandsFor cfg now) fun m => if resumed then (true, m) else m.create cfg now id := by
    intro resumed
    cases resumed with
    | true => exact refines_done true
    | false => exact refines_create id
  refine ((refines_resume id).bind hcreate).congr fun m => ?_
  unfold PlainSessions.resume
  cases hm : m.session now id with
  | none => rfl
  | some entry =>
    unfold PlainSessions.create
    rw [hm]
    rfl

theorem refines_writeIf (available : Bool) (id key value : String) : (writeIf available id key value).Refines
    (storeMachine cfg L) l now (StandsFor cfg now) fun m =>
      if available then m.write cfg now id key value else (.error ⟨.sessionUnavailable, none⟩, m) := by
  cases available with
  | false => exact refines_done _
  | true =>
    intro s m h
    obtain ⟨hresult, hagrees⟩ := h.agrees.write id key value
    exact ⟨_, congrArg some (Prod.ext hresult rfl), h.counted.writeSection id key value now, hagrees⟩

theorem refines_set (id key value : String) : (SessionStore.set cfg id key value).Refines (storeMachine cfg L) l now
    (StandsFor cfg now) (PlainSessions.set cfg now · id key value) := by
  unfold SessionStore.set PlainSessions.set
  cases validateSessionValue key value cfg.limits with
  | error error => exact refines_done _
  | ok _ =>
    refine ((refines_resumeOrCreate id).bind fun available => refines_writeIf available id key value).congr fun m => ?_
    dsimp only
    rcases m.create cfg now id with ⟨available, m'⟩
    cases available <;> rfl

theorem refines_clear (id : String) : (SessionStore.clear id).Refines (storeMachine cfg L) l now (StandsFor cfg now)
    fun m => ((), m.erase id) := by
  intro s m h
  obtain ⟨s₁, hput, htake⟩ := takeSection_cases cfg s id
  have hagrees : Agrees cfg now s₁ (m.erase id) := h.agrees.put hput fun _ => lookup_erase_eq _ _ _
  have hcounted := Counted.take (k := 0) (l := 0) h.counted hput
  have hexec : (storeMachine cfg L).exec (.take id) l now s = some (s.lookup cfg id, s₁) := congrArg some htake
  unfold SessionStore.clear
  rw [perform_bind, run_act hexec]
  cases hentry : s.lookup cfg id with
  | none =>
    rw [hentry] at hcounted
    exact ⟨s₁, rfl, hcounted, hagrees⟩
  | some entry =>
    rw [hentry] at hcounted
    exact ⟨s₁.fetchSub 1, rfl, hcounted.fetchSub, hagrees.fetchSub 1⟩

theorem refines_rotate (old new : String) : (SessionStore.rotate cfg old new).Refines (storeMachine cfg L) l now
    (StandsFor cfg now) (PlainSessions.rotate cfg now · old new) := by
  intro s m h
  obtain ⟨s₁, hput, htake⟩ := takeSection_cases cfg s old
  have hcounted := Counted.take (k := 0) (l := 0) h.counted hput
  have hexec : (storeMachine cfg L).exec (.take old) l now s = some (s.lookup cfg old, s₁) := congrArg some htake
  unfold SessionStore.rotate PlainSessions.rotate
  dsimp only
  rw [run_clock, perform_bind, run_act hexec]
  cases hentry : s.lookup cfg old with
  | none =>
    have hnone := h.agrees.session_of_none hentry
    rw [hentry] at hcounted
    rw [hnone]
    exact ⟨s₁, rfl, hcounted, h.agrees.drop hput hnone⟩
  | some entry =>
    rw [hentry] at hcounted
    unfold moveTo
    by_cases hle : entry.expiresAt ≤ now
    · have hnone := h.agrees.session_of_le hentry hle
      rw [hnone]
      dsimp only
      rw [if_pos hle]
      exact ⟨s₁.fetchSub 1, rfl, hcounted.fetchSub, (h.agrees.drop hput hnone).fetchSub 1⟩
    · rw [h.agrees.session_of_lt hentry (Nat.lt_of_not_le hle)]
      dsimp only
      rw [if_neg hle]
      obtain ⟨s₂, hput₂, hmove⟩ := moveSection_cases cfg s₁ new ⟨entry.data, cfg.expiry now⟩
      refine ⟨s₁.moveSection cfg new ⟨entry.data, cfg.expiry now⟩, rfl, hcounted.moveSection _ _, fun id => ?_⟩
      have hagrees : Agrees cfg now s₁ (m.erase old) := h.agrees.put hput fun _ => lookup_erase_eq _ _ _
      have hlookup : (s₁.moveSection cfg new ⟨entry.data, cfg.expiry now⟩).lookup cfg id = s₂.lookup cfg id := by
        rw [hmove]
        split <;> rfl
      exact (hagrees.put hput₂ (fun _ => lookup_insert_eq _ _ _ _) id).trans (congrArg (live now) hlookup.symm)

theorem sweepShards_run (rest : List (Fin sessionStoreShards)) (removed : ℕ) (h : s.Exact) (hle : s.stored ≤ usizeMax) :
    ∃ n s', (sweepShards now rest removed).run (storeMachine cfg L) l now s = some (removed + n, s') ∧
      Cleaned cfg s s' now n ∧
      ∀ id entry, cfg.shardIndex id ∈ rest → s'.lookup cfg id = some entry → now < entry.expiresAt := by
  induction rest generalizing s removed with
  | nil => exact ⟨0, s, rfl, .refl cfg now h, nofun⟩
  | cons index rest ih =>
    obtain ⟨n₁, s₁, hsweep, hclean₁, hmax, hdone, -⟩ := sweepSection_cases cfg h index now usizeMax
    have hact : (storeMachine cfg L).exec (.sweep index now usizeMax) l now s = some (n₁, s₁) := congrArg some hsweep
    have hstored := hclean₁.stored_eq
    obtain ⟨n₂, s₂, hrun, hclean₂, hrest⟩ := ih (removed + n₁) hclean₁.exact (by omega)
    refine ⟨n₁ + n₂, s₂, ?_, hclean₁.trans hclean₂, fun id entry hmem hentry => ?_⟩
    · unfold sweepShards
      rw [perform_bind, run_act hact, hrun, Nat.add_assoc]
    · rcases List.mem_cons.1 hmem with hindex | hmem
      · have hentry₁ : s₁.lookup cfg id = some entry := by
          rcases hclean₂.lookup_eq id with heq | ⟨hnone, -⟩
          · exact heq ▸ hentry
          · rw [hnone] at hentry
            cases hentry
        -- a sweep that stops at its bound has taken all there was
        have hlt : n₁ < usizeMax := by
          refine Nat.lt_of_le_of_ne hmax fun heq => ?_
          have hpos : 0 < s₁.stored := by
            refine Finset.sum_pos' (fun _ _ => Nat.zero_le _) ⟨cfg.shardIndex id, Finset.mem_univ _, ?_⟩
            exact Finset.card_pos.2 ⟨id, mem_keys_of_lookup hentry₁⟩
          omega
        have hfalse := hdone hlt id
        rw [← hindex] at hfalse
        have := (isExpired_of_some now hentry₁).symm.trans hfalse
        rw [decide_eq_false_iff_not] at this
        omega
      · exact hrest id entry hmem hentry

theorem refines_liveLen : SessionStore.liveLen.Refines (storeMachine cfg L) l now (StandsFor cfg now)
    fun m => (m.size now, m) := by
  intro s m h
  have hentries : s.entries = s.stored + 0 := h.counted.entries_eq
  have hmax : s.entries + 0 ≤ cfg.maxSessions := h.counted.entries_le
  have hle := cfg.maxSessions_le
  obtain ⟨n, s₁, hsweeps, hclean, hnone⟩ := @sweepShards_run cfg now s L l (List.finRange sessionStoreShards) 0
    h.counted.exact (by omega)
  obtain ⟨s₂, hcount, h₂, hsame⟩ := @countOff_run cfg now s₁ L l (0 + n) 0 (Counted.cleaned h.counted hclean)
  have hagrees : Agrees cfg now s₂ m := by
    intro id
    rw [lookup_congr hsame]
    exact h.agrees.cleaned hclean id
  refine ⟨s₂, ?_, h₂, hagrees⟩
  have hfresh : NoneExpired cfg now s₂ := by
    intro id entry hentry
    rw [lookup_congr hsame] at hentry
    exact hnone id entry (List.mem_finRange _) hentry
  have hsize : s₂.entries = m.size now := by
    have hstored : s₂.entries = s₂.stored + 0 := h₂.entries_eq
    have := hagrees.size_le_stored
    have := hagrees.stored_le_size h₂.placed hfresh
    omega
  unfold SessionStore.liveLen
  rw [run_clock, run_bind hsweeps, run_bind hcount]
  show some (s₂.entries, s₂) = _
  rw [hsize]

/-- **One operation, alone.** -/
theorem refines_prog (op : SessionOp) : (op.prog cfg).Refines (storeMachine cfg L) l now (StandsFor cfg now)
    (PlainSessions.step cfg now · op) := by
  cases op with
  | get id key => exact (refines_get id key).map _
  | set id key value => exact (refines_set id key value).map _
  | remove id key => exact (refines_remove id key).map _
  | clear id => exact (refines_clear id).map _
  | rotate old new => exact (refines_rotate old new).map _
  | create id => exact (refines_create id).map _
  | resume id => exact (refines_resume id).map _
  | liveLen => exact refines_liveLen.map _

end Operations

theorem StandsFor.runOps {ops : List (ℕ × SessionOp)} (h : StandsFor cfg now s m)
    (hsorted : (now :: ops.map Prod.fst).Pairwise (· ≤ ·)) :
    ∃ s', s.runOps cfg ops = some ((m.runOps cfg ops).1, s') ∧
      ∀ last, (∀ t ∈ now :: ops.map Prod.fst, t ≤ last) → StandsFor cfg last s' (m.runOps cfg ops).2 := by
  induction ops generalizing now s m with
  | nil => exact ⟨s, rfl, fun last hlast => ⟨h.counted, h.agrees.later (hlast now (List.mem_cons_self ..))⟩⟩
  | cons x ops ih =>
    obtain ⟨t, op⟩ := x
    obtain ⟨hle, hrest⟩ := List.pairwise_cons.1 hsorted
    have ht : StandsFor cfg t s m := ⟨h.counted, h.agrees.later (hle t (List.mem_cons_self ..))⟩
    obtain ⟨s₁, hrun₁, h₁⟩ := @refines_prog cfg t SessionOp op op s m ht
    obtain ⟨s₂, hrun₂, h₂⟩ := ih h₁ hrest
    refine ⟨s₂, ?_, fun last hlast => h₂ last fun t' ht' => hlast t' (List.mem_cons_of_mem _ ht')⟩
    unfold SessionStore.runOps
    rw [hrun₁, Option.bind_some, hrun₂]
    rfl

theorem standsFor_new (cfg : SessionsConfig) (now start sessionCounter : ℕ) :
    StandsFor cfg now (.new start sessionCounter) ∅ :=
  ⟨counted_new cfg start sessionCounter, fun _ => rfl⟩

end SessionStore

/-- **Refinement.** Operations at non-decreasing instants have the results they have on the plain map, and leave the
same sessions, whenever the expired entries are cleaned up. -/
theorem store_refines_plain (cfg : SessionsConfig) (start sessionCounter : ℕ) {ops : List (ℕ × SessionOp)}
    (hsorted : (ops.map Prod.fst).Pairwise (· ≤ ·)) :
    ∃ s, (SessionStore.new start sessionCounter).runOps cfg ops = some ((PlainSessions.runOps cfg ops ∅).1, s) ∧
      ∀ now, (∀ t ∈ ops.map Prod.fst, t ≤ now) → ∀ id,
        live now (s.lookup cfg id) = (PlainSessions.runOps cfg ops ∅).2.session now id := by
  obtain ⟨s, hrun, hstands⟩ := (SessionStore.standsFor_new cfg 0 start sessionCounter).runOps
    (List.pairwise_cons.2 ⟨fun _ _ => Nat.zero_le _, hsorted⟩)
  refine ⟨s, hrun, fun now hnow id => ?_⟩
  have hlast := hstands now (List.forall_mem_cons.2 ⟨Nat.zero_le _, hnow⟩)
  exact (hlast.agrees id).symm

/-- A third session has to wait until one of the first two has expired. -/
theorem store_refines_plain_full : ∃ s, (SessionStore.new 0 1).runOps smallConfig
    [(1, .create "a"), (2, .create "b"), (3, .create "c"), (11, .create "c"), (11, .liveLen)] =
      some ([.flag true, .flag true, .flag false, .flag true, .count 2], s) := by
  obtain ⟨s, hrun, -⟩ := @store_refines_plain smallConfig 0 1
    [(1, .create "a"), (2, .create "b"), (3, .create "c"), (11, .create "c"), (11, .liveLen)] (by decide)
  have hplain : (PlainSessions.runOps smallConfig
      [(1, .create "a"), (2, .create "b"), (3, .create "c"), (11, .create "c"), (11, .liveLen)] ∅).1 =
      [.flag true, .flag true, .flag false, .flag true, .count 2] := by
    decide +kernel
  rw [hplain] at hrun
  exact ⟨s, hrun⟩

end RustRest
