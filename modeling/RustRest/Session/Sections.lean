import RustRest.Session.Store

/-!
# What the sections of the session store do

Every section under the lock of a shard replaces the entry of one id, or removes expired entries of one shard.
-/

namespace RustRest

open FiniteMap Threads

namespace SessionStore

variable {cfg : SessionsConfig} {s s' s'' : SessionStore} {id : String} {now : ℕ}

/-! ## The store as a map -/

def lookup (cfg : SessionsConfig) (s : SessionStore) (id : String) : Option SessionEntry :=
  (s.shardOf cfg id).entries.lookup id

def stored (s : SessionStore) : ℕ := ∑ i, (s.shards i).entries.keys.card

/-- The index of every shard is exact. -/
def Exact (s : SessionStore) : Prop := ∀ i, (s.shards i).Exact

/-- Every entry is in the shard of its id. -/
def Placed (cfg : SessionsConfig) (s : SessionStore) : Prop := ∀ i, ∀ id ∈ (s.shards i).entries, cfg.shardIndex id = i

/-- The fields that the sections of shards leave alone. -/
structure SameRest (s s' : SessionStore) : Prop where
  maintenance : s'.maintenance = s.maintenance
  locked : s'.locked = s.locked
  rotations : s'.rotations = s.rotations
  sessionCounter : s'.sessionCounter = s.sessionCounter

theorem SameRest.refl (s : SessionStore) : SameRest s s := ⟨rfl, rfl, rfl, rfl⟩

theorem SameRest.trans (h : SameRest s s') (h' : SameRest s' s'') : SameRest s s'' :=
  ⟨h'.1.trans h.1, h'.2.trans h.2, h'.3.trans h.3, h'.4.trans h.4⟩

theorem stored_setShard (s : SessionStore) (index : Fin sessionStoreShards) (shard : SessionShard) :
    (s.setShard index shard).stored + (s.shards index).entries.keys.card = s.stored + shard.entries.keys.card := by
  have hupdate := Finset.sum_update_of_mem (Finset.mem_univ index) (fun i => (s.shards i).entries.keys.card)
    shard.entries.keys.card
  have hold := Finset.add_sum_erase Finset.univ (fun i => (s.shards i).entries.keys.card) (Finset.mem_univ index)
  have hnew : (s.setShard index shard).stored =
      ∑ i, Function.update (fun i => (s.shards i).entries.keys.card) index shard.entries.keys.card i := by
    unfold stored
    refine Finset.sum_congr rfl fun i _ => ?_
    by_cases hi : i = index
    · subst hi
      simp [setShard]
    · simp [setShard, hi]
  rw [Finset.sdiff_singleton_eq_erase] at hupdate
  rw [hnew, hupdate, stored, ← hold]
  omega

/-- The entry of `id` is replaced by `new`, and nothing else changes. -/
structure Put (cfg : SessionsConfig) (s s' : SessionStore) (id : String) (new : Option SessionEntry) : Prop where
  lookup_eq : ∀ id', s'.lookup cfg id' = if id' = id then new else s.lookup cfg id'
  exact : s.Exact → s'.Exact
  placed : s.Placed cfg → s'.Placed cfg
  stored_eq : s'.stored + (s.lookup cfg id).elim 0 (fun _ => 1) = s.stored + new.elim 0 (fun _ => 1)
  same : SameRest s s'
  entries_eq : s'.entries = s.entries
  wrapped_eq : s'.wrapped = s.wrapped
  inexact_eq : s'.inexact = s.inexact

variable {new : Option SessionEntry}

theorem put_setShard {shard : SessionShard}
    (hlookup : ∀ id', shard.entries.lookup id' = if id' = id then new else (s.shardOf cfg id).entries.lookup id')
    (hexact : (s.shardOf cfg id).Exact → shard.Exact) : Put cfg s (s.setShard (cfg.shardIndex id) shard) id new where
  lookup_eq id' := by
    unfold lookup shardOf setShard
    by_cases hi : cfg.shardIndex id' = cfg.shardIndex id
    · rw [hi]
      dsimp only
      rw [Function.update_self, hlookup]
      rfl
    · dsimp only
      rw [Function.update_of_ne hi, if_neg (fun heq => hi (by rw [heq]))]
  exact h i := by
    by_cases hi : i = cfg.shardIndex id
    · subst hi
      simp only [setShard, Function.update_self]
      exact hexact (h _)
    · simp only [setShard, Function.update_of_ne hi]
      exact h i
  placed h i id' hmem := by
    by_cases hi : i = cfg.shardIndex id
    · subst hi
      simp only [setShard, Function.update_self] at hmem
      rw [← Finmap.lookup_isSome, hlookup] at hmem
      split at hmem
      · rename_i heq
        rw [heq]
      · exact h _ id' (Finmap.lookup_isSome.1 hmem)
    · simp only [setShard, Function.update_of_ne hi] at hmem
      exact h i id' hmem
  stored_eq := by
    have hstored := stored_setShard s (cfg.shardIndex id) shard
    have hcard := card_keys_of_lookup hlookup
    unfold lookup
    unfold shardOf at hcard ⊢
    omega
  same := ⟨rfl, rfl, rfl, rfl⟩
  entries_eq := rfl
  wrapped_eq := rfl
  inexact_eq := rfl

theorem Put.lookup_self (h : Put cfg s s' id new) : s'.lookup cfg id = new := by
  rw [h.lookup_eq, if_pos rfl]

theorem Put.trans {new new' : Option SessionEntry} (h : Put cfg s s' id new) (h' : Put cfg s' s'' id new') :
    Put cfg s s'' id new' where
  lookup_eq id' := by
    rw [h'.lookup_eq, h.lookup_eq]
    split <;> rfl
  exact hs := h'.exact (h.exact hs)
  placed hs := h'.placed (h.placed hs)
  stored_eq := by
    have h₁ := h.stored_eq
    have h₂ := h'.stored_eq
    rw [h.lookup_self] at h₂
    omega
  same := h.same.trans h'.same
  entries_eq := h'.entries_eq.trans h.entries_eq
  wrapped_eq := h'.wrapped_eq.trans h.wrapped_eq
  inexact_eq := h'.inexact_eq.trans h.inexact_eq

/-- Other data with the same expiry. -/
theorem put_data {entry : SessionEntry} (data : SessionData) (h : s.lookup cfg id = some entry) :
    Put cfg s (s.setShard (cfg.shardIndex id) { s.shardOf cfg id with
      entries := (s.shardOf cfg id).entries.insert id { entry with data := data } }) id
      (some { entry with data := data }) := by
  unfold lookup at h
  refine put_setShard (fun id' => ?_) fun hexact t id' => ?_
  · by_cases hid : id' = id
    · subst hid
      rw [if_pos rfl]
      exact Finmap.lookup_insert _
    · rw [if_neg hid]
      exact Finmap.lookup_insert_of_ne _ hid
  · rw [hexact t id']
    by_cases hid : id' = id
    · subst hid
      rw [h, Finmap.lookup_insert]
      rfl
    · rw [Finmap.lookup_insert_of_ne _ hid]

/-! ## The counter -/

theorem lookup_fetchSub (cfg : SessionsConfig) (s : SessionStore) (n : ℕ) (id : String) :
    (s.fetchSub n).lookup cfg id = s.lookup cfg id := rfl

theorem fetchSub_entries {n : ℕ} (h : n ≤ s.entries) :
    (s.fetchSub n).entries = s.entries - n ∧ (s.fetchSub n).wrapped = s.wrapped := by
  refine ⟨if_pos h, ?_⟩
  simp [fetchSub, Nat.not_lt.2 h]

theorem fetchAdd_entries (h : s.entries < usizeMax) :
    s.fetchAdd.entries = s.entries + 1 ∧ s.fetchAdd.wrapped = s.wrapped := by
  refine ⟨if_pos h, ?_⟩
  simp [fetchAdd, Nat.not_lt.2 h]

/-! ## The sections -/

theorem setShard_self (s : SessionStore) (index : Fin sessionStoreShards) : s.setShard index (s.shards index) = s := by
  unfold setShard
  rw [Function.update_eq_self]

theorem put_removeEntry (cfg : SessionsConfig) (s : SessionStore) (id : String) :
    Put cfg s (s.setShard (cfg.shardIndex id) ((s.shardOf cfg id).removeEntry id).1) id none :=
  put_setShard (fun _ => SessionShard.lookup_removeEntry _) (fun h => h.removeEntry)

theorem isExpired_of_none (now : ℕ) (h : s.lookup cfg id = none) : (s.shardOf cfg id).isExpired id now = false := by
  unfold lookup at h
  unfold SessionShard.isExpired
  rw [h]
  rfl

theorem isExpired_of_some {entry : SessionEntry} (now : ℕ) (h : s.lookup cfg id = some entry) :
    (s.shardOf cfg id).isExpired id now = decide (entry.expiresAt ≤ now) := by
  unfold lookup at h
  unfold SessionShard.isExpired
  rw [h]
  rfl

/-- An expired entry is removed, an entry that has not expired is renewed. -/
theorem touch_cases (cfg : SessionsConfig) (s : SessionStore) (id : String) (now : ℕ) :
    (∃ entry s₁, s.lookup cfg id = some entry ∧ entry.expiresAt ≤ now ∧ Put cfg s s₁ id none ∧
      s.touch cfg id now = (false, s₁.fetchSub 1)) ∨
    (s.lookup cfg id = none ∧ s.touch cfg id now = (false, s)) ∨
    (∃ entry s₁, s.lookup cfg id = some entry ∧ now < entry.expiresAt ∧
      Put cfg s s₁ id (some { entry with expiresAt := cfg.expiry now }) ∧ s.touch cfg id now = (true, s₁)) := by
  unfold touch
  dsimp only
  cases hentry : s.lookup cfg id with
  | none =>
    refine Or.inr (Or.inl ⟨rfl, ?_⟩)
    unfold lookup at hentry
    rw [isExpired_of_none now hentry, if_neg Bool.false_ne_true, SessionShard.renew, hentry]
    exact congrArg _ (setShard_self s _)
  | some entry =>
    by_cases hle : entry.expiresAt ≤ now
    · refine Or.inl ⟨entry, _, rfl, hle, put_removeEntry cfg s id, ?_⟩
      rw [isExpired_of_some now hentry, if_pos (decide_eq_true hle)]
    · refine Or.inr (Or.inr ⟨entry, s.setShard (cfg.shardIndex id) ((s.shardOf cfg id).renew id (cfg.expiry now)).1, rfl,
        by omega, put_setShard (fun id' => ?_) (fun h => h.renew _), ?_⟩)
      · rw [SessionShard.lookup_renew]
        by_cases hid : id' = id
        · rw [if_pos hid, if_pos hid, hid, show (s.shardOf cfg id).entries.lookup id = some entry from hentry]
          rfl
        · rw [if_neg hid, if_neg hid]
      · rw [isExpired_of_some now hentry, if_neg (by rw [decide_eq_true_iff]; exact hle)]
        have hrenewed : ((s.shardOf cfg id).renew id (cfg.expiry now)).2 = true := by
          rw [SessionShard.renew_snd, show (s.shardOf cfg id).entries.lookup id = some entry from hentry]
          rfl
        exact Prod.ext hrenewed rfl

/-- Looking the entry up again changes nothing. -/
theorem probeSection_eq_touch (cfg : SessionsConfig) (s : SessionStore) (id : String) (now : ℕ) :
    s.probeSection cfg id now = s.touch cfg id now := by
  unfold probeSection touch
  dsimp only
  cases hexpired : (s.shardOf cfg id).isExpired id now with
  | false => rfl
  | true =>
    rw [if_pos rfl, if_pos rfl]
    have hnone := (put_removeEntry cfg s id).lookup_self
    rw [← lookup_fetchSub cfg _ 1] at hnone
    unfold lookup at hnone
    rw [SessionShard.renew, hnone]
    exact congrArg _ (setShard_self _ _)

theorem getSection_eq (cfg : SessionsConfig) (s : SessionStore) (id key : String) (now : ℕ) :
    s.getSection cfg id key now = (if (s.touch cfg id now).1 then
      ((s.touch cfg id now).2.lookup cfg id).bind (fun entry => entry.data.lookup key) else none,
      (s.touch cfg id now).2) := by
  unfold getSection
  rcases s.touch cfg id now with ⟨alive, s'⟩
  cases alive <;> rfl

/-- The value of a key is removed from an entry that has not expired. -/
theorem removeSection_cases (cfg : SessionsConfig) (s : SessionStore) (id key : String) (now : ℕ) :
    ((s.touch cfg id now).1 = false ∧ s.removeSection cfg id key now = (s.touch cfg id now).2) ∨
    (∃ entry, s.lookup cfg id = some entry ∧ now < entry.expiresAt ∧
      Put cfg s (s.removeSection cfg id key now) id (some ⟨entry.data.erase key, cfg.expiry now⟩)) := by
  unfold removeSection
  obtain ⟨entry, s₁, hentry, hle, hput, htouch⟩ | ⟨hentry, htouch⟩ | ⟨entry, s₁, hentry, hlt, hput, htouch⟩ :=
    touch_cases cfg s id now
  · rw [htouch]
    exact Or.inl ⟨rfl, rfl⟩
  · rw [htouch]
    exact Or.inl ⟨rfl, rfl⟩
  · refine Or.inr ⟨entry, hentry, hlt, ?_⟩
    have hlookup := hput.lookup_self
    rw [htouch]
    dsimp only
    unfold lookup at hlookup
    rw [hlookup]
    exact hput.trans (put_data _ hlookup)

/-- The value is written to an entry that has not expired, unless it would break a limit. -/
theorem writeSection_cases (cfg : SessionsConfig) (s : SessionStore) (id key value : String) (now : ℕ) :
    (∃ entry s₁, s.lookup cfg id = some entry ∧ entry.expiresAt ≤ now ∧ Put cfg s s₁ id none ∧
      s.writeSection cfg id key value now = (.error ⟨.sessionUnavailable, none⟩, s₁.fetchSub 1)) ∨
    (s.lookup cfg id = none ∧ s.writeSection cfg id key value now = (.error ⟨.sessionUnavailable, none⟩, s)) ∨
    (∃ entry error, s.lookup cfg id = some entry ∧ now < entry.expiresAt ∧
      writeValue cfg.limits key value entry.data = .error error ∧
      s.writeSection cfg id key value now = (.error error, s)) ∨
    (∃ entry data s₁, s.lookup cfg id = some entry ∧ now < entry.expiresAt ∧
      writeValue cfg.limits key value entry.data = .ok data ∧ Put cfg s s₁ id (some { entry with data := data }) ∧
      s.writeSection cfg id key value now = (.ok (), s₁)) := by
  unfold writeSection
  dsimp only
  cases hentry : s.lookup cfg id with
  | none =>
    refine Or.inr (Or.inl ⟨rfl, ?_⟩)
    rw [isExpired_of_none now hentry, if_neg Bool.false_ne_true]
    unfold lookup at hentry
    rw [hentry]
  | some entry =>
    by_cases hle : entry.expiresAt ≤ now
    · refine Or.inl ⟨entry, _, rfl, hle, put_removeEntry cfg s id, ?_⟩
      rw [isExpired_of_some now hentry, if_pos (decide_eq_true hle)]
    · refine Or.inr (Or.inr ?_)
      have hput := fun data => put_data data hentry
      rw [isExpired_of_some now hentry, if_neg (by rw [decide_eq_true_iff]; exact hle)]
      unfold lookup at hentry
      rw [hentry]
      cases hwrite : writeValue cfg.limits key value entry.data with
      | error error => exact Or.inl ⟨entry, error, rfl, by omega, hwrite, by simp only [hwrite]⟩
      | ok data => exact Or.inr ⟨entry, data, _, rfl, by omega, hwrite, hput data, by simp only [hwrite]⟩

/-- An entry is put in; one more is counted if there was none. -/
theorem admitSection_cases (cfg : SessionsConfig) (s : SessionStore) (id : String) (now : ℕ) :
    ∃ s₁, Put cfg s s₁ id (some ⟨∅, cfg.expiry now⟩) ∧
      s.admitSection cfg id now = if (s.lookup cfg id).isNone then s₁.fetchAdd else s₁ :=
  ⟨_, put_setShard (fun _ => SessionShard.lookup_insertEntry _ _) (fun h => h.insertEntry _), rfl⟩

/-- An entry is put in; one less is counted if there was one. -/
theorem moveSection_cases (cfg : SessionsConfig) (s : SessionStore) (id : String) (entry : SessionEntry) :
    ∃ s₁, Put cfg s s₁ id (some entry) ∧
      s.moveSection cfg id entry = if (s.lookup cfg id).isNone then s₁ else s₁.fetchSub 1 :=
  ⟨_, put_setShard (fun _ => SessionShard.lookup_insertEntry _ _) (fun h => h.insertEntry _), rfl⟩

/-- The entry is taken out. -/
theorem takeSection_cases (cfg : SessionsConfig) (s : SessionStore) (id : String) :
    ∃ s₁, Put cfg s s₁ id none ∧ s.takeSection cfg id = (s.lookup cfg id, s₁) := by
  refine ⟨_, put_removeEntry cfg s id, ?_⟩
  unfold takeSection lookup
  rw [← SessionShard.removeEntry_snd]

/-! ## Removal of expired entries -/

/-- `n` expired entries are removed, and nothing else changes. -/
structure Cleaned (cfg : SessionsConfig) (s s' : SessionStore) (now n : ℕ) : Prop where
  lookup_eq : ∀ id, s'.lookup cfg id = s.lookup cfg id ∨
    s'.lookup cfg id = none ∧ ∃ entry, s.lookup cfg id = some entry ∧ entry.expiresAt ≤ now
  exact : s'.Exact
  placed : s.Placed cfg → s'.Placed cfg
  stored_eq : s.stored = s'.stored + n
  same : SameRest s s'
  entries_eq : s'.entries = s.entries
  wrapped_eq : s'.wrapped = s.wrapped
  inexact_eq : s'.inexact = s.inexact

theorem Cleaned.refl (cfg : SessionsConfig) (now : ℕ) (h : s.Exact) : Cleaned cfg s s now 0 where
  lookup_eq _ := Or.inl rfl
  exact := h
  placed := fun h => h
  stored_eq := (Nat.add_zero _).symm
  same := .refl s
  entries_eq := rfl
  wrapped_eq := rfl
  inexact_eq := rfl

theorem Cleaned.trans {n n' : ℕ} (h : Cleaned cfg s s' now n) (h' : Cleaned cfg s' s'' now n') :
    Cleaned cfg s s'' now (n + n') where
  lookup_eq id := by
    rcases h'.lookup_eq id with h₂ | ⟨h₂, entry, hentry, hle⟩
    · rw [h₂]
      exact h.lookup_eq id
    · rcases h.lookup_eq id with h₁ | h₁
      · exact Or.inr ⟨h₂, entry, h₁ ▸ hentry, hle⟩
      · exact Or.inr ⟨h₂, h₁.2⟩
  exact := h'.exact
  placed hs := h'.placed (h.placed hs)
  stored_eq := by rw [h.stored_eq, h'.stored_eq]; omega
  same := h.same.trans h'.same
  entries_eq := h'.entries_eq.trans h.entries_eq
  wrapped_eq := h'.wrapped_eq.trans h.wrapped_eq
  inexact_eq := h'.inexact_eq.trans h.inexact_eq

/-- One shard is swept. -/
theorem sweepSection_cases (cfg : SessionsConfig) (h : s.Exact) (index : Fin sessionStoreShards) (now maximum : ℕ) :
    ∃ n s', s.sweepSection index now maximum = (n, s') ∧ Cleaned cfg s s' now n ∧ n ≤ maximum ∧
      (n < maximum → ∀ id, (s'.shards index).isExpired id now = false) ∧ (n = 0 → s' = s) := by
  obtain ⟨shard, n, hremoved, hswept⟩ := SessionShard.removeExpiredEntries_spec (h index) now maximum
  have hother : ∀ i, i ≠ index → Function.update s.shards index shard i = s.shards i := fun i hi =>
    Function.update_of_ne hi _ _
  refine ⟨n, { s.setShard index shard with inexact := s.inexact }, ?_, ⟨fun id => ?_, fun i => ?_, fun hplaced i id hmem => ?_,
    ?_, ⟨rfl, rfl, rfl, rfl⟩, rfl, rfl, rfl⟩, hswept.le, ?_, fun hzero => ?_⟩
  · unfold sweepSection
    rw [hremoved]
    simp
  · unfold lookup shardOf setShard
    dsimp only
    by_cases hi : cfg.shardIndex id = index
    · rw [hi, Function.update_self]
      rcases hswept.lookup id with heq | ⟨hnone, hexpired⟩
      · exact Or.inl heq
      · exact Or.inr ⟨hnone, SessionShard.isExpired_iff.1 hexpired⟩
    · rw [hother _ hi]
      exact Or.inl rfl
  · show (Function.update s.shards index shard i).Exact
    by_cases hi : i = index
    · rw [hi, Function.update_self]
      exact hswept.exact
    · rw [hother i hi]
      exact h i
  · replace hmem : id ∈ (Function.update s.shards index shard i).entries := hmem
    by_cases hi : i = index
    · rw [hi, Function.update_self, ← Finmap.lookup_isSome] at hmem
      rcases hswept.lookup id with heq | ⟨hnone, -⟩
      · rw [heq] at hmem
        exact hi ▸ hplaced index id (Finmap.lookup_isSome.1 hmem)
      · rw [hnone] at hmem
        cases hmem
    · rw [hother i hi] at hmem
      exact hplaced i id hmem
  · have hstored := stored_setShard s index shard
    have hcard := hswept.card
    show s.stored = (s.setShard index shard).stored + n
    omega
  · intro hlt id
    show (Function.update s.shards index shard index).isExpired id now = false
    rw [Function.update_self]
    exact hswept.clean hlt id
  · rw [hswept.unchanged hzero, setShard_self]

/-! ## The counter and the shards -/

/-- What a thread has a share in: the entries taken out and not yet counted off, the maintenance lock, and the lock
together with the room for one more entry. -/
abbrev Share := ℕ × ℕ × ℕ

/-- The invariant, for the shares of all threads together. -/
structure Counted (cfg : SessionsConfig) (s : SessionStore) (d : Share) : Prop where
  exact : s.Exact
  placed : s.Placed cfg
  entries_eq : s.entries = s.stored + d.1
  entries_le : s.entries + d.2.2 ≤ cfg.maxSessions
  locked_eq : d.2.1 + d.2.2 = if s.locked then 1 else 0
  wrapped_eq : s.wrapped = false
  inexact_eq : s.inexact = false

variable {d : Share} {l : ℕ × ℕ}

/-- A section that moves entries between the shards and what is owed. -/
theorem Counted.put {k k' : ℕ} (h : Counted cfg s (k, l))
    (hput : Put cfg s s' id new) (hk : s'.stored + k' = s.stored + k) : Counted cfg s' (k', l) where
  exact := hput.exact h.exact
  placed := hput.placed h.placed
  entries_eq := by
    rw [hput.entries_eq, h.entries_eq]
    exact hk.symm
  entries_le := by
    rw [hput.entries_eq]
    exact h.entries_le
  locked_eq := by
    rw [hput.same.locked]
    exact h.locked_eq
  wrapped_eq := hput.wrapped_eq.trans h.wrapped_eq
  inexact_eq := hput.inexact_eq.trans h.inexact_eq

/-- What is owed is counted off. -/
theorem Counted.fetchSub {k n : ℕ} (h : Counted cfg s (k + n, l)) : Counted cfg (s.fetchSub n) (k, l) := by
  have hentries : s.entries = s.stored + (k + n) := h.entries_eq
  have hle : s.entries + l.2 ≤ cfg.maxSessions := h.entries_le
  obtain ⟨hsub, hwrapped⟩ := @fetchSub_entries s n (by omega)
  have hstored : (s.fetchSub n).stored = s.stored := rfl
  refine ⟨h.exact, h.placed, ?_, ?_, h.locked_eq, hwrapped.trans h.wrapped_eq, h.inexact_eq⟩
  · dsimp only
    omega
  · dsimp only
    omega

/-- An entry that is taken out is owed. -/
theorem Counted.take {k : ℕ} (h : Counted cfg s (k, l)) (hput : Put cfg s s' id none) :
    Counted cfg s' (k + (s.lookup cfg id).elim 0 (fun _ => 1), l) := by
  have hstored := hput.stored_eq
  rw [Option.elim_none] at hstored
  exact h.put hput (by omega)

theorem Counted.expire (h : Counted cfg s d) {entry : SessionEntry} (hentry : s.lookup cfg id = some entry)
    (hput : Put cfg s s' id none) : Counted cfg (s'.fetchSub 1) d := by
  have htaken := h.take hput
  rw [hentry] at htaken
  exact htaken.fetchSub

theorem Counted.replace (h : Counted cfg s d) {entry entry' : SessionEntry} (hentry : s.lookup cfg id = some entry)
    (hput : Put cfg s s' id (some entry')) : Counted cfg s' d := by
  have hstored := hput.stored_eq
  simp only [hentry, Option.elim] at hstored
  exact h.put hput (by omega)

theorem Counted.touch (h : Counted cfg s d) (id : String) (now : ℕ) : Counted cfg (s.touch cfg id now).2 d := by
  obtain ⟨entry, s₁, hentry, -, hput, htouch⟩ | ⟨-, htouch⟩ | ⟨entry, s₁, hentry, -, hput, htouch⟩ :=
    touch_cases cfg s id now
  · rw [htouch]
    exact h.expire hentry hput
  · rw [htouch]
    exact h
  · rw [htouch]
    exact h.replace hentry hput

theorem Counted.removeSection (h : Counted cfg s d) (id key : String) (now : ℕ) :
    Counted cfg (s.removeSection cfg id key now) d := by
  obtain ⟨-, heq⟩ | ⟨entry, hentry, -, hput⟩ := removeSection_cases cfg s id key now
  · rw [heq]
    exact h.touch id now
  · exact h.replace hentry hput

theorem Counted.writeSection (h : Counted cfg s d) (id key value : String) (now : ℕ) :
    Counted cfg (s.writeSection cfg id key value now).2 d := by
  obtain ⟨entry, s₁, hentry, -, hput, heq⟩ | ⟨-, heq⟩ | ⟨entry, error, -, -, -, heq⟩ |
    ⟨entry, data, s₁, hentry, -, -, hput, heq⟩ := writeSection_cases cfg s id key value now
  · rw [heq]
    exact h.expire hentry hput
  · rw [heq]
    exact h
  · rw [heq]
    exact h
  · rw [heq]
    exact h.replace hentry hput

/-- Room that was found is used. -/
theorem Counted.admitSection {k f r : ℕ} (h : Counted cfg s (k, f, r + 1)) (id : String) (now : ℕ) :
    Counted cfg (s.admitSection cfg id now) (k, f + 1, r) := by
  obtain ⟨s₁, hput, heq⟩ := admitSection_cases cfg s id now
  have hle : s.entries + (r + 1) ≤ cfg.maxSessions := h.entries_le
  have hlocked : f + (r + 1) = if s.locked then 1 else 0 := h.locked_eq
  have hstored := hput.stored_eq
  rw [heq]
  cases hentry : s.lookup cfg id with
  | some entry =>
    have h₁ := h.replace hentry hput
    have hentries := hput.entries_eq
    refine ⟨h₁.exact, h₁.placed, h₁.entries_eq, ?_, ?_, h₁.wrapped_eq, h₁.inexact_eq⟩
    · show s₁.entries + r ≤ _
      omega
    · show f + 1 + r = if s₁.locked then 1 else 0
      rw [hput.same.locked]
      omega
  | none =>
    simp only [hentry, Option.elim] at hstored
    have hentries := hput.entries_eq
    have hsum : s.entries = s.stored + k := h.entries_eq
    have hmax := cfg.maxSessions_le
    obtain ⟨hadd, hwrapped⟩ := @fetchAdd_entries s₁ (by omega)
    refine ⟨hput.exact h.exact, hput.placed h.placed, ?_, ?_, ?_, (hwrapped.trans hput.wrapped_eq).trans h.wrapped_eq,
      hput.inexact_eq.trans h.inexact_eq⟩
    · show s₁.fetchAdd.entries = s₁.stored + k
      omega
    · show s₁.fetchAdd.entries + r ≤ _
      omega
    · show f + 1 + r = if s₁.locked then 1 else 0
      rw [hput.same.locked]
      omega

/-- An entry that was taken out is put in again under another id. -/
theorem Counted.moveSection {k : ℕ} (h : Counted cfg s (k + 1, l)) (id : String) (entry : SessionEntry) :
    Counted cfg (s.moveSection cfg id entry) (k, l) := by
  obtain ⟨s₁, hput, heq⟩ := moveSection_cases cfg s id entry
  have hstored := hput.stored_eq
  rw [heq]
  cases hentry : s.lookup cfg id with
  | none =>
    simp only [hentry, Option.elim] at hstored
    exact h.put hput (show s₁.stored + k = _ by omega)
  | some previous =>
    exact (h.replace hentry hput).fetchSub

theorem Counted.cleaned {k n now : ℕ} (h : Counted cfg s (k, l)) (hclean : Cleaned cfg s s' now n) :
    Counted cfg s' (k + n, l) where
  exact := hclean.exact
  placed := hclean.placed h.placed
  entries_eq := by
    have hsum : s.entries = s.stored + k := h.entries_eq
    have hstored := hclean.stored_eq
    rw [hclean.entries_eq]
    dsimp only
    omega
  entries_le := by
    rw [hclean.entries_eq]
    exact h.entries_le
  locked_eq := by
    rw [hclean.same.locked]
    exact h.locked_eq
  wrapped_eq := hclean.wrapped_eq.trans h.wrapped_eq
  inexact_eq := hclean.inexact_eq.trans h.inexact_eq

end SessionStore

end RustRest
