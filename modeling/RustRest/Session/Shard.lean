import RustRest.Lib.FiniteMap

/-!
# Shards of the session store

A shard holds session entries by id, and an index of them ordered by expiry. The functions here are those of the store
that work on one locked shard.
-/

namespace RustRest

open FiniteMap

/-! ## Session data -/

/-- `usize::MAX` of a 64-bit target. -/
def usizeMax : ℕ := 2 ^ 64 - 1

/-- `usize::checked_add`, on the exact sum. -/
def checkedUsize (n : ℕ) : Option ℕ := if n ≤ usizeMax then some n else none

inductive SessionDataErrorKind where
  | emptyKey
  | keyTooLarge
  | valueTooLarge
  | tooManyEntries
  | sessionTooLarge
  | sessionUnavailable
  deriving DecidableEq, Repr

/-- `SessionDataError`. -/
structure SessionDataError where
  kind : SessionDataErrorKind
  limit : Option ℕ
  deriving DecidableEq, Repr

/-- `SessionDataLimits`. -/
structure SessionDataLimits where
  entries : ℕ
  keyBytes : ℕ
  valueBytes : ℕ
  totalBytes : ℕ
  deriving DecidableEq, Repr

abbrev SessionData := Map String String

def validateSessionValue (key value : String) (limits : SessionDataLimits) : Except SessionDataError Unit :=
  if key.isEmpty then .error ⟨.emptyKey, none⟩
  else if key.utf8ByteSize > limits.keyBytes then .error ⟨.keyTooLarge, some limits.keyBytes⟩
  else if value.utf8ByteSize > limits.valueBytes then .error ⟨.valueTooLarge, some limits.valueBytes⟩
  else match checkedUsize (key.utf8ByteSize + value.utf8ByteSize) with
    | none => .error ⟨.sessionTooLarge, some limits.totalBytes⟩
    | some size => if size > limits.totalBytes then .error ⟨.sessionTooLarge, some limits.totalBytes⟩ else .ok ()

def dataBytes (data : SessionData) : Option ℕ :=
  checkedUsize (data.entries.map fun e => e.1.utf8ByteSize + e.2.utf8ByteSize).sum

def writeValue (limits : SessionDataLimits) (key value : String) (data : SessionData) :
    Except SessionDataError SessionData :=
  if key ∉ data ∧ data.keys.card ≥ limits.entries then .error ⟨.tooManyEntries, some limits.entries⟩
  else match dataBytes data with
    | none => .error ⟨.sessionTooLarge, some limits.totalBytes⟩
    | some currentBytes =>
      let replacedBytes := match data.lookup key with
        | some oldValue => key.utf8ByteSize + oldValue.utf8ByteSize
        | none => 0
      if currentBytes < replacedBytes then .error ⟨.sessionTooLarge, some limits.totalBytes⟩
      else
        let nextBytes := (checkedUsize (currentBytes - replacedBytes + key.utf8ByteSize)).bind fun total =>
          (checkedUsize (total + value.utf8ByteSize)).filter fun total => total ≤ limits.totalBytes
        match nextBytes with
        | none => .error ⟨.sessionTooLarge, some limits.totalBytes⟩
        | some _ => .ok (data.insert key value)

/-! ## A shard -/

/-- `SessionEntry`. Instants are counted from some origin. -/
structure SessionEntry where
  data : SessionData
  expiresAt : ℕ
  deriving DecidableEq

/-- `SessionShard`. The keys of the index, `ShardExpiryKey`, are ordered by expiry and then by id. -/
structure SessionShard where
  entries : Map String SessionEntry
  expiry : Finset (ℕ ×ₗ String)
  deriving DecidableEq

namespace SessionShard

/-- `SessionShard::default`. -/
def empty : SessionShard := ⟨∅, ∅⟩

def expiryKey (sessionId : String) (entry : SessionEntry) : ℕ ×ₗ String := toLex (entry.expiresAt, sessionId)

def isExpired (shard : SessionShard) (sessionId : String) (now : ℕ) : Bool :=
  (shard.entries.lookup sessionId).any fun entry => entry.expiresAt ≤ now

/-- `SessionStore::renew`, for the new `expiresAt`. -/
def renew (shard : SessionShard) (sessionId : String) (expiresAt : ℕ) : SessionShard × Bool :=
  match shard.entries.lookup sessionId with
  | none => (shard, false)
  | some entry =>
    let renewed := { entry with expiresAt := expiresAt }
    (⟨shard.entries.insert sessionId renewed,
      insert (expiryKey sessionId renewed) (shard.expiry.erase (expiryKey sessionId entry))⟩, true)

/-- The entry, and its place in the index of expiries. -/
def insertEntry (shard : SessionShard) (sessionId : String) (entry : SessionEntry) : SessionShard × Bool :=
  let expiry := match shard.entries.lookup sessionId with
    | some previous => shard.expiry.erase (expiryKey sessionId previous)
    | none => shard.expiry
  (⟨shard.entries.insert sessionId entry, insert (expiryKey sessionId entry) expiry⟩,
    (shard.entries.lookup sessionId).isNone)

/-- The entry goes, with its place in the index. -/
def removeEntry (shard : SessionShard) (sessionId : String) : SessionShard × Option SessionEntry :=
  match shard.entries.lookup sessionId with
  | none => (shard, none)
  | some entry => (⟨shard.entries.erase sessionId, shard.expiry.erase (expiryKey sessionId entry)⟩, some entry)

def expiryTurn (shard : SessionShard) (now : ℕ) : Option (SessionShard × Bool) :=
  match shard.expiry.min with
  | none => none
  | some candidate =>
    if (ofLex candidate).1 > now then none
    else
      let expiry := shard.expiry.erase candidate
      if (shard.entries.lookup (ofLex candidate).2).any fun entry => entry.expiresAt = (ofLex candidate).1 then
        some (⟨shard.entries.erase (ofLex candidate).2, expiry⟩, true)
      else some (⟨shard.entries, expiry⟩, false)

theorem expiryTurn_card_lt {shard shard' : SessionShard} {now : ℕ} {agreed : Bool}
    (h : shard.expiryTurn now = some (shard', agreed)) : shard'.expiry.card < shard.expiry.card := by
  unfold expiryTurn at h
  split at h
  · cases h
  · rename_i candidate hmin
    have hlt := Finset.card_erase_lt_of_mem (Finset.mem_of_min hmin)
    split at h
    · cases h
    · split at h <;> (cases h; exact hlt)

def removeExpiredLoop (shard : SessionShard) (now maximum removed : ℕ) (exact : Bool) : SessionShard × ℕ × Bool :=
  if removed < maximum then
    match _hturn : shard.expiryTurn now with
    | none => (shard, removed, exact)
    | some (shard', true) => removeExpiredLoop shard' now maximum (removed + 1) exact
    | some (shard', false) => removeExpiredLoop shard' now maximum removed false
  else (shard, removed, exact)
termination_by shard.expiry.card
decreasing_by all_goals exact expiryTurn_card_lt _hturn

/-- The earliest expired entries, as many as allowed. -/
def removeExpiredEntries (shard : SessionShard) (now maximum : ℕ) : SessionShard × ℕ × Bool :=
  shard.removeExpiredLoop now maximum 0 true

/-! ## The index is exact -/

def Exact (shard : SessionShard) : Prop :=
  ∀ expiresAt sessionId, toLex (expiresAt, sessionId) ∈ shard.expiry ↔
    (shard.entries.lookup sessionId).map SessionEntry.expiresAt = some expiresAt

theorem exact_empty : Exact empty := by
  intro t id
  rw [empty, Finmap.lookup_empty]
  constructor
  · exact fun h => absurd h (Finset.notMem_empty _)
  · exact nofun

variable {shard : SessionShard} {sessionId : String}

variable {entry : SessionEntry}

theorem Exact.mem_erase (h : shard.Exact) (hentry : shard.entries.lookup sessionId = some entry)
    (t : ℕ) (id : String) : toLex (t, id) ∈ shard.expiry.erase (expiryKey sessionId entry) ↔
      id ≠ sessionId ∧ (shard.entries.lookup id).map SessionEntry.expiresAt = some t := by
  rw [Finset.mem_erase, h, expiryKey]
  by_cases hid : id = sessionId
  · subst hid
    rw [hentry]
    constructor
    · rintro ⟨hne, heq⟩
      exact absurd (by rw [← Option.some.inj heq]) hne
    · exact fun hne => absurd rfl hne.1
  · have hne : toLex (t, id) ≠ toLex (entry.expiresAt, sessionId) := fun heq => hid (congrArg Prod.snd (toLex_inj.1 heq))
    simp only [ne_eq, hne, not_false_eq_true, true_and, hid]

theorem Exact.erase (h : shard.Exact) (hentry : shard.entries.lookup sessionId = some entry) :
    Exact ⟨shard.entries.erase sessionId, shard.expiry.erase (expiryKey sessionId entry)⟩ := by
  intro t id
  rw [h.mem_erase hentry]
  by_cases hid : id = sessionId
  · subst hid
    rw [Finmap.lookup_erase]
    simp
  · rw [Finmap.lookup_erase_ne hid]
    exact and_iff_right hid

theorem exact_insert {entries : Map String SessionEntry} {expiry : Finset (ℕ ×ₗ String)}
    (entry : SessionEntry) (h : ∀ t id, toLex (t, id) ∈ expiry ↔
      id ≠ sessionId ∧ (entries.lookup id).map SessionEntry.expiresAt = some t) :
    Exact ⟨entries.insert sessionId entry, insert (expiryKey sessionId entry) expiry⟩ := by
  intro t id
  rw [Finset.mem_insert, h, expiryKey, toLex_inj, Prod.mk.injEq]
  by_cases hid : id = sessionId
  · subst hid
    rw [Finmap.lookup_insert, Option.map_some, Option.some.injEq]
    simp [eq_comm]
  · rw [Finmap.lookup_insert_of_ne _ hid]
    simp [hid]

theorem Exact.renew (h : shard.Exact) (expiresAt : ℕ) : (shard.renew sessionId expiresAt).1.Exact := by
  unfold SessionShard.renew
  split
  · exact h
  · rename_i entry hentry
    exact exact_insert _ (h.mem_erase hentry)

theorem Exact.insertEntry (h : shard.Exact) (entry : SessionEntry) : (shard.insertEntry sessionId entry).1.Exact := by
  unfold SessionShard.insertEntry
  cases hlookup : shard.entries.lookup sessionId with
  | some previous => exact exact_insert _ (h.mem_erase hlookup)
  | none =>
    refine exact_insert _ fun t id => ?_
    rw [h t id]
    refine ⟨fun heq => ⟨?_, heq⟩, And.right⟩
    rintro rfl
    rw [hlookup] at heq
    cases heq

theorem Exact.removeEntry (h : shard.Exact) : (shard.removeEntry sessionId).1.Exact := by
  unfold SessionShard.removeEntry
  split
  · exact h
  · rename_i entry hentry
    exact h.erase hentry

/-! ## Expired entries -/

theorem isExpired_iff {now : ℕ} : shard.isExpired sessionId now = true ↔
    ∃ entry, shard.entries.lookup sessionId = some entry ∧ entry.expiresAt ≤ now := by
  unfold isExpired
  cases shard.entries.lookup sessionId <;> simp

theorem Exact.expiryTurn_none (h : shard.Exact) {now : ℕ} (hturn : shard.expiryTurn now = none) (id : String) :
    shard.isExpired id now = false := by
  rw [Bool.eq_false_iff, ne_eq, isExpired_iff]
  rintro ⟨entry, hentry, hle⟩
  have hmem : toLex (entry.expiresAt, id) ∈ shard.expiry := (h _ _).2 (by rw [hentry]; rfl)
  unfold expiryTurn at hturn
  split at hturn
  · rename_i hmin
    exact absurd hmem (by rw [Finset.min_eq_top.1 hmin]; exact Finset.notMem_empty _)
  · rename_i candidate hmin
    have hfirst : candidate ≤ toLex (entry.expiresAt, id) := Finset.min_le_of_eq hmem hmin
    have hlater : (ofLex candidate).1 ≤ entry.expiresAt := by
      rcases Prod.Lex.le_iff.1 hfirst with hlt | ⟨heq, -⟩
      · exact hlt.le
      · exact heq.le
    split at hturn
    · omega
    · split at hturn <;> cases hturn

theorem Exact.expiryTurn_some (h : shard.Exact) {shard' : SessionShard} {now : ℕ} {agreed : Bool}
    (hturn : shard.expiryTurn now = some (shard', agreed)) :
    agreed = true ∧ ∃ id entry, shard.entries.lookup id = some entry ∧ entry.expiresAt ≤ now ∧
      shard' = ⟨shard.entries.erase id, shard.expiry.erase (expiryKey id entry)⟩ := by
  unfold expiryTurn at hturn
  split at hturn
  · cases hturn
  · rename_i candidate hmin
    have hcandidate := (h (ofLex candidate).1 (ofLex candidate).2).1 (Finset.mem_of_min hmin)
    obtain ⟨entry, hentry, hexpires⟩ := Option.map_eq_some_iff.1 hcandidate
    split at hturn
    · cases hturn
    · rename_i hnow
      dsimp only at hturn
      rw [hentry, Option.any_some, hexpires, if_pos (decide_eq_true rfl)] at hturn
      cases hturn
      refine ⟨rfl, _, entry, hentry, by omega, ?_⟩
      rw [expiryKey, hexpires]
      rfl

structure Swept (shard shard' : SessionShard) (now maximum n : ℕ) : Prop where
  exact : shard'.Exact
  lookup : ∀ id, shard'.entries.lookup id = shard.entries.lookup id ∨
    shard'.entries.lookup id = none ∧ shard.isExpired id now = true
  card : shard.entries.keys.card = shard'.entries.keys.card + n
  le : n ≤ maximum
  clean : n < maximum → ∀ id, shard'.isExpired id now = false
  unchanged : n = 0 → shard' = shard

theorem isExpired_congr {shard shard' : SessionShard} {id : String} (now : ℕ)
    (h : shard'.entries.lookup id = shard.entries.lookup id) : shard'.isExpired id now = shard.isExpired id now := by
  unfold isExpired
  rw [h]

theorem Swept.cons {shard₁ shard' : SessionShard} {now maximum n : ℕ} {id : String}
    (hentry : shard.entries.lookup id = some entry) (hnow : entry.expiresAt ≤ now)
    (hturn : shard₁ = ⟨shard.entries.erase id, shard.expiry.erase (expiryKey id entry)⟩)
    (h : Swept shard₁ shard' now maximum n) : Swept shard shard' now (maximum + 1) (n + 1) := by
  have hother : ∀ id', id' ≠ id → shard₁.entries.lookup id' = shard.entries.lookup id' := by
    intro id' hne
    rw [hturn]
    exact Finmap.lookup_erase_ne hne
  have hself : shard₁.entries.lookup id = none := by
    rw [hturn]
    exact Finmap.lookup_erase _ _
  refine ⟨h.exact, fun id' => ?_, ?_, Nat.succ_le_succ h.le, fun hlt => h.clean (Nat.lt_of_succ_lt_succ hlt), nofun⟩
  · by_cases hid : id' = id
    · subst hid
      refine Or.inr ⟨?_, isExpired_iff.2 ⟨entry, hentry, hnow⟩⟩
      rcases h.lookup id' with heq | ⟨hnone, -⟩
      · rw [heq, hself]
      · exact hnone
    · rw [← hother id' hid, ← isExpired_congr now (hother id' hid)]
      exact h.lookup id'
  · have hcard := h.card
    have hmem : id ∈ shard.entries.keys := mem_keys_of_lookup hentry
    have hpos := Finset.card_pos.2 ⟨id, hmem⟩
    rw [hturn, Finmap.keys_erase, Finset.card_erase_of_mem hmem] at hcard
    omega

variable {now maximum removed : ℕ}

theorem removeExpiredLoop_break (exact : Bool)
    (h : maximum ≤ removed ∨ shard.expiryTurn now = none) :
    shard.removeExpiredLoop now maximum removed exact = (shard, removed, exact) := by
  rw [removeExpiredLoop]
  split
  · rename_i hlt
    rcases h with h | h
    · omega
    · split
      · rfl
      · rename_i hturn
        rw [h] at hturn
        cases hturn
      · rename_i hturn
        rw [h] at hturn
        cases hturn
  · rfl

theorem removeExpiredLoop_turn {shard' : SessionShard} (exact : Bool) (hlt : removed < maximum)
    (h : shard.expiryTurn now = some (shard', true)) :
    shard.removeExpiredLoop now maximum removed exact = shard'.removeExpiredLoop now maximum (removed + 1) exact := by
  rw [removeExpiredLoop, if_pos hlt]
  split
  · rename_i hturn
    rw [h] at hturn
    cases hturn
  · rename_i hturn
    rw [h] at hturn
    cases hturn
    rfl
  · rename_i hturn
    rw [h] at hturn
    cases hturn

theorem removeExpiredLoop_spec (exact : Bool) (h : shard.Exact) (hle : removed ≤ maximum) :
    ∃ shard' n, shard.removeExpiredLoop now maximum removed exact = (shard', removed + n, exact) ∧
      Swept shard shard' now (maximum - removed) n := by
  -- the index gets smaller with every turn
  induction hcard : shard.expiry.card using Nat.strong_induction_on generalizing shard removed with
  | _ k ih =>
    have hbreak : (maximum ≤ removed ∨ shard.expiryTurn now = none) → ∃ shard' n,
        shard.removeExpiredLoop now maximum removed exact = (shard', removed + n, exact) ∧
          Swept shard shard' now (maximum - removed) n := by
      intro hb
      refine ⟨shard, 0, removeExpiredLoop_break exact hb, h, fun _ => Or.inl rfl, rfl, Nat.zero_le _, fun hlt id => ?_,
        fun _ => rfl⟩
      rcases hb with hb | hb
      · omega
      · exact h.expiryTurn_none hb id
    rcases Nat.lt_or_ge removed maximum with hlt | hge
    · cases hturn : shard.expiryTurn now with
      | none => exact hbreak (Or.inr hturn)
      | some result =>
        obtain ⟨shard₁, agreed⟩ := result
        obtain ⟨rfl, id, entry, hentry, hnow, hshard⟩ := h.expiryTurn_some hturn
        have hexact : shard₁.Exact := hshard ▸ h.erase hentry
        obtain ⟨shard', n, hloop, hswept⟩ := ih _ (hcard ▸ expiryTurn_card_lt hturn) hexact hlt rfl
        refine ⟨shard', n + 1, ?_, ?_⟩
        · rw [removeExpiredLoop_turn exact hlt hturn, hloop, Nat.succ_add_eq_add_succ]
        · rw [show maximum - removed = maximum - (removed + 1) + 1 by omega]
          exact hswept.cons hentry hnow hshard
    · exact hbreak (Or.inl hge)

theorem removeExpiredEntries_spec (h : shard.Exact) (now maximum : ℕ) :
    ∃ shard' n, shard.removeExpiredEntries now maximum = (shard', n, true) ∧ Swept shard shard' now maximum n := by
  obtain ⟨shard', n, hloop, hswept⟩ := @removeExpiredLoop_spec shard now maximum 0 true h (Nat.zero_le _)
  rw [Nat.zero_add] at hloop
  exact ⟨shard', n, hloop, hswept⟩

/-! ## What the other functions do -/

theorem renew_snd (sessionId : String) (expiresAt : ℕ) :
    (shard.renew sessionId expiresAt).2 = (shard.entries.lookup sessionId).isSome := by
  unfold SessionShard.renew
  split <;> rename_i h <;> rw [h] <;> rfl

theorem lookup_renew (expiresAt : ℕ) (id : String) : (shard.renew sessionId expiresAt).1.entries.lookup id =
    if id = sessionId then (shard.entries.lookup id).map fun entry => { entry with expiresAt := expiresAt }
    else shard.entries.lookup id := by
  unfold SessionShard.renew
  split
  · rename_i h
    split
    · rename_i heq
      rw [heq, h]
      rfl
    · rfl
  · rename_i entry h
    split
    · rename_i heq
      rw [heq, h]
      exact Finmap.lookup_insert _
    · rename_i hne
      exact Finmap.lookup_insert_of_ne _ hne

theorem lookup_insertEntry (entry : SessionEntry) (id : String) :
    (shard.insertEntry sessionId entry).1.entries.lookup id =
      if id = sessionId then some entry else shard.entries.lookup id := by
  by_cases hid : id = sessionId
  · subst hid
    rw [if_pos rfl]
    exact Finmap.lookup_insert _
  · rw [if_neg hid]
    exact Finmap.lookup_insert_of_ne _ hid

theorem removeEntry_snd (sessionId : String) : (shard.removeEntry sessionId).2 = shard.entries.lookup sessionId := by
  unfold SessionShard.removeEntry
  split <;> rename_i h <;> rw [h]

theorem lookup_removeEntry (id : String) : (shard.removeEntry sessionId).1.entries.lookup id =
    if id = sessionId then none else shard.entries.lookup id := by
  unfold SessionShard.removeEntry
  split
  · rename_i h
    split
    · rename_i heq
      rw [heq, h]
    · rfl
  · split
    · rename_i heq
      rw [heq]
      exact Finmap.lookup_erase _ _
    · rename_i hne
      exact Finmap.lookup_erase_ne hne

end SessionShard

end RustRest
