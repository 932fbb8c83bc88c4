import RustRest.Lib.Threads
import RustRest.Session.Shard

/-!
# The session store

The operations of `SessionStore` are programs of atomic actions: the section under the lock of a shard with what it does
to the counter, an access to the counter outside of a lock, and the taking and giving back of the maintenance lock. The
sections of one operation and of others can be interleaved, or an operation runs alone.
-/

namespace RustRest

open FiniteMap Threads Threads.Prog

/-! ## The store -/

def sessionStoreShards : ℕ := 16

instance : NeZero sessionStoreShards := ⟨by decide⟩

/-- A second, in the unit of instants. -/
def second : ℕ := 1000000000

def storeCleanupInterval : ℕ := 60 * second

def rotationRecordTtl : ℕ := 60 * second

def storeCleanupBatch : ℕ := 256

structure SessionsConfig where
  idleTimeout : ℕ
  maxSessions : ℕ
  limits : SessionDataLimits
  maxInstant : ℕ
  shardIndex : String → Fin sessionStoreShards
  idOf : ℕ → ℕ → String
  idleTimeout_pos : 0 < idleTimeout
  maxSessions_pos : 0 < maxSessions
  maxSessions_le : maxSessions ≤ usizeMax

namespace SessionsConfig

variable (cfg : SessionsConfig)

/-- `now.checked_add(duration).unwrap_or(now)`. -/
def after (now duration : ℕ) : ℕ := if now + duration ≤ cfg.maxInstant then now + duration else now

def expiry (now : ℕ) : ℕ := cfg.after now cfg.idleTimeout

end SessionsConfig

def wrappingSub (a b : ℕ) : ℕ := if b ≤ a then a - b else usizeMax + 1 - (b - a)

def wrappingAdd (a b : ℕ) : ℕ := if a + b ≤ usizeMax then a + b else a + b - (usizeMax + 1)

/-- What the maintenance lock protects. -/
structure StoreMaintenance where
  nextCleanup : ℕ
  cleanupShard : Fin sessionStoreShards
  deriving DecidableEq

/-- `SessionStore`, with the maintenance lock, the static `SESSION_COUNTER`, and a record of whether the counter of
entries ever wrapped around and whether the assertion on the index was ever reached. -/
structure SessionStore where
  shards : Fin sessionStoreShards → SessionShard
  entries : ℕ
  maintenance : StoreMaintenance
  locked : Bool
  rotations : Map String (String × ℕ)
  sessionCounter : ℕ
  wrapped : Bool
  inexact : Bool

namespace SessionStore

def new (now sessionCounter : ℕ) : SessionStore where
  shards _ := .empty
  entries := 0
  maintenance := ⟨now + storeCleanupInterval, 0⟩
  locked := false
  rotations := ∅
  sessionCounter := sessionCounter
  wrapped := false
  inexact := false

def setShard (s : SessionStore) (index : Fin sessionStoreShards) (shard : SessionShard) : SessionStore :=
  { s with shards := Function.update s.shards index shard }

/-- `fetch_sub` on the counter. -/
def fetchSub (s : SessionStore) (n : ℕ) : SessionStore :=
  { s with entries := wrappingSub s.entries n, wrapped := s.wrapped || s.entries < n }

/-- `fetch_add` of one on the counter. -/
def fetchAdd (s : SessionStore) : SessionStore :=
  { s with entries := wrappingAdd s.entries 1, wrapped := s.wrapped || usizeMax < s.entries + 1 }

section Sections

variable (cfg : SessionsConfig) (s : SessionStore)

/-- The shard of an id. -/
def shardOf (sessionId : String) : SessionShard := s.shards (cfg.shardIndex sessionId)

def touch (sessionId : String) (now : ℕ) : Bool × SessionStore :=
  let shard := s.shardOf cfg sessionId
  if shard.isExpired sessionId now then
    (false, (s.setShard (cfg.shardIndex sessionId) (shard.removeEntry sessionId).1).fetchSub 1)
  else
    let (shard, renewed) := shard.renew sessionId (cfg.expiry now)
    (renewed, s.setShard (cfg.shardIndex sessionId) shard)

/-- The section of `SessionStore::get`. -/
def getSection (sessionId key : String) (now : ℕ) : Option String × SessionStore :=
  let (alive, s) := s.touch cfg sessionId now
  if alive then (((s.shardOf cfg sessionId).entries.lookup sessionId).bind fun entry => entry.data.lookup key, s)
  else (none, s)

/-- The section of `SessionStore::remove`. -/
def removeSection (sessionId key : String) (now : ℕ) : SessionStore :=
  let (alive, s) := s.touch cfg sessionId now
  match alive, (s.shardOf cfg sessionId).entries.lookup sessionId with
  | true, some entry =>
    let shard := s.shardOf cfg sessionId
    s.setShard (cfg.shardIndex sessionId)
      { shard with entries := shard.entries.insert sessionId { entry with data := entry.data.erase key } }
  | _, _ => s

/-- The last section of `SessionStore::set`. -/
def writeSection (sessionId key value : String) (now : ℕ) : Except SessionDataError Unit × SessionStore :=
  let shard := s.shardOf cfg sessionId
  if shard.isExpired sessionId now then
    (.error ⟨.sessionUnavailable, none⟩,
      (s.setShard (cfg.shardIndex sessionId) (shard.removeEntry sessionId).1).fetchSub 1)
  else match shard.entries.lookup sessionId with
    | none => (.error ⟨.sessionUnavailable, none⟩, s)
    | some entry => match writeValue cfg.limits key value entry.data with
      | .error error => (.error error, s)
      | .ok data => (.ok (), s.setShard (cfg.shardIndex sessionId)
          { shard with entries := shard.entries.insert sessionId { entry with data := data } })

def probeSection (sessionId : String) (now : ℕ) : Bool × SessionStore :=
  let shard := s.shardOf cfg sessionId
  let s := if shard.isExpired sessionId now then
      (s.setShard (cfg.shardIndex sessionId) (shard.removeEntry sessionId).1).fetchSub 1
    else s
  let (shard, renewed) := (s.shardOf cfg sessionId).renew sessionId (cfg.expiry now)
  (renewed, s.setShard (cfg.shardIndex sessionId) shard)

/-- The last section of `SessionStore::create`. -/
def admitSection (sessionId : String) (now : ℕ) : SessionStore :=
  let (shard, added) := (s.shardOf cfg sessionId).insertEntry sessionId ⟨∅, cfg.expiry now⟩
  let s := s.setShard (cfg.shardIndex sessionId) shard
  if added then s.fetchAdd else s

/-- The second section of `SessionStore::rotate`. -/
def moveSection (sessionId : String) (entry : SessionEntry) : SessionStore :=
  let (shard, added) := (s.shardOf cfg sessionId).insertEntry sessionId entry
  let s := s.setShard (cfg.shardIndex sessionId) shard
  if added then s else s.fetchSub 1

def takeSection (sessionId : String) : Option SessionEntry × SessionStore :=
  let (shard, entry) := (s.shardOf cfg sessionId).removeEntry sessionId
  (entry, s.setShard (cfg.shardIndex sessionId) shard)

def sweepSection (index : Fin sessionStoreShards) (now maximum : ℕ) : ℕ × SessionStore :=
  let (shard, removed, exact) := (s.shards index).removeExpiredEntries now maximum
  (removed, { s.setShard index shard with inexact := s.inexact || !exact })

/-- `record_rotation`: expired records go, then room is checked. -/
def recordRotation (oldId newId : String) (now : ℕ) : SessionStore :=
  let rotations := retain (fun _ record => now - record.2 < rotationRecordTtl) s.rotations
  if rotations.keys.card < cfg.maxSessions then { s with rotations := rotations.insert oldId (newId, now) }
  else { s with rotations := rotations }

/-- The record of an id is taken out of the table. -/
def takeRotation (oldId : String) : Option String × SessionStore :=
  ((s.rotations.lookup oldId).map Prod.fst, { s with rotations := s.rotations.erase oldId })

end Sections

end SessionStore

/-! ## Actions -/

/-- The atomic actions of the store. -/
inductive StoreAction : Type → Type where
  | clock : StoreAction ℕ
  | resume (sessionId : String) (now : ℕ) : StoreAction Bool
  | get (sessionId key : String) (now : ℕ) : StoreAction (Option String)
  | remove (sessionId key : String) (now : ℕ) : StoreAction Unit
  | write (sessionId key value : String) : StoreAction (Except SessionDataError Unit)
  | probe (sessionId : String) (now : ℕ) : StoreAction Bool
  | admitSession (sessionId : String) (now : ℕ) : StoreAction Unit
  | move (sessionId : String) (entry : SessionEntry) : StoreAction Unit
  | take (sessionId : String) : StoreAction (Option SessionEntry)
  | sweep (index : Fin sessionStoreShards) (now maximum : ℕ) : StoreAction ℕ
  | fetchSub (n : ℕ) : StoreAction Unit
  | load : StoreAction ℕ
  | lock : StoreAction StoreMaintenance
  | unlock (maintenance : StoreMaintenance) : StoreAction Unit
  | recordRotation (oldId newId : String) (now : ℕ) : StoreAction Unit
  | takeRotation (oldId : String) : StoreAction (Option String)
  | generateId : StoreAction String

def StoreAction.exec (cfg : SessionsConfig) : {β : Type} → StoreAction β → ℕ → SessionStore → Option (β × SessionStore)
  | _, .clock, now, s => some (now, s)
  | _, .resume id t, _, s => some (s.touch cfg id t)
  | _, .get id key t, _, s => some (s.getSection cfg id key t)
  | _, .remove id key t, _, s => some ((), s.removeSection cfg id key t)
  | _, .write id key value, now, s => some (s.writeSection cfg id key value now)
  | _, .probe id t, _, s => some (s.probeSection cfg id t)
  | _, .admitSession id t, _, s => some ((), s.admitSection cfg id t)
  | _, .move id entry, _, s => some ((), s.moveSection cfg id entry)
  | _, .take id, _, s => some (s.takeSection cfg id)
  | _, .sweep index t maximum, _, s => some (s.sweepSection index t maximum)
  | _, .fetchSub n, _, s => some ((), s.fetchSub n)
  | _, .load, _, s => some (s.entries, s)
  | _, .lock, _, s => if s.locked then none else some (s.maintenance, { s with locked := true })
  | _, .unlock m, _, s => some ((), { s with maintenance := m, locked := false })
  | _, .recordRotation old new t, _, s => some ((), s.recordRotation cfg old new t)
  | _, .takeRotation old, _, s => some (s.takeRotation old)
  | _, .generateId, now, s => some (cfg.idOf now s.sessionCounter, { s with sessionCounter := s.sessionCounter + 1 })

def storeMachine (cfg : SessionsConfig) (L : Type) : Machine StoreAction L ℕ SessionStore where
  exec a _ now s := a.exec cfg now s

/-! ## Operations -/

namespace SessionStore

variable (cfg : SessionsConfig)

/-- A live session is touched; `false` if there is none. -/
def resume (sessionId : String) : Prog StoreAction Bool := do
  let now ← perform .clock
  perform (.resume sessionId now)

def cleanupShards (now : ℕ) (first : Fin sessionStoreShards) :
    List (Fin sessionStoreShards) → ℕ → ℕ → Prog StoreAction (ℕ × Option (Fin sessionStoreShards))
  | [], _, removed => pure (removed, none)
  | visited :: rest, remaining, removed => do
    let shardRemoved ← perform (.sweep (first + visited) now remaining)
    if remaining - shardRemoved = 0 then pure (removed + shardRemoved, some (first + visited))
    else cleanupShards now first rest (remaining - shardRemoved) (removed + shardRemoved)

/-- `if removed > 0 { fetch_sub(removed) }`. -/
def countOff (removed : ℕ) : Prog StoreAction Unit :=
  if removed > 0 then perform (.fetchSub removed) else pure ()

def afterBatch (now : ℕ) (maintenance : StoreMaintenance) : Option (Fin sessionStoreShards) → StoreMaintenance
  | some index => ⟨now, index⟩
  | none => ⟨cfg.after now storeCleanupInterval, maintenance.cleanupShard + 1⟩

/-- Some expired entries of the next shards. -/
def cleanupExpiredBatch (now : ℕ) (maintenance : StoreMaintenance) : Prog StoreAction StoreMaintenance := do
  let result ← cleanupShards now maintenance.cleanupShard (List.finRange sessionStoreShards) storeCleanupBatch 0
  countOff result.1
  pure (afterBatch cfg now maintenance result.2)

/-- A batch, if the interval is over. -/
def cleanupIfNeeded (now : ℕ) (maintenance : StoreMaintenance) : Prog StoreAction (Bool × StoreMaintenance) :=
  if now < maintenance.nextCleanup then pure (false, maintenance)
  else do
    let maintenance ← cleanupExpiredBatch cfg now maintenance
    pure (true, maintenance)

def cleanupIfFull (now entries : ℕ) (attempted : Bool) (maintenance : StoreMaintenance) :
    Prog StoreAction StoreMaintenance :=
  if entries ≥ cfg.maxSessions ∧ attempted = false then cleanupExpiredBatch cfg now maintenance else pure maintenance

def admitUnlessFull (sessionId : String) (now entries : ℕ) (maintenance : StoreMaintenance) : Prog StoreAction Bool :=
  if entries ≥ cfg.maxSessions then do
    perform (.unlock maintenance)
    pure false
  else do
    perform (.admitSession sessionId now)
    perform (.unlock maintenance)
    pure true

def createMissing (sessionId : String) (now : ℕ) (maintenance : StoreMaintenance) : Prog StoreAction Bool := do
  let result ← cleanupIfNeeded cfg now maintenance
  let entries ← perform .load
  let maintenance ← cleanupIfFull cfg now entries result.1 result.2
  let entries ← perform .load
  admitUnlessFull cfg sessionId now entries maintenance

/-- A live session is renewed; else one is made, if there is room. -/
def create (sessionId : String) : Prog StoreAction Bool := do
  let now ← perform .clock
  let maintenance ← perform .lock
  let renewed ← perform (.probe sessionId now)
  if renewed then do
    perform (.unlock maintenance)
    pure true
  else createMissing cfg sessionId now maintenance

/-- A value of a live session. -/
def get (sessionId key : String) : Prog StoreAction (Option String) := do
  let now ← perform .clock
  perform (.get sessionId key now)

def writeIf (available : Bool) (sessionId key value : String) : Prog StoreAction (Except SessionDataError Unit) :=
  if available then perform (.write sessionId key value) else pure (.error ⟨.sessionUnavailable, none⟩)

/-- `resume(session_id) || create(session_id)`. -/
def resumeOrCreate (sessionId : String) : Prog StoreAction Bool := do
  let resumed ← resume sessionId
  if resumed then pure true else create cfg sessionId

/-- A value is written; a missing session is created. -/
def set (sessionId key value : String) : Prog StoreAction (Except SessionDataError Unit) :=
  match validateSessionValue key value cfg.limits with
  | .error error => pure (.error error)
  | .ok () => do
    let available ← resumeOrCreate cfg sessionId
    writeIf available sessionId key value

/-- A value is removed. -/
def remove (sessionId key : String) : Prog StoreAction Unit := do
  let now ← perform .clock
  perform (.remove sessionId key now)

/-- `SessionStore::clear`. The counter is updated after the lock was given back. -/
def clear (sessionId : String) : Prog StoreAction Unit := do
  let entry ← perform (.take sessionId)
  if entry.isSome then perform (.fetchSub 1) else pure ()

def moveTo (newId : String) (now : ℕ) : Option SessionEntry → Prog StoreAction Bool
  | none => pure false
  | some entry =>
    if entry.expiresAt ≤ now then do
      perform (.fetchSub 1)
      pure false
    else do
      perform (.move newId ⟨entry.data, cfg.expiry now⟩)
      pure true

/-- The entry of one id moves to another. -/
def rotate (oldId newId : String) : Prog StoreAction Bool := do
  let now ← perform .clock
  let entry ← perform (.take oldId)
  moveTo cfg newId now entry

/-- The loop of `SessionStore::live_len`. -/
def sweepShards (now : ℕ) : List (Fin sessionStoreShards) → ℕ → Prog StoreAction ℕ
  | [], removed => pure removed
  | index :: rest, removed => do
    let shardRemoved ← perform (.sweep index now usizeMax)
    sweepShards now rest (removed + shardRemoved)

/-- The number of sessions, once the expired ones are swept. -/
def liveLen : Prog StoreAction ℕ := do
  let now ← perform .clock
  let removed ← sweepShards now (List.finRange sessionStoreShards) 0
  countOff removed
  perform .load

end SessionStore

inductive SessionOp where
  | get (sessionId key : String)
  | set (sessionId key value : String)
  | remove (sessionId key : String)
  | clear (sessionId : String)
  | rotate (oldId newId : String)
  | create (sessionId : String)
  | resume (sessionId : String)
  | liveLen
  deriving DecidableEq

inductive SessionResult where
  | value (value : Option String)
  | written (result : Except SessionDataError Unit)
  | unit
  | flag (answer : Bool)
  | count (n : ℕ)
  deriving DecidableEq

def SessionOp.prog (cfg : SessionsConfig) : SessionOp → Prog StoreAction SessionResult
  | get id key => .value <$> SessionStore.get id key
  | set id key value => .written <$> SessionStore.set cfg id key value
  | remove id key => (fun _ => .unit) <$> SessionStore.remove id key
  | clear id => (fun _ => .unit) <$> SessionStore.clear id
  | rotate old new => .flag <$> SessionStore.rotate cfg old new
  | create id => .flag <$> SessionStore.create cfg id
  | resume id => .flag <$> SessionStore.resume id
  | liveLen => .count <$> SessionStore.liveLen

def smallConfig : SessionsConfig where
  idleTimeout := 10
  maxSessions := 2
  limits := ⟨4, 16, 16, 64⟩
  maxInstant := 10 ^ 18
  shardIndex _ := 0
  idOf _ count := String.ofList (List.replicate count 'x')
  idleTimeout_pos := by decide
  maxSessions_pos := by decide
  maxSessions_le := by decide

end RustRest
