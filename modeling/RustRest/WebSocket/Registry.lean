import RustRest.Lib.FiniteMap
import RustRest.Text

/-!
# The WebSocket registry

The process-local registry of `websocket/runtime.rs`: the admitted connections, the counts by route and by address, the
index of rooms, and the counters. Each method holds the lock of the registry from beginning to end, so that it is one
step on the state.
-/

namespace RustRest

open FiniteMap

/-! ## Data -/

inductive IpAddr where
  | v4 (bits : BitVec 32)
  | v6 (bits : BitVec 128)
  deriving DecidableEq

structure SocketAddr where
  ip : IpAddr
  port : UInt16
  deriving DecidableEq

inductive WebSocketLifecycleState where
  | connecting
  | opened
  | closing
  deriving DecidableEq

/-- What a route has configured for its WebSockets, as far as the registry reads it. -/
structure ResolvedWebSocketConfig where
  processMaxConnections : Option ℕ
  routeMaxConnections : Option ℕ
  maxConnectionsPerIp : Option ℕ
  closeTimeout : ℕ
  maxRoomsPerConnection : ℕ
  maxRoomNameBytes : ℕ
  deriving DecidableEq

/-- The limits of rooms, and the node in the cluster. -/
structure RuntimeHubConfig where
  maxRoomsPerConnection : ℕ
  maxRoomNameBytes : ℕ
  hasBroker : Bool
  nodeId : ℕ
  deriving DecidableEq

/-- `ConnectionEntry`. The queues of a connection and the tasks that drive it are given by numbers. -/
structure ConnectionEntry where
  route : String
  remoteAddr : Option SocketAddr
  closeTimeout : ℕ
  maxRoomsPerConnection : ℕ
  maxRoomNameBytes : ℕ
  rooms : Finset String
  lifecycle : WebSocketLifecycleState
  internalSender : Option ℕ
  driverAbort : Option ℕ
  forcedShutdownObserved : Bool
  deriving DecidableEq

/-- Counters of 64 bits in the source, here without a bound: what is said of them is said of fewer than `2 ^ 64` events. -/
structure WebSocketCounters where
  acceptedConnections : ℕ
  rejectedConnections : ℕ
  closedConnections : ℕ
  roomJoins : ℕ
  roomLeaves : ℕ
  brokerErrors : ℕ
  deriving DecidableEq

abbrev RoomIndex := Map (String × String) (Finset ℕ)

/-- What the lock of the runtime protects. -/
structure Registry where
  accepting : Bool
  connections : Map ℕ ConnectionEntry
  routeCounts : Map String ℕ
  ipCounts : Map IpAddr ℕ
  rooms : RoomIndex
  seenPublications : Finset (ℕ × ℕ)
  seenPublicationOrder : List (ℕ × ℕ)
  counters : WebSocketCounters

/-- The registry, and what stands outside its lock. `nextId` is an atomic counter of 64 bits, here without a bound: the
`2 ^ 64`-th connection of a process would be given the number of the first. -/
structure WsRuntime extends Registry where
  nextId : ℕ
  shutdown : Bool
  aborted : Finset ℕ

/-- Why a connection is refused. -/
inductive AdmissionError where
  | shutdown
  | processCapacity
  | routeCapacity
  | ipCapacity
  deriving DecidableEq

/-- `WsError`, as far as the registry returns it. -/
inductive WsError where
  | invalidClose (code : ℕ) (reason : String)
  | invalidRoom (room : String)
  | roomLimit
  | connectionNotFound (id : ℕ)
  deriving DecidableEq

/-! ## Counts and rooms -/

def saturatingAdd (a b : ℕ) : ℕ := min (a + b) (2 ^ 64 - 1)

section Counts

variable {K : Type} [DecidableEq K]

/-- `*counts.entry(key).or_default() += 1`. -/
def incrementCount (counts : Map K ℕ) (key : K) : Map K ℕ := counts.insert key ((counts.lookup key).getD 0 + 1)

/-- A count goes when it comes to 0. -/
def decrementCount (counts : Map K ℕ) (key : K) : Map K ℕ :=
  match counts.lookup key with
  | none => counts
  | some count => if count - 1 = 0 then counts.erase key else counts.insert key (count - 1)

end Counts

def isUnusableName (maxBytes : ℕ) (name : String) : Bool :=
  name.isEmpty || name.toList.contains '\x00' || (utf8 name).length > maxBytes

def validateRoom (maxRoomNameBytes : ℕ) (room : String) : Except WsError Unit :=
  if isUnusableName maxRoomNameBytes room then .error (.invalidRoom room) else .ok ()

def addRoomMembership (route : String) (id : ℕ) (index : RoomIndex) (room : String) : RoomIndex :=
  index.insert (route, room) (insert id ((index.lookup (route, room)).getD ∅))

def removeRoomMembership (route : String) (id : ℕ) (index : RoomIndex) (room : String) : RoomIndex :=
  match index.lookup (route, room) with
  | none => index
  | some members =>
    if members.erase id = ∅ then index.erase (route, room) else index.insert (route, room) (members.erase id)

/-- A connection leaves rooms, which go when empty. -/
def removeRoomMemberships (index : RoomIndex) (route : String) (id : ℕ) (rooms : List String) : RoomIndex :=
  rooms.foldl (removeRoomMembership route id) index

/-- The code may be sent, the reason fits the frame. -/
def validateClose (code : ℕ) (reason : String) : Except WsError Unit :=
  if ¬(code ∈ [1000, 1001, 1002, 1003, 1007, 1008, 1009, 1010, 1011, 1012, 1013] ∨ 3000 ≤ code ∧ code ≤ 4999) then
    .error (.invalidClose code "codigo de cierre reservado o no asignado")
  else if (utf8 reason).length > 123 then .error (.invalidClose code "la razon de cierre supera 123 bytes UTF-8")
  else .ok ()

/-! ## Methods -/

namespace WsRuntime

def new : WsRuntime where
  accepting := true
  connections := ∅
  routeCounts := ∅
  ipCounts := ∅
  rooms := ∅
  seenPublications := ∅
  seenPublicationOrder := []
  counters := ⟨0, 0, 0, 0, 0, 0⟩
  nextId := 1
  shutdown := false
  aborted := ∅

variable (s : WsRuntime)

def rejection (route : String) (remoteIp : Option IpAddr) (config : ResolvedWebSocketConfig) : Option AdmissionError :=
  if !s.accepting then some .shutdown
  else if config.processMaxConnections.any fun limit => s.connections.keys.card ≥ limit then some .processCapacity
  else if config.routeMaxConnections.any fun limit => (s.routeCounts.lookup route).getD 0 ≥ limit then
    some .routeCapacity
  else if remoteIp.any fun ip => config.maxConnectionsPerIp.any fun limit => (s.ipCounts.lookup ip).getD 0 ≥ limit then
    some .ipCapacity
  else none

def newEntry (hub : RuntimeHubConfig) (route : String) (remoteAddr : Option SocketAddr)
    (config : ResolvedWebSocketConfig) : ConnectionEntry where
  route := route
  remoteAddr := remoteAddr
  closeTimeout := config.closeTimeout
  maxRoomsPerConnection := min config.maxRoomsPerConnection hub.maxRoomsPerConnection
  maxRoomNameBytes := min config.maxRoomNameBytes hub.maxRoomNameBytes
  rooms := ∅
  lifecycle := .connecting
  internalSender := none
  driverAbort := none
  forcedShutdownObserved := false

/-- The registry after a connection was admitted. -/
def accept (hub : RuntimeHubConfig) (route : String) (remoteAddr : Option SocketAddr)
    (config : ResolvedWebSocketConfig) : WsRuntime :=
  { s with
    nextId := s.nextId + 1
    connections := s.connections.insert s.nextId (newEntry hub route remoteAddr config)
    routeCounts := incrementCount s.routeCounts route
    ipCounts := match remoteAddr with
      | some addr => incrementCount s.ipCounts addr.ip
      | none => s.ipCounts
    counters := { s.counters with acceptedConnections := s.counters.acceptedConnections + 1 } }

/-- `admit`. -/
def admitConnection (hub : RuntimeHubConfig) (route : String) (remoteAddr : Option SocketAddr)
    (config : ResolvedWebSocketConfig) : Except AdmissionError ℕ × WsRuntime :=
  match s.rejection route (remoteAddr.map SocketAddr.ip) config with
  | some error => (.error error,
      { s with counters := { s.counters with rejectedConnections := s.counters.rejectedConnections + 1 } })
  | none => (.ok s.nextId, s.accept hub route remoteAddr config)

def putEntry (id : ℕ) (entry : ConnectionEntry) : WsRuntime := { s with connections := s.connections.insert id entry }

/-- The driver of a connection that is still there. -/
def registerDriver (id sender abort : ℕ) : Bool × WsRuntime :=
  match s.connections.lookup id with
  | none => (false, s)
  | some entry => (true, s.putEntry id { entry with internalSender := some sender, driverAbort := some abort })

def registerUpgradeTask (id abort : ℕ) : Bool × WsRuntime :=
  match s.connections.lookup id with
  | none => (false, s)
  | some entry =>
    if entry.driverAbort.isSome then (false, s) else (true, s.putEntry id { entry with driverAbort := some abort })

def joinRooms (id : ℕ) (entry : ConnectionEntry) (additions : Finset String) : WsRuntime :=
  { s.putEntry id { entry with rooms := entry.rooms ∪ additions } with
    rooms := (ascending additions).foldl (addRoomMembership entry.route id) s.rooms
    counters := { s.counters with roomJoins := saturatingAdd s.counters.roomJoins additions.card } }

/-- All of the rooms are joined, or none. -/
def join (id : ℕ) (rooms : List String) : Except WsError Unit × WsRuntime :=
  match s.connections.lookup id with
  | none => (.error (.connectionNotFound id), s)
  | some entry =>
    match (ascending rooms.toFinset).forM (validateRoom entry.maxRoomNameBytes) with
    | .error error => (.error error, s)
    | .ok _ =>
      let additions := rooms.toFinset \ entry.rooms
      if entry.rooms.card + additions.card > entry.maxRoomsPerConnection then (.error .roomLimit, s)
      else (.ok (), s.joinRooms id entry additions)

def leaveRooms (id : ℕ) (entry : ConnectionEntry) (removals : Finset String) : WsRuntime :=
  { s.putEntry id { entry with rooms := entry.rooms \ removals } with
    rooms := removeRoomMemberships s.rooms entry.route id (ascending removals)
    counters := { s.counters with roomLeaves := saturatingAdd s.counters.roomLeaves removals.card } }

/-- Those of the rooms that it is in are left. -/
def leave (id : ℕ) (rooms : List String) : Except WsError Unit × WsRuntime :=
  match s.connections.lookup id with
  | none => (.error (.connectionNotFound id), s)
  | some entry => (.ok (), s.leaveRooms id entry (rooms.toFinset ∩ entry.rooms))

/-- All rooms are left. -/
def leaveAll (id : ℕ) : Except WsError Unit × WsRuntime :=
  match s.connections.lookup id with
  | none => (.error (.connectionNotFound id), s)
  | some entry => (.ok (), s.leaveRooms id entry entry.rooms)

def setLifecycle (id : ℕ) (lifecycle : WebSocketLifecycleState) : WsRuntime :=
  match s.connections.lookup id with
  | none => s
  | some entry => s.putEntry id { entry with lifecycle := lifecycle }

/-- Opened, whatever it was before. -/
def recordOpened (id : ℕ) : WsRuntime := s.setLifecycle id .opened

/-- Closing, whatever it was before. -/
def recordClosing (id : ℕ) : WsRuntime := s.setLifecycle id .closing

/-- `close`, up to where it waits for the driver, and the time it waits. -/
def close (id code : ℕ) (reason : String) : Except WsError ℕ × WsRuntime :=
  match validateClose code reason with
  | .error error => (.error error, s)
  | .ok _ =>
    match s.connections.lookup id with
    | none => (.error (.connectionNotFound id), s)
    | some entry => (.ok entry.closeTimeout, s.putEntry id { entry with lifecycle := .closing })

/-- No admission any more, and all connections are closing. -/
def beginShutdown : WsRuntime :=
  { s with
    accepting := false
    connections := mapValues (fun entry => { entry with lifecycle := .closing }) s.connections
    shutdown := true }

/-- The drivers that are left are aborted, once. -/
def abortRemaining : WsRuntime :=
  let due := holders (fun entry => entry.driverAbort.isSome && !entry.forcedShutdownObserved) s.connections
  { s with
    connections := mapValues
      (fun entry => if entry.driverAbort.isSome then { entry with forcedShutdownObserved := true } else entry)
      s.connections
    aborted := s.aborted ∪ due.biUnion fun id => ((s.connections.lookup id).bind ConnectionEntry.driverAbort).toFinset }

/-- The registry after a connection was removed. -/
def releaseEntry (id : ℕ) (entry : ConnectionEntry) : WsRuntime :=
  { s with
    connections := s.connections.erase id
    routeCounts := decrementCount s.routeCounts entry.route
    ipCounts := match entry.remoteAddr with
      | some addr => decrementCount s.ipCounts addr.ip
      | none => s.ipCounts
    rooms := removeRoomMemberships s.rooms entry.route id (ascending entry.rooms)
    counters := { s.counters with
      roomLeaves := saturatingAdd s.counters.roomLeaves entry.rooms.card
      closedConnections := s.counters.closedConnections + 1 } }

/-- A connection ends: it leaves all indices. -/
def release (id : ℕ) : WsRuntime :=
  match s.connections.lookup id with
  | none => s
  | some entry => s.releaseEntry id entry

end WsRuntime

/-! ## Calls -/

/-- A call of a method. -/
inductive RegistryCall where
  | admitConnection (route : String) (remoteAddr : Option SocketAddr) (config : ResolvedWebSocketConfig)
  | registerDriver (id sender abort : ℕ)
  | registerUpgradeTask (id abort : ℕ)
  | join (id : ℕ) (rooms : List String)
  | leave (id : ℕ) (rooms : List String)
  | leaveAll (id : ℕ)
  | recordOpened (id : ℕ)
  | recordClosing (id : ℕ)
  | close (id code : ℕ) (reason : String)
  | beginShutdown
  | abortRemaining
  | release (id : ℕ)
  deriving DecidableEq

def RegistryCall.isAdmit : RegistryCall → Bool
  | .admitConnection _ _ _ => true
  | _ => false

/-- What a call does. -/
def WsRuntime.call (hub : RuntimeHubConfig) (s : WsRuntime) : RegistryCall → WsRuntime
  | .admitConnection route remoteAddr config => (s.admitConnection hub route remoteAddr config).2
  | .registerDriver id sender abort => (s.registerDriver id sender abort).2
  | .registerUpgradeTask id abort => (s.registerUpgradeTask id abort).2
  | .join id rooms => (s.join id rooms).2
  | .leave id rooms => (s.leave id rooms).2
  | .leaveAll id => (s.leaveAll id).2
  | .recordOpened id => s.recordOpened id
  | .recordClosing id => s.recordClosing id
  | .close id code reason => (s.close id code reason).2
  | .beginShutdown => s.beginShutdown
  | .abortRemaining => s.abortRemaining
  | .release id => s.release id

/-- The state after calls one after the other. -/
def WsRuntime.calls (hub : RuntimeHubConfig) (s : WsRuntime) (calls : List RegistryCall) : WsRuntime :=
  calls.foldl (WsRuntime.call hub) s

/-! ## What a call can do -/

/-- What the indices read of an entry. -/
def ConnectionEntry.indexed (entry : ConnectionEntry) : String × Option SocketAddr × Finset String × ℕ × ℕ :=
  (entry.route, entry.remoteAddr, entry.rooms, entry.maxRoomsPerConnection, entry.maxRoomNameBytes)

inductive WsRuntime.Effect (hub : RuntimeHubConfig) (s : WsRuntime) : RegistryCall → WsRuntime → Prop where
  | unchanged {c : RegistryCall} : c.isAdmit = false → Effect hub s c s
  | rejected {route : String} {remoteAddr : Option SocketAddr} {config : ResolvedWebSocketConfig} :
      Effect hub s (.admitConnection route remoteAddr config)
        { s with counters := { s.counters with rejectedConnections := s.counters.rejectedConnections + 1 } }
  | admitted {route : String} {remoteAddr : Option SocketAddr} {config : ResolvedWebSocketConfig} :
      s.rejection route (remoteAddr.map SocketAddr.ip) config = none →
      Effect hub s (.admitConnection route remoteAddr config) (s.accept hub route remoteAddr config)
  | put {c : RegistryCall} {id : ℕ} {entry entry' : ConnectionEntry} : s.connections.lookup id = some entry →
      entry'.indexed = entry.indexed → c.isAdmit = false →
      Effect hub s c (s.putEntry id entry')
  | mapped {c : RegistryCall} {f : ConnectionEntry → ConnectionEntry} {accepting shutdown : Bool} {aborted : Finset ℕ} :
      (∀ e, (f e).indexed = e.indexed) → c.isAdmit = false →
      Effect hub s c { s with
        accepting := accepting, connections := mapValues f s.connections, shutdown := shutdown, aborted := aborted }
  | joined {id : ℕ} {entry : ConnectionEntry} {rooms : List String} : s.connections.lookup id = some entry →
      (ascending rooms.toFinset).forM (validateRoom entry.maxRoomNameBytes) = .ok () →
      entry.rooms.card + (rooms.toFinset \ entry.rooms).card ≤ entry.maxRoomsPerConnection →
      Effect hub s (.join id rooms) (s.joinRooms id entry (rooms.toFinset \ entry.rooms))
  | left {c : RegistryCall} {id : ℕ} {entry : ConnectionEntry} {removals : Finset String} :
      s.connections.lookup id = some entry → removals ⊆ entry.rooms →
      c.isAdmit = false → Effect hub s c (s.leaveRooms id entry removals)
  | released {id : ℕ} {entry : ConnectionEntry} : s.connections.lookup id = some entry →
      Effect hub s (.release id) (s.releaseEntry id entry)

theorem WsRuntime.effect_setLifecycle {hub : RuntimeHubConfig} {s : WsRuntime} {c : RegistryCall} (id : ℕ)
    (lifecycle : WebSocketLifecycleState) (hc : c.isAdmit = false) :
    s.Effect hub c (s.setLifecycle id lifecycle) := by
  unfold setLifecycle
  split
  · exact .unchanged hc
  · rename_i hentry
    exact .put hentry rfl hc

/-- **What a call can do.** -/
theorem WsRuntime.call_effect (hub : RuntimeHubConfig) (s : WsRuntime) (c : RegistryCall) :
    s.Effect hub c (s.call hub c) := by
  cases c with
  | admitConnection route remoteAddr config =>
    show Effect hub s _ (s.admitConnection hub route remoteAddr config).2
    unfold admitConnection
    split
    · exact .rejected
    · exact .admitted ‹_›
  | registerDriver id sender abort =>
    show Effect hub s _ (s.registerDriver id sender abort).2
    unfold registerDriver
    split
    · exact .unchanged rfl
    · rename_i hentry
      exact .put hentry rfl rfl
  | registerUpgradeTask id abort =>
    show Effect hub s _ (s.registerUpgradeTask id abort).2
    unfold registerUpgradeTask
    split
    · exact .unchanged rfl
    · split
      · exact .unchanged rfl
      · rename_i hentry _
        exact .put hentry rfl rfl
  | join id rooms =>
    show Effect hub s _ (s.join id rooms).2
    unfold join
    split
    · exact .unchanged rfl
    · split
      · exact .unchanged rfl
      · dsimp only
        split
        · exact .unchanged rfl
        · exact .joined ‹_› ‹_› (Nat.not_lt.1 ‹_›)
  | leave id rooms =>
    show Effect hub s _ (s.leave id rooms).2
    unfold leave
    split
    · exact .unchanged rfl
    · exact .left ‹_› Finset.inter_subset_right rfl
  | leaveAll id =>
    show Effect hub s _ (s.leaveAll id).2
    unfold leaveAll
    split
    · exact .unchanged rfl
    · exact .left ‹_› (Finset.Subset.refl _) rfl
  | recordOpened id => exact effect_setLifecycle id .opened rfl
  | recordClosing id => exact effect_setLifecycle id .closing rfl
  | close id code reason =>
    show Effect hub s _ (s.close id code reason).2
    unfold close
    split
    · exact .unchanged rfl
    · split
      · exact .unchanged rfl
      · rename_i hentry
        exact .put hentry rfl rfl
  | beginShutdown => exact .mapped (fun _ => rfl) rfl
  | abortRemaining =>
    refine .mapped (fun e => ?_) rfl
    split <;> rfl
  | release id =>
    show Effect hub s _ (s.release id)
    unfold release
    split
    · exact .unchanged rfl
    · exact .released ‹_›

end RustRest
