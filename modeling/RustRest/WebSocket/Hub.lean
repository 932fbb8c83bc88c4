import RustRest.WebSocket.Indices

/-!
# Targets and broadcasts

`websocket/hub.rs`: a target is a set of connections, by route and rooms. A broadcast goes to the connections of the
target on this node, and as a publication through a broker to the other nodes.

Main results: **`recipients_eq_scan`**, **`publication_accepted_iff`**, **`delivered_eq_local`**.
-/

namespace RustRest

open FiniteMap

/-! ## Messages -/

structure CloseFrame where
  code : ℕ
  reason : String
  deriving DecidableEq

inductive WebSocketMessage where
  | text (text : String)
  | binary (bytes : List UInt8)
  | ping (payload : List UInt8)
  | pong (payload : List UInt8)
  | close (frame : Option CloseFrame)
  | frame (raw : List UInt8)
  deriving DecidableEq

/-! ## Targets -/

/-- `WsTarget`. One by rooms always has a route. -/
structure WsTarget where
  route : Option String
  rooms : List String
  allInScope : Bool
  excluded : Finset ℕ
  publishRemote : Bool
  routed : route = none → allInScope = true

/-- The rooms of a target, without repetition. -/
def normalizeRooms (rooms : List String) : List String := ascending rooms.toFinset

def WsHub.all : WsTarget := ⟨none, [], true, ∅, true, fun _ => rfl⟩

def WsRoute.toMany (route : String) (rooms : List String) : WsTarget :=
  ⟨some route, normalizeRooms rooms, false, ∅, true, nofun⟩

def WsRoute.to (route room : String) : WsTarget := WsRoute.toMany route [room]

def WsRoute.all (route : String) : WsTarget := ⟨some route, [], true, ∅, true, nofun⟩

/-- One connection is left out. -/
def WsTarget.except (target : WsTarget) (id : ℕ) : WsTarget := { target with excluded := insert id target.excluded }

/-! ## Recipients -/

structure LocalBroadcastRecipient where
  id : ℕ
  sender : Option ℕ
  deriving DecidableEq

namespace WsRuntime

variable (s : WsRuntime)

/-- The connections in some of the rooms of a route, by the index. -/
def roomMembers (route : String) (rooms : List String) : Finset ℕ :=
  (rooms.filterMap fun room => s.rooms.lookup (route, room)).foldl (· ∪ ·) ∅

def recipients (ids excluded : Finset ℕ) : List LocalBroadcastRecipient :=
  (ascending (ids \ excluded)).map fun id => ⟨id, (s.connections.lookup id).bind ConnectionEntry.internalSender⟩

/-- The connections of a target, by the index of rooms. -/
def selectBroadcastRecipients (route : Option String) (rooms : List String) (allInScope : Bool) (excluded : Finset ℕ) :
    List LocalBroadcastRecipient :=
  if allInScope then s.recipients (holders (fun entry => route.all (entry.route = ·)) s.connections) excluded
  else match route with
    | none => []
    | some route => s.recipients (s.roomMembers route rooms) excluded

end WsRuntime

/-- What a scan of all connections looks for. -/
structure WsTarget.Matches (target : WsTarget) (entry : ConnectionEntry) : Prop where
  route : ∀ route, target.route = some route → entry.route = route
  rooms : target.allInScope = false → ∃ room ∈ target.rooms, room ∈ entry.rooms

theorem mem_foldl_union {sets : List (Finset ℕ)} {start : Finset ℕ} {id : ℕ} :
    id ∈ sets.foldl (· ∪ ·) start ↔ id ∈ start ∨ ∃ ids ∈ sets, id ∈ ids := by
  induction sets generalizing start with
  | nil => simp
  | cons ids sets ih =>
    rw [List.foldl_cons, ih, Finset.mem_union]
    simp only [List.mem_cons, exists_eq_or_imp, or_assoc]

theorem WsRuntime.Consistent.mem_roomMembers {s : WsRuntime} (h : s.Consistent) {route : String} {rooms : List String}
    {id : ℕ} : id ∈ s.roomMembers route rooms ↔
      ∃ entry, s.connections.lookup id = some entry ∧ entry.route = route ∧ ∃ room ∈ rooms, room ∈ entry.rooms := by
  unfold WsRuntime.roomMembers
  simp only [mem_foldl_union, Finset.notMem_empty, false_or, List.mem_filterMap, h.rooms]
  constructor
  · rintro ⟨ids, ⟨room, hroom, hids⟩, hid⟩
    have hin : id ∈ s.inRoom route room := by
      rw [← nonempty_getD (s.inRoom route room), hids]
      exact hid
    obtain ⟨entry, hentry, htrue⟩ := mem_holders.1 hin
    obtain ⟨hroute, hmem⟩ := of_decide_eq_true htrue
    exact ⟨entry, hentry, hroute, room, hroom, hmem⟩
  · rintro ⟨entry, hentry, hroute, room, hroom, hmem⟩
    have hin : id ∈ s.inRoom route room := (mem_inRoom hentry).2 ⟨hroute, hmem⟩
    exact ⟨s.inRoom route room, ⟨room, hroom, if_neg (Finset.ne_empty_of_mem hin)⟩, hin⟩

theorem pairwise_recipients (s : WsRuntime) (ids excluded : Finset ℕ) :
    (s.recipients ids excluded).Pairwise (fun r r' => r.id < r'.id) := by
  unfold WsRuntime.recipients
  rw [List.pairwise_map]
  exact pairwise_ascending _

theorem mem_recipients {s : WsRuntime} {ids excluded : Finset ℕ} {r : LocalBroadcastRecipient} :
    r ∈ s.recipients ids excluded ↔
      r.id ∈ ids ∧ r.id ∉ excluded ∧ r.sender = (s.connections.lookup r.id).bind ConnectionEntry.internalSender := by
  unfold WsRuntime.recipients
  simp only [List.mem_map, mem_ascending, Finset.mem_sdiff]
  constructor
  · rintro ⟨id, ⟨hid, hexcluded⟩, rfl⟩
    exact ⟨hid, hexcluded, rfl⟩
  · rintro ⟨hid, hexcluded, hsender⟩
    exact ⟨r.id, ⟨hid, hexcluded⟩, by rw [← hsender]⟩

/-- **Recipients.** After any calls and for any target, they are in ascending order of their ids, and they are the
connections that match the target and are not excluded, with their senders. -/
theorem recipients_eq_scan (hub : RuntimeHubConfig) (cs : List RegistryCall) (target : WsTarget) :
    let s := WsRuntime.new.calls hub cs
    let recipients := s.selectBroadcastRecipients target.route target.rooms target.allInScope target.excluded
    recipients.Pairwise (fun r r' => r.id < r'.id) ∧
    ∀ r, r ∈ recipients ↔ ∃ entry, s.connections.lookup r.id = some entry ∧ target.Matches entry ∧
      r.id ∉ target.excluded ∧ r.sender = entry.internalSender := by
  intro s recipients
  have hconsistent : s.Consistent := (indexed_new.calls cs).consistent
  have hmem : ∀ {ids : Finset ℕ}, (∀ id, id ∈ ids ↔ ∃ entry, s.connections.lookup id = some entry ∧
      target.Matches entry) → ∀ r, r ∈ s.recipients ids target.excluded ↔ ∃ entry,
        s.connections.lookup r.id = some entry ∧ target.Matches entry ∧ r.id ∉ target.excluded ∧
          r.sender = entry.internalSender := by
    intro ids hids r
    rw [mem_recipients, hids]
    constructor
    · rintro ⟨⟨entry, hentry, hmatch⟩, hexcluded, hsender⟩
      rw [hentry, Option.bind_some] at hsender
      exact ⟨entry, hentry, hmatch, hexcluded, hsender⟩
    · rintro ⟨entry, hentry, hmatch, hexcluded, hsender⟩
      refine ⟨⟨entry, hentry, hmatch⟩, hexcluded, ?_⟩
      rw [hentry, Option.bind_some]
      exact hsender
  obtain ⟨route, rooms, allInScope, excluded, publishRemote, routed⟩ := target
  cases allInScope with
  | true =>
    refine ⟨pairwise_recipients _ _ _, hmem fun id => ?_⟩
    rw [mem_holders]
    refine exists_congr fun entry => and_congr_right fun _ => ⟨fun hall => ⟨?_, nofun⟩, fun hmatch => ?_⟩
    · rintro _ rfl
      simpa using hall
    · cases route with
      | none => rfl
      | some route => simpa using hmatch.route route rfl
  | false =>
    cases route with
    | none => cases routed rfl
    | some route =>
      refine ⟨pairwise_recipients _ _ _, hmem fun id => ?_⟩
      rw [hconsistent.mem_roomMembers]
      refine exists_congr fun entry => and_congr_right fun _ => ⟨?_, fun hmatch => ?_⟩
      · rintro ⟨hroute, hrooms⟩
        exact ⟨fun _ heq => hroute.trans (Option.some.inj heq), fun _ => hrooms⟩
      · exact ⟨hmatch.route route rfl, hmatch.rooms rfl⟩

/-! ## Broadcasts -/

/-- Whom it is for. -/
inductive WsBrokerTarget where
  | routeRooms (route : String) (rooms : List String)
  | routeAll (route : String)
  | allRoutes
  deriving DecidableEq

inductive WsBrokerPayload where
  | text (text : String)
  | binary (bytes : List UInt8)
  deriving DecidableEq

/-- What a node publishes. -/
structure WsBrokerPublication where
  id : ℕ
  origin : ℕ
  target : WsBrokerTarget
  payload : WsBrokerPayload
  deriving DecidableEq

inductive WsBrokerError where
  | unavailable
  | timeout
  | lagged (skipped : ℕ)
  | invalidPublication (message : String)
  | subscriptionClosed
  deriving DecidableEq

inductive LocalEnqueueOutcome where
  | enqueued
  | rejected
  | disconnected
  deriving DecidableEq

inductive WsRemotePublish where
  | notConfigured
  | published
  deriving DecidableEq

structure WsBroadcastReport where
  matched : ℕ
  enqueued : ℕ
  rejected : ℕ
  disconnected : ℕ
  remote : WsRemotePublish
  deriving DecidableEq

inductive WsBroadcastError where
  | invalidMessage
  | invalidRoom (room : String)
  | broker (source : WsBrokerError) (localReport : WsBroadcastReport)
  deriving DecidableEq

def brokerPayload : WebSocketMessage → Option WsBrokerPayload
  | .text text => some (.text text)
  | .binary bytes => some (.binary bytes)
  | _ => none

def WsBrokerPayload.len : WsBrokerPayload → ℕ
  | .text value => (utf8 value).length
  | .binary value => value.length

namespace WsTarget

variable (target : WsTarget)

/-- The target, as it is published. -/
def brokerTarget : WsBrokerTarget :=
  match target.route, target.allInScope, target.routed with
  | some route, false, _ => .routeRooms route target.rooms
  | some route, true, _ => .routeAll route
  | none, true, _ => .allRoutes
  | none, false, hrouted => absurd (hrouted rfl) Bool.false_ne_true

/-- `WsTarget::send_local`, when the queues of the recipients answer so. -/
def sendLocal (s : WsRuntime) (enqueue : ℕ → LocalEnqueueOutcome) : WsBroadcastReport :=
  let recipients := s.selectBroadcastRecipients target.route target.rooms target.allInScope target.excluded
  let outcomes := recipients.map fun r => r.sender.elim .disconnected enqueue
  { matched := recipients.length
    enqueued := outcomes.count .enqueued
    rejected := outcomes.count .rejected
    disconnected := outcomes.count .disconnected
    remote := .notConfigured }

/-- `WsTarget::send`, when the queues and the broker answer so, and what was handed to the broker. -/
def send (hub : RuntimeHubConfig) (s : WsRuntime) (enqueue : ℕ → LocalEnqueueOutcome)
    (publish : WsBrokerPublication → Except WsBrokerError Unit) (publicationId : ℕ) (message : WebSocketMessage) :
    Except WsBroadcastError WsBroadcastReport × Option WsBrokerPublication :=
  match brokerPayload message with
  | none => (.error .invalidMessage, none)
  | some payload =>
    match target.rooms.find? (isUnusableName hub.maxRoomNameBytes) with
    | some room => (.error (.invalidRoom room), none)
    | none =>
      let report := target.sendLocal s enqueue
      if !target.publishRemote || !hub.hasBroker then (.ok report, none)
      else
        let publication := ⟨publicationId, hub.nodeId, target.brokerTarget, payload⟩
        match publish publication with
        | .ok _ => (.ok { report with remote := .published }, some publication)
        | .error source => (.error (.broker source report), some publication)

end WsTarget

def maxBrokerRouteBytes : ℕ := 1024

def maxBrokerPayloadBytes : ℕ := 16 * 1024 * 1024

def validateBrokerRoute (route : String) : Except WsBrokerError Unit :=
  if isUnusableName maxBrokerRouteBytes route then
    .error (.invalidPublication "la ruta del broker WebSocket no es valida")
  else .ok ()

def validateBrokerRoom (maxBytes : ℕ) (room : String) : Except WsBrokerError Unit :=
  if isUnusableName maxBytes room then .error (.invalidPublication "una room del broker WebSocket no es valida")
  else .ok ()

def validateBrokerTarget (hub : RuntimeHubConfig) : WsBrokerTarget → Except WsBrokerError Unit
  | .routeRooms route rooms => do
    validateBrokerRoute route
    if rooms.isEmpty || rooms.length > hub.maxRoomsPerConnection then
      .error (.invalidPublication "el destino de rooms debe incluir una cantidad valida")
    else rooms.forM (validateBrokerRoom hub.maxRoomNameBytes)
  | .routeAll route => validateBrokerRoute route
  | .allRoutes => .ok ()

/-- What a node checks of a publication it receives. -/
def validateBrokerPublication (hub : RuntimeHubConfig) (publication : WsBrokerPublication) :
    Except WsBrokerError Unit := do
  validateBrokerTarget hub publication.target
  if publication.payload.len > maxBrokerPayloadBytes then
    .error (.invalidPublication "el payload supera el limite del broker WebSocket")
  else .ok ()

/-! ## What another node takes -/

theorem validateBrokerRoute_iff {route : String} :
    validateBrokerRoute route = .ok () ↔ isUnusableName maxBrokerRouteBytes route = false := by
  unfold validateBrokerRoute
  split <;> simp_all

theorem forM_validateBrokerRoom_iff {maxBytes : ℕ} {rooms : List String} :
    rooms.forM (validateBrokerRoom maxBytes) = .ok () ↔ rooms.find? (isUnusableName maxBytes) = none := by
  induction rooms with
  | nil => exact iff_of_true rfl rfl
  | cons room rooms ih =>
    show (validateBrokerRoom maxBytes room >>= fun _ => rooms.forM (validateBrokerRoom maxBytes)) = .ok () ↔ _
    rw [bind_unit_eq_ok, ih, List.find?_cons]
    unfold validateBrokerRoom
    cases isUnusableName maxBytes room <;> simp

theorem validateBrokerTarget_iff {hub : RuntimeHubConfig} (target : WsTarget) :
    validateBrokerTarget hub target.brokerTarget = .ok () ↔
      (∀ route, target.route = some route → isUnusableName maxBrokerRouteBytes route = false) ∧
      (target.allInScope = false → target.rooms ≠ [] ∧ target.rooms.length ≤ hub.maxRoomsPerConnection ∧
        target.rooms.find? (isUnusableName hub.maxRoomNameBytes) = none) := by
  obtain ⟨route, rooms, allInScope, excluded, publishRemote, routed⟩ := target
  cases route with
  | none =>
    cases allInScope with
    | true => exact iff_of_true rfl ⟨nofun, nofun⟩
    | false => cases routed rfl
  | some route =>
    cases allInScope with
    | true =>
      show validateBrokerRoute route = .ok () ↔ _
      rw [validateBrokerRoute_iff]
      simp
    | false =>
      show (validateBrokerRoute route >>= fun _ => if rooms.isEmpty || rooms.length > hub.maxRoomsPerConnection then
        Except.error (.invalidPublication "el destino de rooms debe incluir una cantidad valida")
        else rooms.forM (validateBrokerRoom hub.maxRoomNameBytes)) = .ok () ↔ _
      rw [bind_unit_eq_ok, validateBrokerRoute_iff]
      simp only [Option.some.injEq, forall_eq']
      refine and_congr_right fun _ => ?_
      split
      · rename_i hlimit
        refine iff_of_false nofun fun hall => ?_
        obtain ⟨hempty, hlength, -⟩ := hall trivial
        rcases Bool.or_eq_true_iff.1 hlimit with hnil | hlong
        · exact hempty (List.isEmpty_iff.1 hnil)
        · exact Nat.not_lt.2 hlength (of_decide_eq_true hlong)
      · rename_i hlimit
        simp only [Bool.or_eq_true, List.isEmpty_iff, decide_eq_true_eq, not_or, not_lt] at hlimit
        rw [forM_validateBrokerRoom_iff]
        exact ⟨fun hrooms _ => ⟨hlimit.1, hlimit.2, hrooms⟩, fun hall => (hall trivial).2.2⟩

/-- **Publications.** A publication that `send` hands to the broker is valid for another node with the same limits if and
only if its route can be used, a target by rooms has one and no more than a connection may have, and the payload is not
too long. -/
theorem publication_accepted_iff {hub peer : RuntimeHubConfig} {s : WsRuntime} {enqueue : ℕ → LocalEnqueueOutcome}
    {publish : WsBrokerPublication → Except WsBrokerError Unit} {publicationId : ℕ} {target : WsTarget}
    {message : WebSocketMessage} {publication : WsBrokerPublication}
    (hrooms : peer.maxRoomsPerConnection = hub.maxRoomsPerConnection)
    (hbytes : peer.maxRoomNameBytes = hub.maxRoomNameBytes)
    (hsend : (target.send hub s enqueue publish publicationId message).2 = some publication) :
    validateBrokerPublication peer publication = .ok () ↔
      (∀ route, target.route = some route → isUnusableName maxBrokerRouteBytes route = false) ∧
      (target.allInScope = false → target.rooms ≠ [] ∧ target.rooms.length ≤ hub.maxRoomsPerConnection) ∧
      ∀ payload, brokerPayload message = some payload → payload.len ≤ maxBrokerPayloadBytes := by
  unfold WsTarget.send at hsend
  split at hsend
  · cases hsend
  rename_i payload hpayload
  split at hsend
  · cases hsend
  rename_i hnames
  dsimp only at hsend
  split at hsend
  · cases hsend
  obtain rfl : ⟨publicationId, hub.nodeId, target.brokerTarget, payload⟩ = publication := by
    split at hsend <;> exact Option.some.inj hsend
  unfold validateBrokerPublication
  rw [bind_unit_eq_ok, validateBrokerTarget_iff, hrooms, hbytes]
  simp only [hnames, and_true, and_assoc]
  refine and_congr_right fun _ => and_congr_right fun _ => ?_
  rw [hpayload]
  split
  · rename_i hlong
    exact iff_of_false nofun fun hall => Nat.not_lt.2 (hall payload rfl) hlong
  · rename_i hshort
    exact iff_of_true rfl fun payload' heq => Option.some.inj heq ▸ Nat.not_lt.1 hshort

def brokerHub : RuntimeHubConfig := ⟨2, 8, true, 1⟩

/-- A broadcast to no rooms is reported as published, and every other node discards it. -/
theorem empty_rooms_published_invalid : ∃ publication,
    (WsRoute.toMany "/chat" []).send brokerHub .new (fun _ => .enqueued) (fun _ => .ok ()) 7 (.text "hola") =
      (.ok ⟨0, 0, 0, 0, .published⟩, some publication) ∧
    validateBrokerPublication brokerHub publication =
      .error (.invalidPublication "el destino de rooms debe incluir una cantidad valida") :=
  ⟨⟨7, 1, .routeRooms "/chat" [], .text "hola"⟩, by decide +kernel, by decide +kernel⟩

/-- A broadcast to two rooms. -/
theorem publication_accepted_two_rooms : ∃ publication,
    (WsRoute.toMany "/chat" ["b", "a"]).send brokerHub .new (fun _ => .enqueued) (fun _ => .ok ()) 7 (.text "hola") =
      (.ok ⟨0, 0, 0, 0, .published⟩, some publication) ∧ validateBrokerPublication brokerHub publication = .ok () := by
  have hsend : (WsRoute.toMany "/chat" ["b", "a"]).send brokerHub .new (fun _ => .enqueued) (fun _ => .ok ()) 7
      (.text "hola") =
        (.ok ⟨0, 0, 0, 0, .published⟩, some ⟨7, 1, .routeRooms "/chat" ["a", "b"], .text "hola"⟩) := by
    decide +kernel
  refine ⟨_, hsend, (publication_accepted_iff rfl rfl (congrArg Prod.snd hsend)).2 ⟨?_, ?_, ?_⟩⟩
  · rintro _ ⟨⟩
    decide +kernel
  · intro _
    decide +kernel
  · rintro _ ⟨⟩
    decide +kernel

/-! ## What another node delivers -/

def WsBrokerTarget.received : WsBrokerTarget → WsTarget
  | .routeRooms route rooms => ⟨some route, normalizeRooms rooms, false, ∅, false, nofun⟩
  | .routeAll route => ⟨some route, [], true, ∅, false, nofun⟩
  | .allRoutes => ⟨none, [], true, ∅, false, fun _ => rfl⟩

/-- `WsHub::deliver_broker_publication`, when the queues of the recipients answer so. -/
def deliverBrokerPublication (s : WsRuntime) (enqueue : ℕ → LocalEnqueueOutcome) (publication : WsBrokerPublication) :
    WsBroadcastReport :=
  publication.target.received.sendLocal s enqueue

theorem mem_normalizeRooms {rooms : List String} {room : String} : room ∈ normalizeRooms rooms ↔ room ∈ rooms := by
  rw [normalizeRooms, mem_ascending, List.mem_toFinset]

theorem WsRuntime.roomMembers_congr (s : WsRuntime) (route : String) {rooms rooms' : List String}
    (h : ∀ room, room ∈ rooms ↔ room ∈ rooms') : s.roomMembers route rooms = s.roomMembers route rooms' := by
  ext id
  unfold WsRuntime.roomMembers
  simp only [mem_foldl_union, List.mem_filterMap, h]

/-- **Delivery.** For any registry and any target without exclusions, the target of the publication selects on a node
with that registry the recipients that the target itself selects there, and the reports are the same. Neither target is
by rooms without a route. -/
theorem delivered_eq_local (s : WsRuntime) (target : WsTarget) (hexcluded : target.excluded = ∅) :
    let received := target.brokerTarget.received
    s.selectBroadcastRecipients received.route received.rooms received.allInScope received.excluded =
      s.selectBroadcastRecipients target.route target.rooms target.allInScope target.excluded ∧
    (∀ (enqueue : ℕ → LocalEnqueueOutcome) (publication : WsBrokerPublication),
      publication.target = target.brokerTarget →
        deliverBrokerPublication s enqueue publication = target.sendLocal s enqueue) ∧
    ¬ (target.route = none ∧ target.allInScope = false) ∧
    ¬ (received.route = none ∧ received.allInScope = false) := by
  intro received
  have hselect : s.selectBroadcastRecipients received.route received.rooms received.allInScope received.excluded =
      s.selectBroadcastRecipients target.route target.rooms target.allInScope target.excluded := by
    obtain ⟨route, rooms, allInScope, excluded, publishRemote, routed⟩ := target
    obtain rfl : excluded = ∅ := hexcluded
    cases route with
    | none =>
      cases allInScope with
      | true => rfl
      | false => cases routed rfl
    | some route =>
      cases allInScope with
      | true => rfl
      | false =>
        show s.recipients (s.roomMembers route (normalizeRooms rooms)) ∅ = s.recipients (s.roomMembers route rooms) ∅
        rw [s.roomMembers_congr route fun room => mem_normalizeRooms]
  have hrouted : ∀ target : WsTarget, ¬ (target.route = none ∧ target.allInScope = false) := by
    rintro target ⟨hroute, hrooms⟩
    exact Bool.false_ne_true (hrooms.symm.trans (target.routed hroute))
  refine ⟨hselect, fun enqueue publication hpublication => ?_, hrouted target, hrouted received⟩
  unfold deliverBrokerPublication WsTarget.sendLocal
  rw [hpublication]
  dsimp only
  rw [hselect]

def twoRooms : WsRuntime := WsRuntime.new.calls brokerHub
  [.admitConnection "/chat" none ⟨none, none, none, 5, 2, 8⟩, .admitConnection "/chat" none ⟨none, none, none, 5, 2, 8⟩,
    .join 1 ["a"], .join 2 ["b"]]

/-- A target with a room twice. -/
theorem delivered_two_rooms :
    (deliverBrokerPublication twoRooms (fun _ => .enqueued)
      ⟨7, 1, .routeRooms "/chat" (normalizeRooms ["b", "a", "b"]), .text "hola"⟩).matched = 2 ∧
    deliverBrokerPublication twoRooms (fun _ => .enqueued)
      ⟨7, 1, .routeRooms "/chat" (normalizeRooms ["b", "a", "b"]), .text "hola"⟩ =
        (WsRoute.toMany "/chat" ["b", "a", "b"]).sendLocal twoRooms fun _ => .enqueued :=
  ⟨by decide, (delivered_eq_local twoRooms (WsRoute.toMany "/chat" ["b", "a", "b"]) rfl).2.1 _ _ rfl⟩

end RustRest
