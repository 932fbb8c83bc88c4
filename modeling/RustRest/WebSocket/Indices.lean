import RustRest.WebSocket.Registry

/-!
# The indices of the registry

The counts by route and by address, the index of rooms and the counters are redundant: all of them can be read off the
connections. Every call keeps them so.

Main result: **`registry_consistent`**.
-/

namespace RustRest

open FiniteMap

/-! ## Counts that are not stored when zero, sets that are not stored when empty -/

/-- A count as it is stored. -/
def nonzero (n : ℕ) : Option ℕ := if n = 0 then none else some n

/-- A set of members as it is stored. -/
def nonempty (ids : Finset ℕ) : Option (Finset ℕ) := if ids = ∅ then none else some ids

theorem nonzero_getD (n : ℕ) : (nonzero n).getD 0 = n := by
  unfold nonzero
  split
  · exact Eq.symm ‹_›
  · rfl

theorem nonzero_eq_none {n : ℕ} : nonzero n = none ↔ n = 0 := by
  unfold nonzero
  split <;> simp_all

theorem nonzero_eq_some {n m : ℕ} : nonzero n = some m ↔ n = m ∧ n ≠ 0 := by
  unfold nonzero
  split <;> simp_all

theorem nonempty_getD (ids : Finset ℕ) : (nonempty ids).getD ∅ = ids := by
  unfold nonempty
  split
  · exact Eq.symm ‹_›
  · rfl

theorem nonempty_insert (id : ℕ) (ids : Finset ℕ) : nonempty (insert id ids) = some (insert id ids) :=
  if_neg (Finset.insert_ne_empty id ids)

theorem nonempty_bind_erase (ids : Finset ℕ) (id : ℕ) :
    ((nonempty ids).bind fun members => nonempty (members.erase id)) = nonempty (ids.erase id) := by
  unfold nonempty
  by_cases h : ids = ∅
  · simp [h]
  · rw [if_neg h]
    rfl

section Counts

variable {K : Type} [DecidableEq K] {counts : Map K ℕ} {n : K → ℕ}

theorem lookup_incrementCount (h : ∀ k, counts.lookup k = nonzero (n k)) (key k : K) :
    (incrementCount counts key).lookup k = nonzero (if k = key then n k + 1 else n k) := by
  unfold incrementCount
  rw [lookup_insert_eq, h key, nonzero_getD, h k]
  split
  · rename_i heq
    rw [heq]
    rfl
  · rfl

theorem lookup_decrementCount (h : ∀ k, counts.lookup k = nonzero (n k)) (key k : K) :
    (decrementCount counts key).lookup k = nonzero (if k = key then n k - 1 else n k) := by
  unfold decrementCount
  have hkey := h key
  cases hlookup : counts.lookup key with
  | none =>
    have hzero : n key = 0 := nonzero_eq_none.1 (hkey.symm.trans hlookup)
    dsimp only
    rw [h k]
    by_cases hk : k = key
    · rw [if_pos hk, hk, hzero]
    · rw [if_neg hk]
  | some count =>
    obtain ⟨rfl, -⟩ := nonzero_eq_some.1 (hkey.symm.trans hlookup)
    dsimp only
    by_cases hk : k = key
    · rw [if_pos hk, hk]
      split
      · rename_i hone
        rw [Finmap.lookup_erase, hone]
        rfl
      · rename_i hmore
        rw [Finmap.lookup_insert]
        exact (if_neg hmore).symm
    · rw [if_neg hk]
      split
      · rw [Finmap.lookup_erase_ne hk, h k]
      · rw [Finmap.lookup_insert_of_ne _ hk, h k]

end Counts

section Counted

variable {K V : Type} [DecidableEq K] {counts : Map K ℕ} {q : K → V → Bool} {m m' : Map ℕ V} {a : ℕ} {new : Option V}
  {key : K}

theorem counted_increment (h : ∀ k, counts.lookup k = nonzero (holders (q k) m).card)
    (hm : ∀ j, m'.lookup j = if j = a then new else m.lookup j) (hold : ∀ k, (m.lookup a).any (q k) = false)
    (hnew : ∀ k, new.any (q k) = decide (k = key)) (k : K) :
    (incrementCount counts key).lookup k = nonzero (holders (q k) m').card := by
  have hcard := card_holders_of_lookup (q k) hm
  rw [hold k, hnew k] at hcard
  rw [lookup_incrementCount h]
  by_cases hk : k = key <;> simp_all

theorem counted_decrement (h : ∀ k, counts.lookup k = nonzero (holders (q k) m).card)
    (hm : ∀ j, m'.lookup j = if j = a then new else m.lookup j) (hold : ∀ k, (m.lookup a).any (q k) = decide (k = key))
    (hnew : ∀ k, new.any (q k) = false) (k : K) :
    (decrementCount counts key).lookup k = nonzero (holders (q k) m').card := by
  have hcard := card_holders_of_lookup (q k) hm
  rw [hold k, hnew k] at hcard
  rw [lookup_decrementCount h]
  by_cases hk : k = key
  · rw [if_pos hk]
    rw [if_pos (decide_eq_true hk), if_neg Bool.false_ne_true] at hcard
    congr 1
    omega
  · rw [if_neg hk]
    rw [if_neg (by simpa using hk), if_neg Bool.false_ne_true] at hcard
    congr 1
    omega

end Counted

/-! ## The loops over rooms -/

theorem lookup_addRoomMemberships (route : String) (id : ℕ) (rooms : List String) (index : RoomIndex)
    (key : String × String) :
    (rooms.foldl (addRoomMembership route id) index).lookup key =
      if key.1 = route ∧ key.2 ∈ rooms then some (insert id ((index.lookup key).getD ∅)) else index.lookup key := by
  induction rooms generalizing index with
  | nil => simp
  | cons room rooms ih =>
    rw [List.foldl_cons, ih, addRoomMembership, lookup_insert_eq]
    by_cases hkey : key = (route, room)
    · rw [if_pos hkey, hkey]
      simp
    · have hcons : key.1 = route ∧ key.2 ∈ room :: rooms ↔ key.1 = route ∧ key.2 ∈ rooms :=
        and_congr_right fun hroute => List.mem_cons.trans (or_iff_right fun hroom => hkey (Prod.ext hroute hroom))
      simp only [if_neg hkey, hcons]

theorem lookup_removeRoomMembership (route : String) (id : ℕ) (index : RoomIndex) (room : String)
    (key : String × String) :
    (removeRoomMembership route id index room).lookup key =
      if key = (route, room) then (index.lookup key).bind fun members => nonempty (members.erase id)
      else index.lookup key := by
  unfold removeRoomMembership
  cases hlookup : index.lookup (route, room) with
  | none =>
    dsimp only
    split
    · rename_i heq
      rw [heq, hlookup]
      rfl
    · rfl
  | some members =>
    dsimp only
    split
    · rename_i hempty
      rw [lookup_erase_eq]
      split
      · rename_i heq
        rw [heq, hlookup]
        simp [nonempty, hempty]
      · rfl
    · rename_i hne
      rw [lookup_insert_eq]
      split
      · rename_i heq
        rw [heq, hlookup]
        simp [nonempty, hne]
      · rfl

theorem lookup_removeRoomMemberships (route : String) (id : ℕ) (rooms : List String) (index : RoomIndex)
    (key : String × String) :
    (removeRoomMemberships index route id rooms).lookup key =
      if key.1 = route ∧ key.2 ∈ rooms then (index.lookup key).bind fun members => nonempty (members.erase id)
      else index.lookup key := by
  unfold removeRoomMemberships
  induction rooms generalizing index with
  | nil => simp
  | cons room rooms ih =>
    -- a name that comes twice: the second time there is nothing to remove
    have hagain : ∀ stored : Option (Finset ℕ),
        ((stored.bind fun members => nonempty (members.erase id)).bind fun members => nonempty (members.erase id)) =
          stored.bind fun members => nonempty (members.erase id) := by
      intro stored
      cases stored with
      | none => rfl
      | some members =>
        rw [Option.bind_some, nonempty_bind_erase, Finset.erase_eq_of_notMem (Finset.notMem_erase id members)]
    rw [List.foldl_cons, ih, lookup_removeRoomMembership]
    by_cases hkey : key = (route, room)
    · rw [if_pos hkey, hkey]
      simp [hagain]
    · have hcons : key.1 = route ∧ key.2 ∈ room :: rooms ↔ key.1 = route ∧ key.2 ∈ rooms :=
        and_congr_right fun hroute => List.mem_cons.trans (or_iff_right fun hroom => hkey (Prod.ext hroute hroom))
      simp only [if_neg hkey, hcons]

/-! ## The invariant -/

namespace WsRuntime

variable (s : WsRuntime)

def onRoute (route : String) : Finset ℕ := holders (fun entry => entry.route = route) s.connections

def fromIp (ip : IpAddr) : Finset ℕ := holders (fun entry => entry.remoteAddr.any (·.ip = ip)) s.connections

def inRoom (route room : String) : Finset ℕ :=
  holders (fun entry => entry.route = route ∧ room ∈ entry.rooms) s.connections

/-- The number of rooms over all connections. -/
def memberships : ℕ := tally (fun entry => entry.rooms.card) s.connections

def RoomsWithin (entry : ConnectionEntry) : Prop :=
  entry.rooms.card ≤ entry.maxRoomsPerConnection ∧
    ∀ room ∈ entry.rooms, validateRoom entry.maxRoomNameBytes room = .ok ()

/-- The indices are those of the connections. -/
structure Consistent : Prop where
  routeCounts : ∀ route, s.routeCounts.lookup route = nonzero (s.onRoute route).card
  ipCounts : ∀ ip, s.ipCounts.lookup ip = nonzero (s.fromIp ip).card
  rooms : ∀ route room, s.rooms.lookup (route, room) = nonempty (s.inRoom route room)
  accepted : s.counters.acceptedConnections = s.connections.keys.card + s.counters.closedConnections
  joins : s.counters.roomJoins < 2 ^ 64 - 1 → s.counters.roomJoins = s.counters.roomLeaves + s.memberships
  roomsWithin : ∀ id entry, s.connections.lookup id = some entry → RoomsWithin entry

/-- The limits of a configuration are kept. -/
structure Within (config : ResolvedWebSocketConfig) : Prop where
  process : ∀ limit, config.processMaxConnections = some limit → s.connections.keys.card ≤ limit
  route : ∀ limit, config.routeMaxConnections = some limit → ∀ route, (s.onRoute route).card ≤ limit
  ip : ∀ limit, config.maxConnectionsPerIp = some limit → ∀ ip, (s.fromIp ip).card ≤ limit

structure Indexed : Prop where
  routeCounts : ∀ route, s.routeCounts.lookup route = nonzero (s.onRoute route).card
  ipCounts : ∀ ip, s.ipCounts.lookup ip = nonzero (s.fromIp ip).card
  rooms : ∀ key, s.rooms.lookup key = nonempty (s.inRoom key.1 key.2)
  accepted : s.counters.acceptedConnections = s.connections.keys.card + s.counters.closedConnections
  joins : ∃ joins leaves, s.counters.roomJoins = min joins (2 ^ 64 - 1) ∧
    s.counters.roomLeaves = min leaves (2 ^ 64 - 1) ∧ joins = leaves + s.memberships
  roomsWithin : ∀ id entry, s.connections.lookup id = some entry → RoomsWithin entry
  fresh : ∀ id, s.nextId ≤ id → s.connections.lookup id = none

end WsRuntime

/-! ## One call -/

section Steps

open WsRuntime

variable {hub : RuntimeHubConfig} {s s' : WsRuntime} {id : ℕ} {entry entry' : ConnectionEntry}

theorem ConnectionEntry.indexed_eq_iff : entry.indexed = entry'.indexed ↔ entry.route = entry'.route ∧
    entry.remoteAddr = entry'.remoteAddr ∧ entry.rooms = entry'.rooms ∧
    entry.maxRoomsPerConnection = entry'.maxRoomsPerConnection ∧ entry.maxRoomNameBytes = entry'.maxRoomNameBytes := by
  unfold ConnectionEntry.indexed
  simp only [Prod.mk.injEq]

theorem elim_congr {α : Type} {f : ConnectionEntry → α} {x : α} {o o' : Option ConnectionEntry}
    (h : o'.map ConnectionEntry.indexed = o.map ConnectionEntry.indexed)
    (hf : ∀ e e' : ConnectionEntry, e.indexed = e'.indexed → f e = f e') : o'.elim x f = o.elim x f := by
  cases o with
  | none => rw [Option.map_eq_none_iff.1 h]
  | some e =>
    obtain ⟨e', rfl, heq⟩ := Option.map_eq_some_iff.1 h
    exact hf e' e heq

theorem any_congr {p : ConnectionEntry → Bool} {o o' : Option ConnectionEntry}
    (h : o'.map ConnectionEntry.indexed = o.map ConnectionEntry.indexed)
    (hp : ∀ e e' : ConnectionEntry, e.indexed = e'.indexed → p e = p e') : o'.any p = o.any p := by
  have hany : ∀ o : Option ConnectionEntry, o.any p = o.elim false p := fun o => by
    cases o <;> rfl
  rw [hany, hany]
  exact elim_congr h hp

theorem WsRuntime.Indexed.congr (h : s.Indexed)
    (hentries : ∀ id, (s'.connections.lookup id).map ConnectionEntry.indexed =
      (s.connections.lookup id).map ConnectionEntry.indexed)
    (hrouteCounts : s'.routeCounts = s.routeCounts) (hipCounts : s'.ipCounts = s.ipCounts) (hrooms : s'.rooms = s.rooms)
    (hcounters : s'.counters = s.counters) (hnextId : s'.nextId = s.nextId) : s'.Indexed := by
  constructor
  case routeCounts =>
    intro route
    rw [hrouteCounts, h.routeCounts route, onRoute, onRoute]
    rw [holders_congr fun id => any_congr (hentries id) fun e e' heq => ?_]
    rw [(ConnectionEntry.indexed_eq_iff.1 heq).1]
  case ipCounts =>
    intro ip
    rw [hipCounts, h.ipCounts ip, fromIp, fromIp]
    rw [holders_congr fun id => any_congr (hentries id) fun e e' heq => ?_]
    rw [(ConnectionEntry.indexed_eq_iff.1 heq).2.1]
  case rooms =>
    intro key
    rw [hrooms, h.rooms key, inRoom, inRoom]
    rw [holders_congr fun id => any_congr (hentries id) fun e e' heq => ?_]
    obtain ⟨hroute, -, hrooms, -⟩ := ConnectionEntry.indexed_eq_iff.1 heq
    rw [hroute, hrooms]
  case accepted =>
    have hkeys : s'.connections.keys.card = s.connections.keys.card := by
      rw [card_keys_eq_tally, card_keys_eq_tally]
      exact tally_congr fun id => elim_congr (hentries id) fun _ _ _ => rfl
    rw [hcounters, hkeys]
    exact h.accepted
  case joins =>
    have hmemberships : s'.memberships = s.memberships :=
      tally_congr fun id => elim_congr (hentries id) fun e e' heq => by
        rw [(ConnectionEntry.indexed_eq_iff.1 heq).2.2.1]
    rw [hcounters, hmemberships]
    exact h.joins
  case roomsWithin =>
    intro id entry' hentry'
    have heq := hentries id
    rw [hentry', Option.map_some] at heq
    obtain ⟨entry, hentry, heq⟩ := Option.map_eq_some_iff.1 heq.symm
    obtain ⟨-, -, hrooms, hmax, hbytes⟩ := ConnectionEntry.indexed_eq_iff.1 heq
    have hwithin := h.roomsWithin id entry hentry
    unfold RoomsWithin at hwithin ⊢
    rw [← hrooms, ← hmax, ← hbytes]
    exact hwithin
  case fresh =>
    intro id hid
    have heq := hentries id
    rw [h.fresh id (hnextId ▸ hid)] at heq
    exact Option.map_eq_none_iff.1 heq

theorem WsRuntime.Indexed.putEntry (h : s.Indexed) (hentry : s.connections.lookup id = some entry)
    (heq : entry'.indexed = entry.indexed) : (s.putEntry id entry').Indexed := by
  refine h.congr (fun k => ?_) rfl rfl rfl rfl rfl
  show ((s.connections.insert id entry').lookup k).map _ = _
  rw [lookup_insert_eq]
  split
  · rename_i hk
    rw [hk, hentry, Option.map_some, Option.map_some, heq]
  · rfl

theorem indexed_mapValues {f : ConnectionEntry → ConnectionEntry} (hf : ∀ e, (f e).indexed = e.indexed) (k : ℕ) :
    ((mapValues f s.connections).lookup k).map ConnectionEntry.indexed =
      (s.connections.lookup k).map ConnectionEntry.indexed := by
  rw [lookup_mapValues, Option.map_map]
  exact congrFun (congrArg Option.map (funext hf)) _

theorem WsRuntime.Indexed.accept (h : s.Indexed) (route : String) (remoteAddr : Option SocketAddr)
    (config : ResolvedWebSocketConfig) : (s.accept hub route remoteAddr config).Indexed := by
  have hfresh := h.fresh s.nextId le_rfl
  have hlookup : ∀ k, (s.accept hub route remoteAddr config).connections.lookup k =
      if k = s.nextId then some (newEntry hub route remoteAddr config) else s.connections.lookup k :=
    lookup_insert_eq s.connections s.nextId _
  constructor
  case routeCounts =>
    refine counted_increment h.routeCounts hlookup (fun _ => ?_) fun r => ?_
    · rw [hfresh]
      rfl
    · rw [Option.any_some, newEntry]
      exact decide_eq_decide.2 eq_comm
  case ipCounts =>
    intro ip
    cases remoteAddr with
    | none =>
      refine (h.ipCounts ip).trans ?_
      rw [fromIp, fromIp, holders_of_lookup_same hlookup]
      rw [hfresh]
      rfl
    | some addr =>
      refine counted_increment h.ipCounts hlookup (fun _ => ?_) (fun r => ?_) ip
      · rw [hfresh]
        rfl
      · rw [Option.any_some, newEntry, Option.any_some]
        exact decide_eq_decide.2 eq_comm
  case rooms =>
    intro key
    refine (h.rooms key).trans ?_
    rw [inRoom, inRoom, holders_of_lookup_same hlookup]
    rw [hfresh]
    simp [newEntry]
  case accepted =>
    have hcard := card_keys_of_lookup hlookup
    rw [hfresh, Option.elim_none, Option.elim_some] at hcard
    have hkept := h.accepted
    show s.counters.acceptedConnections + 1 = _ + s.counters.closedConnections
    omega
  case joins =>
    have htally := tally_of_lookup (fun entry => entry.rooms.card) hlookup
    rw [hfresh] at htally
    obtain ⟨joins, leaves, hjoins, hleaves, heq⟩ := h.joins
    refine ⟨joins, leaves, hjoins, hleaves, heq.trans ?_⟩
    exact congrArg _ htally.symm
  case roomsWithin =>
    intro id entry hentry
    replace hentry := (hlookup id).symm.trans hentry
    split at hentry
    · cases hentry
      exact ⟨Nat.zero_le _, nofun⟩
    · exact h.roomsWithin id entry hentry
  case fresh =>
    intro id hid
    replace hid : s.nextId + 1 ≤ id := hid
    refine (hlookup id).trans ?_
    rw [if_neg (by omega)]
    exact h.fresh id (by omega)

theorem min_saturatingAdd {a b c : ℕ} (h : a = min b (2 ^ 64 - 1)) : saturatingAdd a c = min (b + c) (2 ^ 64 - 1) := by
  unfold saturatingAdd
  omega

theorem forM_validateRoom {maxRoomNameBytes : ℕ} {rooms : List String}
    (h : rooms.forM (validateRoom maxRoomNameBytes) = .ok ()) :
    ∀ room ∈ rooms, validateRoom maxRoomNameBytes room = .ok () := by
  induction rooms with
  | nil => exact nofun
  | cons room rooms ih =>
    replace h : (validateRoom maxRoomNameBytes room >>= fun _ => rooms.forM (validateRoom maxRoomNameBytes)) = .ok () := h
    obtain ⟨_, hroom, hrooms⟩ := bind_eq_ok.1 h
    intro room' hmem
    rcases List.mem_cons.1 hmem with rfl | hmem
    · exact hroom
    · exact ih hrooms room' hmem

theorem WsRuntime.Indexed.setRooms {rooms : Finset String} {index : RoomIndex} {counters : WebSocketCounters}
    (h : s.Indexed) (hentry : s.connections.lookup id = some entry)
    (hindex : ∀ key, index.lookup key = if key.1 = entry.route then
      if key.2 ∈ rooms then nonempty (insert id (s.inRoom key.1 key.2)) else nonempty ((s.inRoom key.1 key.2).erase id)
      else s.rooms.lookup key)
    (hwithin : RoomsWithin { entry with rooms := rooms })
    (haccepted : counters.acceptedConnections = s.counters.acceptedConnections)
    (hclosed : counters.closedConnections = s.counters.closedConnections)
    (hjoins : ∃ joins leaves, counters.roomJoins = min joins (2 ^ 64 - 1) ∧
      counters.roomLeaves = min leaves (2 ^ 64 - 1) ∧ joins + entry.rooms.card = leaves + s.memberships + rooms.card) :
    ({ s.putEntry id { entry with rooms := rooms } with rooms := index, counters := counters } : WsRuntime).Indexed := by
  have hlookup := lookup_insert_eq s.connections id { entry with rooms := rooms }
  constructor
  case routeCounts =>
    intro route
    refine (h.routeCounts route).trans ?_
    rw [onRoute, onRoute]
    refine congrArg (fun ids => nonzero (Finset.card ids)) (holders_of_lookup_same hlookup ?_).symm
    rw [hentry]
    rfl
  case ipCounts =>
    intro ip
    refine (h.ipCounts ip).trans ?_
    rw [fromIp, fromIp]
    refine congrArg (fun ids => nonzero (Finset.card ids)) (holders_of_lookup_same hlookup ?_).symm
    rw [hentry]
    rfl
  case rooms =>
    intro key
    refine (hindex key).trans ?_
    show _ = nonempty (holders _ (s.connections.insert id { entry with rooms := rooms }))
    split
    · rename_i hroute
      rw [holders_of_lookup _ hlookup, Option.any_some]
      by_cases hroom : key.2 ∈ rooms
      · rw [if_pos hroom, if_pos (decide_eq_true ⟨hroute.symm, hroom⟩)]
        rfl
      · rw [if_neg hroom, if_neg]
        · rfl
        · exact fun hmem => hroom (of_decide_eq_true hmem).2
    · rename_i hroute
      rw [h.rooms key, inRoom, holders_of_lookup_same hlookup]
      rw [hentry, Option.any_some, Option.any_some]
      exact decide_eq_decide.2 ⟨fun hand => absurd hand.1.symm hroute, fun hand => absurd hand.1.symm hroute⟩
  case accepted =>
    have hcard := card_keys_of_lookup hlookup
    rw [hentry, Option.elim_some, Option.elim_some] at hcard
    have hkept := h.accepted
    show counters.acceptedConnections = (s.connections.insert id _).keys.card + counters.closedConnections
    omega
  case joins =>
    have htally := tally_of_lookup (fun entry => entry.rooms.card) hlookup
    rw [hentry, Option.elim_some, Option.elim_some] at htally
    dsimp only at htally
    obtain ⟨joins, leaves, hj, hl, heq⟩ := hjoins
    refine ⟨joins, leaves, hj, hl, ?_⟩
    show joins = leaves + tally _ (s.connections.insert id _)
    unfold memberships at heq
    omega
  case roomsWithin =>
    intro k entry' hentry'
    replace hentry' : (s.connections.insert id _).lookup k = some entry' := hentry'
    rw [hlookup] at hentry'
    split at hentry'
    · cases hentry'
      exact hwithin
    · exact h.roomsWithin k entry' hentry'
  case fresh =>
    intro k hk
    show (s.connections.insert id _).lookup k = none
    have hnone := h.fresh k hk
    rw [hlookup, if_neg]
    · exact hnone
    · rintro rfl
      cases hentry.symm.trans hnone

theorem mem_inRoom (hentry : s.connections.lookup id = some entry) {route room : String} :
    id ∈ s.inRoom route room ↔ entry.route = route ∧ room ∈ entry.rooms := by
  unfold inRoom
  rw [mem_holders, hentry]
  simp

theorem WsRuntime.Indexed.joinRooms (h : s.Indexed) (hentry : s.connections.lookup id = some entry) {rooms : List String}
    (hvalid : (ascending rooms.toFinset).forM (validateRoom entry.maxRoomNameBytes) = .ok ())
    (hlimit : entry.rooms.card + (rooms.toFinset \ entry.rooms).card ≤ entry.maxRoomsPerConnection) :
    (s.joinRooms id entry (rooms.toFinset \ entry.rooms)).Indexed := by
  have hcard : (entry.rooms ∪ rooms.toFinset \ entry.rooms).card = entry.rooms.card + (rooms.toFinset \ entry.rooms).card :=
    Finset.card_union_of_disjoint Finset.disjoint_sdiff
  have hold := h.roomsWithin id entry hentry
  refine h.setRooms hentry (fun key => ?_) ⟨by dsimp only; omega, fun room hroom => ?_⟩ rfl rfl ?_
  · rw [lookup_addRoomMemberships, h.rooms key, nonempty_getD, ← nonempty_insert]
    simp only [mem_ascending]
    have hmem := @mem_inRoom s id entry hentry key.1 key.2
    by_cases hroute : key.1 = entry.route
    · by_cases hroom : key.2 ∈ entry.rooms
      · simp [hroute, hroom, Finset.insert_eq_of_mem (hroute ▸ hmem.2 ⟨hroute.symm, hroom⟩)]
      · simp [hroute, hroom, Finset.erase_eq_of_notMem (hroute ▸ fun hin => hroom (hmem.1 hin).2)]
    · simp [hroute]
  · rcases Finset.mem_union.1 hroom with hroom | hroom
    · exact hold.2 room hroom
    · exact forM_validateRoom hvalid room (mem_ascending.2 (Finset.mem_sdiff.1 hroom).1)
  · obtain ⟨joins, leaves, hjoins, hleaves, heq⟩ := h.joins
    exact ⟨_, leaves, min_saturatingAdd hjoins, hleaves, by omega⟩

theorem WsRuntime.Indexed.lookup_remove (h : s.Indexed) {removals : Finset String} (key : String × String) :
    (removeRoomMemberships s.rooms entry.route id (ascending removals)).lookup key =
      if key.1 = entry.route ∧ key.2 ∈ removals then nonempty ((s.inRoom key.1 key.2).erase id)
      else nonempty (s.inRoom key.1 key.2) := by
  rw [lookup_removeRoomMemberships, h.rooms key, nonempty_bind_erase]
  simp only [mem_ascending]

theorem WsRuntime.Indexed.leaveRooms (h : s.Indexed) (hentry : s.connections.lookup id = some entry)
    {removals : Finset String} (hremovals : removals ⊆ entry.rooms) : (s.leaveRooms id entry removals).Indexed := by
  have hcard := Finset.card_sdiff_add_card_eq_card hremovals
  have hold := h.roomsWithin id entry hentry
  refine h.setRooms hentry (fun key => ?_) ⟨?_, fun room hroom => hold.2 room (Finset.mem_sdiff.1 hroom).1⟩ rfl rfl ?_
  · rw [h.lookup_remove key]
    have hmem := @mem_inRoom s id entry hentry key.1 key.2
    by_cases hroute : key.1 = entry.route
    · by_cases hroom : key.2 ∈ entry.rooms
      · simp [hroute, hroom, Finset.insert_eq_of_mem (hroute ▸ hmem.2 ⟨hroute.symm, hroom⟩)]
      · have hnot : key.2 ∉ removals := fun hin => hroom (hremovals hin)
        simp [hroute, hroom, hnot, Finset.erase_eq_of_notMem (hroute ▸ fun hin => hroom (hmem.1 hin).2)]
    · simp [hroute, h.rooms]
  · have hle := hold.1
    dsimp only
    omega
  · obtain ⟨joins, leaves, hjoins, hleaves, heq⟩ := h.joins
    exact ⟨joins, _, hjoins, min_saturatingAdd hleaves, by omega⟩

theorem WsRuntime.Indexed.releaseEntry (h : s.Indexed) (hentry : s.connections.lookup id = some entry) :
    (s.releaseEntry id entry).Indexed := by
  have hlookup := lookup_erase_eq s.connections id
  constructor
  case routeCounts =>
    refine counted_decrement h.routeCounts hlookup (fun r => ?_) fun _ => rfl
    rw [hentry, Option.any_some]
    exact decide_eq_decide.2 eq_comm
  case ipCounts =>
    intro ip
    dsimp only [WsRuntime.releaseEntry, fromIp]
    cases haddr : entry.remoteAddr with
    | none =>
      refine (h.ipCounts ip).trans ?_
      rw [fromIp, holders_of_lookup_same hlookup]
      rw [hentry, Option.any_some, haddr]
      rfl
    | some addr =>
      refine counted_decrement h.ipCounts hlookup (fun r => ?_) (fun _ => rfl) ip
      rw [hentry, Option.any_some, haddr, Option.any_some]
      exact decide_eq_decide.2 eq_comm
  case rooms =>
    intro key
    refine (h.lookup_remove key).trans ?_
    have hholders : ∀ p, holders p (s.connections.erase id) = (holders p s.connections).erase id := fun p =>
      holders_of_lookup p hlookup
    show _ = nonempty (holders _ (s.connections.erase id))
    rw [hholders]
    split
    · rfl
    · rename_i hnot
      refine congrArg nonempty (Finset.erase_eq_of_notMem fun hin => hnot ?_).symm
      obtain ⟨hroute, hroom⟩ := (mem_inRoom hentry).1 hin
      exact ⟨hroute.symm, hroom⟩
  case accepted =>
    have hcard := card_keys_of_lookup hlookup
    rw [hentry, Option.elim_none, Option.elim_some] at hcard
    have := h.accepted
    dsimp only [WsRuntime.releaseEntry]
    omega
  case joins =>
    have htally := tally_of_lookup (fun entry => entry.rooms.card) hlookup
    rw [hentry, Option.elim_none, Option.elim_some] at htally
    obtain ⟨joins, leaves, hjoins, hleaves, heq⟩ := h.joins
    refine ⟨joins, _, hjoins, min_saturatingAdd hleaves, ?_⟩
    show joins = leaves + entry.rooms.card + tally _ (s.connections.erase id)
    unfold memberships at heq
    omega
  case roomsWithin =>
    intro k entry' hentry'
    replace hentry' := (hlookup k).symm.trans hentry'
    split at hentry'
    · cases hentry'
    · exact h.roomsWithin k entry' hentry'
  case fresh =>
    intro k hk
    refine (hlookup k).trans ?_
    split
    · rfl
    · exact h.fresh k hk

/-- **One call.** -/
theorem WsRuntime.Indexed.call (h : s.Indexed) (c : RegistryCall) : (s.call hub c).Indexed := by
  have heffect := s.call_effect hub c
  generalize s.call hub c = s' at heffect ⊢
  cases heffect with
  | unchanged _ => exact h
  | rejected => exact ⟨h.routeCounts, h.ipCounts, h.rooms, h.accepted, h.joins, h.roomsWithin, h.fresh⟩
  | admitted _ => exact h.accept _ _ _
  | put hentry heq _ => exact h.putEntry hentry heq
  | mapped hf _ => exact h.congr (indexed_mapValues hf) rfl rfl rfl rfl rfl
  | joined hentry hvalid hlimit => exact h.joinRooms hentry hvalid hlimit
  | left hentry hremovals _ => exact h.leaveRooms hentry hremovals
  | released hentry => exact h.releaseEntry hentry

theorem indexed_new : WsRuntime.new.Indexed where
  routeCounts _ := rfl
  ipCounts _ := rfl
  rooms _ := rfl
  accepted := rfl
  joins := ⟨0, 0, rfl, rfl, rfl⟩
  roomsWithin id entry hentry := by
    cases (Finmap.lookup_empty id).symm.trans hentry
  fresh id _ := Finmap.lookup_empty id

/-- **Any calls.** -/
theorem WsRuntime.Indexed.calls (h : s.Indexed) (cs : List RegistryCall) : (s.calls hub cs).Indexed := by
  induction cs generalizing s with
  | nil => exact h
  | cons c cs ih => exact ih (h.call c)

theorem WsRuntime.Indexed.consistent (h : s.Indexed) : s.Consistent where
  routeCounts := h.routeCounts
  ipCounts := h.ipCounts
  rooms route room := h.rooms (route, room)
  accepted := h.accepted
  joins hlt := by
    obtain ⟨joins, leaves, hjoins, hleaves, heq⟩ := h.joins
    omega
  roomsWithin := h.roomsWithin

/-! ## Limits -/

def WsRuntime.NoneNew (s s' : WsRuntime) : Prop :=
  ∀ id entry', s'.connections.lookup id = some entry' → ∃ entry, s.connections.lookup id = some entry ∧
    entry'.route = entry.route ∧ entry'.remoteAddr = entry.remoteAddr

theorem noneNew_call (c : RegistryCall) (hc : c.isAdmit = false) : s.NoneNew (s.call hub c) := by
  have heffect := s.call_effect hub c
  generalize s.call hub c = s' at heffect ⊢
  have hinsert : ∀ {id : ℕ} {entry entry' : ConnectionEntry}, s.connections.lookup id = some entry →
      entry'.route = entry.route → entry'.remoteAddr = entry.remoteAddr → ∀ k e,
        (s.connections.insert id entry').lookup k = some e → ∃ entry, s.connections.lookup k = some entry ∧
          e.route = entry.route ∧ e.remoteAddr = entry.remoteAddr := by
    intro id entry entry' hentry hroute haddr k e he
    rw [lookup_insert_eq] at he
    split at he
    · rename_i hk
      cases he
      exact ⟨entry, hk ▸ hentry, hroute, haddr⟩
    · exact ⟨e, he, rfl, rfl⟩
  cases heffect with
  | unchanged _ => exact fun _ e he => ⟨e, he, rfl, rfl⟩
  | rejected | admitted _ => cases hc
  | put hentry heq _ =>
    obtain ⟨hroute, haddr, -⟩ := ConnectionEntry.indexed_eq_iff.1 heq
    exact hinsert hentry hroute haddr
  | mapped hf _ =>
    intro k e he
    replace he := (lookup_mapValues _ s.connections k).symm.trans he
    obtain ⟨e', he', rfl⟩ := Option.map_eq_some_iff.1 he
    obtain ⟨hroute, haddr, -⟩ := ConnectionEntry.indexed_eq_iff.1 (hf e')
    exact ⟨e', he', hroute, haddr⟩
  | joined hentry _ _ | left hentry _ _ => exact hinsert hentry rfl rfl
  | released _ =>
    intro k e he
    replace he := (lookup_erase_eq s.connections _ k).symm.trans he
    split at he
    · cases he
    · exact ⟨e, he, rfl, rfl⟩

variable {config : ResolvedWebSocketConfig}

theorem WsRuntime.NoneNew.within (h : s.NoneNew s') (hs : s.Within config) :
    s'.Within config := by
  have hholders : ∀ p : ConnectionEntry → Bool, (∀ e e' : ConnectionEntry, e'.route = e.route →
      e'.remoteAddr = e.remoteAddr → p e' = true → p e = true) →
        (holders p s'.connections).card ≤ (holders p s.connections).card := by
    intro p hp
    refine Finset.card_le_card fun id hid => ?_
    obtain ⟨entry', hentry', htrue⟩ := mem_holders.1 hid
    obtain ⟨entry, hentry, hroute, haddr⟩ := h id entry' hentry'
    exact mem_holders.2 ⟨entry, hentry, hp entry entry' hroute haddr htrue⟩
  constructor
  case process =>
    intro limit hlimit
    refine (Finset.card_le_card fun id hid => ?_).trans (hs.process limit hlimit)
    obtain ⟨entry', hentry'⟩ := Finmap.mem_iff.1 (Finmap.mem_keys.1 hid)
    obtain ⟨entry, hentry, -⟩ := h id entry' hentry'
    exact mem_keys_of_lookup hentry
  case route =>
    intro limit hlimit route
    refine (hholders _ fun e e' hroute _ htrue => ?_).trans (hs.route limit hlimit route)
    rw [← hroute]
    exact htrue
  case ip =>
    intro limit hlimit ip
    refine (hholders _ fun e e' _ haddr htrue => ?_).trans (hs.ip limit hlimit ip)
    rw [← haddr]
    exact htrue

theorem rejection_eq_none {route : String} {remoteIp : Option IpAddr}
    (h : s.rejection route remoteIp config = none) :
    (∀ limit, config.processMaxConnections = some limit → s.connections.keys.card < limit) ∧
    (∀ limit, config.routeMaxConnections = some limit → (s.routeCounts.lookup route).getD 0 < limit) ∧
    ∀ ip, remoteIp = some ip → ∀ limit, config.maxConnectionsPerIp = some limit →
      (s.ipCounts.lookup ip).getD 0 < limit := by
  unfold rejection at h
  split at h
  · cases h
  split at h
  · cases h
  rename_i hprocess
  split at h
  · cases h
  rename_i hroute
  split at h
  · cases h
  rename_i hip
  refine ⟨fun limit hlimit => ?_, fun limit hlimit => ?_, ?_⟩
  · rw [hlimit] at hprocess
    simpa using hprocess
  · rw [hlimit] at hroute
    simpa using hroute
  · rintro ip rfl limit hlimit
    rw [hlimit] at hip
    simpa using hip

theorem WsRuntime.Within.accept {route : String} {remoteAddr : Option SocketAddr}
    (hs : s.Within config) (h : s.Indexed)
    (hnone : s.rejection route (remoteAddr.map SocketAddr.ip) config = none) :
    (s.accept hub route remoteAddr config).Within config := by
  obtain ⟨hprocess, hroute, hip⟩ := rejection_eq_none hnone
  have hfresh := h.fresh s.nextId le_rfl
  have hlookup : ∀ k, (s.accept hub route remoteAddr config).connections.lookup k =
      if k = s.nextId then some (newEntry hub route remoteAddr config) else s.connections.lookup k :=
    lookup_insert_eq s.connections s.nextId _
  constructor
  case process =>
    intro limit hlimit
    have hcard := card_keys_of_lookup hlookup
    rw [hfresh, Option.elim_none, Option.elim_some] at hcard
    have := hprocess limit hlimit
    omega
  case route =>
    intro limit hlimit r
    have hcard := card_holders_of_lookup (fun entry => entry.route = r) hlookup
    rw [hfresh, Option.any_none, Option.any_some, if_neg Bool.false_ne_true,
      show (newEntry hub route remoteAddr config).route = route from rfl] at hcard
    have hold := hs.route limit hlimit r
    have hnew := hroute limit hlimit
    rw [h.routeCounts, nonzero_getD] at hnew
    unfold onRoute at hold hnew ⊢
    by_cases hr : route = r
    · subst hr
      rw [if_pos (decide_eq_true_iff.2 rfl)] at hcard
      omega
    · rw [if_neg fun heq => hr (of_decide_eq_true heq)] at hcard
      omega
  case ip =>
    intro limit hlimit ip
    have hcard := card_holders_of_lookup (fun entry => entry.remoteAddr.any (·.ip = ip)) hlookup
    rw [hfresh, Option.any_none, Option.any_some, if_neg Bool.false_ne_true] at hcard
    have hold := hs.ip limit hlimit ip
    unfold fromIp at hold ⊢
    by_cases hr : remoteAddr.map SocketAddr.ip = some ip
    · have hnew := hip ip hr limit hlimit
      rw [h.ipCounts, nonzero_getD, fromIp] at hnew
      have hle : ∀ b : Bool, (if b = true then 1 else 0) ≤ 1 := by decide
      have := hle ((newEntry hub route remoteAddr config).remoteAddr.any (·.ip = ip))
      omega
    · rw [if_neg] at hcard
      · omega
      · cases remoteAddr with
        | none => simp [newEntry]
        | some addr => simpa [newEntry] using hr

def RegistryCall.Uses (config : ResolvedWebSocketConfig) : RegistryCall → Prop
  | .admitConnection _ _ config' => config' = config
  | _ => True

theorem WsRuntime.Within.call (hs : s.Within config) (h : s.Indexed)
    {c : RegistryCall} (hc : c.Uses config) : (s.call hub c).Within config := by
  by_cases hadmit : c.isAdmit
  · have heffect := s.call_effect hub c
    generalize s.call hub c = s' at heffect ⊢
    cases heffect with
    | unchanged _ => exact hs
    | rejected => exact ⟨hs.process, hs.route, hs.ip⟩
    | admitted hnone =>
      obtain rfl : _ = config := hc
      exact hs.accept h hnone
    | put _ _ hnot | mapped _ hnot | left _ _ hnot => cases hadmit.symm.trans hnot
    | joined | released => cases hadmit
  · exact (noneNew_call c (Bool.eq_false_iff.2 hadmit)).within hs

theorem WsRuntime.Within.calls {cs : List RegistryCall} (hs : s.Within config)
    (h : s.Indexed) (hcs : ∀ c ∈ cs, c.Uses config) : (s.calls hub cs).Within config := by
  induction cs generalizing s with
  | nil => exact hs
  | cons c cs ih =>
    exact ih (hs.call h (hcs c List.mem_cons_self)) (h.call c) fun c' hc' => hcs c' (List.mem_cons_of_mem _ hc')

theorem within_new (config : ResolvedWebSocketConfig) : WsRuntime.new.Within config :=
  ⟨fun _ _ => Nat.zero_le _, fun _ _ _ => Nat.zero_le _, fun _ _ _ => Nat.zero_le _⟩

end Steps

/-- **The registry.** After any sequence of calls the counts by route and by address are the numbers of connections, and
no zero is stored; the index of rooms has the members of each room, and no empty set; accepted connections are active or
closed ones; joins are leaves and memberships, until they saturate; every connection is within its limits. If all
admissions are made under one configuration, its limits are kept. -/
theorem registry_consistent (hub : RuntimeHubConfig) (cs : List RegistryCall) :
    (WsRuntime.new.calls hub cs).Consistent ∧
    ∀ config, (∀ c ∈ cs, c.Uses config) → (WsRuntime.new.calls hub cs).Within config :=
  ⟨(indexed_new.calls cs).consistent, fun config hcs => (within_new config).calls indexed_new hcs⟩

def smallWsConfig : ResolvedWebSocketConfig := ⟨some 2, some 1, none, 5, 2, 8⟩

/-- Two routes; a third connection is refused; rooms are joined and left, and the first connection is released. -/
theorem registry_consistent_small :
    let hub : RuntimeHubConfig := ⟨4, 16, false, 1⟩
    let cs : List RegistryCall := [.admitConnection "/a" none smallWsConfig, .admitConnection "/b" none smallWsConfig,
      .admitConnection "/b" none smallWsConfig, .join 1 ["r", "q", "r"], .join 2 ["r"], .leave 1 ["q", "z"], .release 1]
    let s := WsRuntime.new.calls hub cs
    s.counters = ⟨2, 1, 1, 3, 2, 0⟩ ∧ s.rooms.lookup ("/b", "r") = some {2} ∧ s.rooms.lookup ("/a", "r") = none ∧
      s.Consistent ∧ s.Within smallWsConfig := by
  refine ⟨by decide +kernel, by decide +kernel, by decide +kernel, ?_⟩
  obtain ⟨hconsistent, hwithin⟩ := registry_consistent ⟨4, 16, false, 1⟩ [.admitConnection "/a" none smallWsConfig,
    .admitConnection "/b" none smallWsConfig, .admitConnection "/b" none smallWsConfig, .join 1 ["r", "q", "r"],
    .join 2 ["r"],
    .leave 1 ["q", "z"], .release 1]
  refine ⟨hconsistent, hwithin smallWsConfig fun c hc => ?_⟩
  fin_cases hc <;> first | rfl | trivial

end RustRest
