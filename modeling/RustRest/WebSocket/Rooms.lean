import RustRest.WebSocket.Indices

/-!
# Joining and leaving rooms

`join` and `leave` change the entry of a connection, the index of rooms and a counter. Each does all of it or nothing,
and they undo each other.

Main result: **`join_leave`**.
-/

namespace RustRest

open FiniteMap WsRuntime

section Outcomes

variable {s : WsRuntime} {id : ℕ} {entry : ConnectionEntry} {rooms : List String}

theorem forM_validateRoom_iff {maxRoomNameBytes : ℕ} {rooms : List String} :
    rooms.forM (validateRoom maxRoomNameBytes) = .ok () ↔
      ∀ room ∈ rooms, validateRoom maxRoomNameBytes room = .ok () := by
  refine ⟨forM_validateRoom, fun h => ?_⟩
  induction rooms with
  | nil => rfl
  | cons room rooms ih =>
    show (validateRoom maxRoomNameBytes room >>= fun _ => rooms.forM (validateRoom maxRoomNameBytes)) = .ok ()
    rw [h room List.mem_cons_self]
    exact ih fun room' hroom' => h room' (List.mem_cons_of_mem _ hroom')

def ConnectionEntry.MayJoin (entry : ConnectionEntry) (rooms : List String) : Prop :=
  (∀ room ∈ rooms, validateRoom entry.maxRoomNameBytes room = .ok ()) ∧
    (entry.rooms ∪ rooms.toFinset).card ≤ entry.maxRoomsPerConnection

theorem card_additions (rooms : List String) :
    entry.rooms.card + (rooms.toFinset \ entry.rooms).card = (entry.rooms ∪ rooms.toFinset).card := by
  rw [← Finset.card_union_of_disjoint Finset.disjoint_sdiff, Finset.union_sdiff_self_eq_union]

theorem join_cases (s : WsRuntime) (id : ℕ) (rooms : List String) :
    (∃ error, s.join id rooms = (.error error, s) ∧
      ∀ entry, s.connections.lookup id = some entry → ¬ entry.MayJoin rooms) ∨
    ∃ entry, s.connections.lookup id = some entry ∧ entry.MayJoin rooms ∧
      s.join id rooms = (.ok (), s.joinRooms id entry (rooms.toFinset \ entry.rooms)) := by
  unfold WsRuntime.join
  cases hentry : s.connections.lookup id with
  | none => exact .inl ⟨_, rfl, nofun⟩
  | some entry =>
    dsimp only
    cases hvalid : (ascending rooms.toFinset).forM (validateRoom entry.maxRoomNameBytes) with
    | error error =>
      refine .inl ⟨error, rfl, ?_⟩
      rintro _ ⟨⟩ hmay
      have hall := forM_validateRoom_iff.2 fun room hroom => hmay.1 room (List.mem_toFinset.1 (mem_ascending.1 hroom))
      cases hvalid.symm.trans hall
    | ok _ =>
      dsimp only
      by_cases hlimit : entry.rooms.card + (rooms.toFinset \ entry.rooms).card > entry.maxRoomsPerConnection
      · rw [if_pos hlimit]
        refine .inl ⟨_, rfl, ?_⟩
        rintro _ ⟨⟩ hmay
        exact Nat.not_lt.2 hmay.2 (card_additions rooms ▸ hlimit)
      · rw [if_neg hlimit]
        refine .inr ⟨entry, rfl, ⟨fun room hroom => ?_, card_additions rooms ▸ Nat.not_lt.1 hlimit⟩, rfl⟩
        exact forM_validateRoom hvalid room (mem_ascending.2 (List.mem_toFinset.2 hroom))

/-- When `join` succeeds. -/
theorem join_eq_ok_iff : (s.join id rooms).1 = .ok () ↔
    ∃ entry, s.connections.lookup id = some entry ∧ entry.MayJoin rooms := by
  rcases join_cases s id rooms with ⟨error, hjoin, hnot⟩ | ⟨entry, hentry, hmay, hjoin⟩
  · rw [hjoin]
    refine iff_of_false nofun ?_
    rintro ⟨entry, hentry, hmay⟩
    exact hnot entry hentry hmay
  · rw [hjoin]
    exact iff_of_true rfl ⟨entry, hentry, hmay⟩

theorem join_of_mayJoin (hentry : s.connections.lookup id = some entry) (hmay : entry.MayJoin rooms) :
    s.join id rooms = (.ok (), s.joinRooms id entry (rooms.toFinset \ entry.rooms)) := by
  rcases join_cases s id rooms with ⟨error, -, hnot⟩ | ⟨entry', hentry', -, hjoin⟩
  · exact absurd hmay (hnot entry hentry)
  · cases hentry.symm.trans hentry'
    exact hjoin

theorem WsRuntime.Indexed.join_ok (h : s.Indexed) (hentry : s.connections.lookup id = some entry)
    (hmay : entry.MayJoin rooms) : (s.joinRooms id entry (rooms.toFinset \ entry.rooms)).Indexed := by
  refine h.joinRooms hentry (forM_validateRoom_iff.2 fun room hroom => ?_) ((card_additions rooms).trans_le hmay.2)
  exact hmay.1 room (List.mem_toFinset.1 (mem_ascending.1 hroom))

theorem lookup_joinRooms (additions : Finset String) (k : ℕ) :
    (s.joinRooms id entry additions).connections.lookup k =
      if k = id then some { entry with rooms := entry.rooms ∪ additions } else s.connections.lookup k :=
  lookup_insert_eq s.connections id _ k

theorem lookup_leaveRooms (removals : Finset String) (k : ℕ) :
    (s.leaveRooms id entry removals).connections.lookup k =
      if k = id then some { entry with rooms := entry.rooms \ removals } else s.connections.lookup k :=
  lookup_insert_eq s.connections id _ k

/-! ## Again, and back -/

theorem WsRuntime.Indexed.rooms_eq {s s' : WsRuntime} (h : s.Indexed) (h' : s'.Indexed)
    (hconnections : s'.connections = s.connections) : s'.rooms = s.rooms := by
  refine Finmap.ext_lookup fun key => ?_
  rw [h.rooms key, h'.rooms key, inRoom, inRoom, hconnections]

theorem joinRooms_empty (h : s.Indexed) (hentry : s.connections.lookup id = some entry) :
    s.joinRooms id entry ∅ = s := by
  have hconnections : s.connections.insert id { entry with rooms := entry.rooms ∪ ∅ } = s.connections := by
    refine Finmap.ext_lookup fun k => ?_
    rw [lookup_insert_eq, Finset.union_empty]
    split
    · next hk => rw [hk, hentry]
    · rfl
  have hjoins : saturatingAdd s.counters.roomJoins (∅ : Finset String).card = s.counters.roomJoins := by
    obtain ⟨joins, leaves, hjoins, -⟩ := h.joins
    rw [Finset.card_empty, min_saturatingAdd hjoins, Nat.add_zero, ← hjoins]
  unfold WsRuntime.joinRooms WsRuntime.putEntry
  rw [hconnections, hjoins]
  rfl

theorem leaveRooms_joinRooms (h : s.Indexed) (hentry : s.connections.lookup id = some entry)
    (hmay : entry.MayJoin rooms) :
    let joined := s.joinRooms id entry (rooms.toFinset \ entry.rooms)
    let left := joined.leaveRooms id { entry with rooms := entry.rooms ∪ (rooms.toFinset \ entry.rooms) }
      (rooms.toFinset \ entry.rooms)
    left.connections = s.connections ∧ left.rooms = s.rooms := by
  intro joined left
  have hrooms : (entry.rooms ∪ (rooms.toFinset \ entry.rooms)) \ (rooms.toFinset \ entry.rooms) = entry.rooms :=
    Finset.union_sdiff_cancel_right Finset.disjoint_sdiff
  have hconnections : left.connections = s.connections := by
    refine Finmap.ext_lookup fun k => ?_
    refine (lookup_leaveRooms _ k).trans ?_
    dsimp only
    rw [hrooms, lookup_joinRooms]
    split
    · next hk => rw [hk, hentry]
    · rfl
  have hjoined : joined.connections.lookup id =
      some { entry with rooms := entry.rooms ∪ (rooms.toFinset \ entry.rooms) } :=
    (lookup_joinRooms _ id).trans (if_pos rfl)
  exact ⟨hconnections, h.rooms_eq ((h.join_ok hentry hmay).leaveRooms hjoined Finset.subset_union_right) hconnections⟩

theorem mayJoin_again (hmay : entry.MayJoin rooms) :
    ({ entry with rooms := entry.rooms ∪ (rooms.toFinset \ entry.rooms) } : ConnectionEntry).MayJoin rooms := by
  refine ⟨hmay.1, ?_⟩
  dsimp only
  rw [Finset.union_sdiff_self_eq_union, Finset.union_assoc, Finset.union_self]
  exact hmay.2

end Outcomes

/-! ## Both methods -/

/-- **Joining and leaving.** On any registry that calls lead to, for any connection and any list of names:
* `join` succeeds for a known connection, if all names are valid and the rooms are within the limit; if it fails, nothing
  has changed;
* if it succeeds, the rooms of the connection are the union, the other connections are as before, the same `join` again
  changes nothing, and leaving what was added gives back the connections and the index of rooms;
* `leave` fails for an unknown connection, and nothing has changed; else the rooms are the difference. -/
theorem join_leave (hub : RuntimeHubConfig) (cs : List RegistryCall) (id : ℕ) (rooms : List String) :
    let s := WsRuntime.new.calls hub cs
    ((s.join id rooms).1 = .ok () ↔ ∃ entry, s.connections.lookup id = some entry ∧
      (∀ room ∈ rooms, validateRoom entry.maxRoomNameBytes room = .ok ()) ∧
      (entry.rooms ∪ rooms.toFinset).card ≤ entry.maxRoomsPerConnection) ∧
    (∀ error, (s.join id rooms).1 = .error error → (s.join id rooms).2 = s) ∧
    (∀ entry, s.connections.lookup id = some entry → (s.join id rooms).1 = .ok () →
      let joined := (s.join id rooms).2
      joined.connections.lookup id = some { entry with rooms := entry.rooms ∪ rooms.toFinset } ∧
      (∀ other, other ≠ id → joined.connections.lookup other = s.connections.lookup other) ∧
      joined.join id rooms = (.ok (), joined) ∧
      ∀ added : List String, added.toFinset = rooms.toFinset \ entry.rooms →
        (joined.leave id added).1 = .ok () ∧ (joined.leave id added).2.connections = s.connections ∧
          (joined.leave id added).2.rooms = s.rooms) ∧
    (∀ error, (s.leave id rooms).1 = .error error → (s.leave id rooms).2 = s) ∧
    ∀ entry, s.connections.lookup id = some entry → (s.leave id rooms).1 = .ok () ∧
      (s.leave id rooms).2.connections.lookup id = some { entry with rooms := entry.rooms \ rooms.toFinset } ∧
      ∀ other, other ≠ id → (s.leave id rooms).2.connections.lookup other = s.connections.lookup other := by
  intro s
  have hindexed : s.Indexed := indexed_new.calls cs
  refine ⟨join_eq_ok_iff, fun error herror => ?_, fun entry hentry hok => ?_, fun error herror => ?_,
    fun entry hentry => ?_⟩
  · rcases join_cases s id rooms with ⟨error', hjoin, -⟩ | ⟨entry, -, -, hjoin⟩
    · rw [hjoin]
    · rw [hjoin] at herror
      cases herror
  · obtain ⟨entry', hentry', hmay⟩ := join_eq_ok_iff.1 hok
    cases hentry.symm.trans hentry'
    rw [join_of_mayJoin hentry hmay]
    dsimp only
    have hjoined := hindexed.join_ok hentry hmay
    have hlookup : (s.joinRooms id entry (rooms.toFinset \ entry.rooms)).connections.lookup id =
        some { entry with rooms := entry.rooms ∪ (rooms.toFinset \ entry.rooms) } :=
      (lookup_joinRooms _ id).trans (if_pos rfl)
    refine ⟨?_, fun other hother => (lookup_joinRooms _ other).trans (if_neg hother), ?_, fun added hadded => ?_⟩
    · rw [hlookup, Finset.union_sdiff_self_eq_union]
    · rw [join_of_mayJoin hlookup (mayJoin_again hmay)]
      have hnone : rooms.toFinset \ (entry.rooms ∪ (rooms.toFinset \ entry.rooms)) = ∅ := by
        rw [Finset.union_sdiff_self_eq_union, Finset.sdiff_eq_empty_iff_subset]
        exact Finset.subset_union_right
      dsimp only
      rw [hnone, joinRooms_empty hjoined hlookup]
    · unfold WsRuntime.leave
      rw [hlookup, hadded]
      dsimp only
      rw [Finset.inter_eq_left.2 Finset.subset_union_right]
      exact ⟨rfl, leaveRooms_joinRooms hindexed hentry hmay⟩
  · unfold WsRuntime.leave at herror ⊢
    cases hentry : s.connections.lookup id with
    | none => rfl
    | some entry =>
      rw [hentry] at herror
      cases herror
  · unfold WsRuntime.leave
    rw [hentry]
    dsimp only
    refine ⟨rfl, ?_, fun other hother => (lookup_leaveRooms _ other).trans (if_neg hother)⟩
    rw [lookup_leaveRooms, if_pos rfl, Finset.inter_comm, Finset.sdiff_inter_self_left]

/-- A connection in one room joins another, with repetitions, and leaves it. -/
theorem join_leave_one :
    let s := WsRuntime.new.calls ⟨2, 8, false, 7⟩
      [.admitConnection "/chat" none ⟨none, none, none, 5, 2, 8⟩, .join 1 ["a"]]
    (s.join 1 ["b", "a", "b"]).1 = .ok () ∧ ((s.join 1 ["b", "a", "b"]).2.leave 1 ["b"]).2.rooms = s.rooms := by
  intro s
  have hok : (s.join 1 ["b", "a", "b"]).1 = .ok () := by rfl
  have hlaws := join_leave ⟨2, 8, false, 7⟩
    [.admitConnection "/chat" none ⟨none, none, none, 5, 2, 8⟩, .join 1 ["a"]] 1 ["b", "a", "b"]
  obtain ⟨entry, hentry, -⟩ := hlaws.1.1 hok
  have hadded : ["b"].toFinset = ["b", "a", "b"].toFinset \ entry.rooms := by
    cases hentry
    decide
  exact ⟨hok, ((hlaws.2.2.1 entry hentry hok).2.2.2 ["b"] hadded).2.2⟩

end RustRest
