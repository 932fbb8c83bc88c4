import RustRest.Session.Rotation

/-!
# Rotations in concurrent requests

The record of a rotation waits in the table under the old id. Any request with that session id takes it when its handler
returns, whoever made it.

Main result: **`rotation_stays_with_request`**.
-/

namespace RustRest

open FiniteMap Threads Threads.Prog List

/-! ## Orderly runs -/

def StoreAction.Orderly (cfg : SessionsConfig) (number : ℕ) (s : Server) : {β : Type} → StoreAction β → Prop
  | _, .recordRotation oldId _ t => (number, oldId) ∈ s.inFlight ∧ (∀ x ∈ s.rotated, x.1 ≠ number) ∧
      (∀ x ∈ s.rotated, x.2.1 = oldId → (x.1, oldId) ∉ s.inFlight) ∧ HasRoom cfg t s.store.rotations ∧
      retain (fun _ record => t - record.2 < rotationRecordTtl) s.store.rotations = s.store.rotations
  | _, .takeRotation oldId => ∀ x ∈ s.rotated, x.2.1 = oldId → x.1 ≠ number → (x.1, oldId) ∉ s.inFlight
  | _, .resume id t => (∃ x ∈ s.rotated, x.1 = number ∧ x.2.2.1 = id) → (s.store.touch cfg id t).1 = true
  | _, _ => True

/-- What an action of a request has to meet. -/
def ServerAction.Orderly (cfg : SessionsConfig) {β : Type} : ServerAction β → ℕ → Server → Prop
  | .store a, number, s => a.Orderly cfg number s
  | .request _, _, _ => True

instance (cfg : SessionsConfig) (number : ℕ) (s : Server) : {β : Type} → (a : StoreAction β) →
    Decidable (a.Orderly cfg number s)
  | _, .recordRotation _ _ _ => inferInstanceAs (Decidable (_ ∧ _ ∧ _ ∧ _ ∧ _))
  | _, .takeRotation oldId =>
    inferInstanceAs (Decidable (∀ x ∈ s.rotated, x.2.1 = oldId → x.1 ≠ number → (x.1, oldId) ∉ s.inFlight))
  | _, .resume id t => inferInstanceAs (Decidable ((∃ x ∈ s.rotated, x.1 = number ∧ x.2.2.1 = id) →
      (s.store.touch cfg id t).1 = true))
  | _, .clock | _, .get .. | _, .remove .. | _, .write .. | _, .probe .. | _, .admitSession .. | _, .move .. =>
    isTrue trivial
  | _, .take .. | _, .sweep .. | _, .load | _, .fetchSub .. | _, .lock | _, .unlock .. => isTrue trivial
  | _, .generateId => isTrue trivial

instance (cfg : SessionsConfig) {β : Type} (number : ℕ) (s : Server) :
    (a : ServerAction β) → Decidable (a.Orderly cfg number s)
  | .store a => inferInstanceAs (Decidable (a.Orderly cfg number s))
  | .request _ => isTrue trivial

/-- The server whose requests are orderly. -/
def orderlyMachine (cfg : SessionsConfig) : Machine ServerAction ℕ ℕ Server :=
  (serverMachine cfg).restrict fun a number _ s => a.Orderly cfg number s

/-- The id that the cookie of a response is for. -/
def Reply.signed (reply : Reply) : Option String := reply.sessionCookie.bind SessionCookie.signed

/-- What is promised of the reply to a request: its cookie is for the session id of this request or for an id that the
handler of this request generated; and for the latter if there is one, unless the handler set the cookie itself, as the
middleware finds for the path of this request. -/
structure Answered (sessions : SessionsHandle) (req : SessionRequest) (s : Server) (number : ℕ) (reply : Reply) : Prop
    where
  own : ∀ id, reply.signed = some id → (number, id) ∈ s.assigned ∨ ∃ x ∈ s.rotated, x.1 = number ∧ x.2.2.1 = id
  rotated : ∀ x ∈ s.rotated, x.1 = number →
    responseSetsRootHostCookie reply.toHandlerReply sessions.cookieName req.path = false → reply.signed = some x.2.2.1

/-! ## The invariant -/

inductive Stage where
  | received
  | handling (id : String) (own : Option String)
  | taken (id : String) (own : Option String)

structure OwnIds (s : Server) (number : ℕ) (id : String) (own : Option String) : Prop where
  assigned : ∀ id', (number, id') ∈ s.assigned ↔ id' = id
  eq : ∀ x ∈ s.rotated, x.1 = number → x.2.1 = id ∧ own = some x.2.2.1
  mem : ∀ newId, own = some newId → ∃ x ∈ s.rotated, x.1 = number ∧ x.2.1 = id ∧ x.2.2.1 = newId

def Stage.Holds (s : Server) (number : ℕ) : Stage → Prop
  | received => (∀ id, (number, id) ∉ s.assigned) ∧ ∀ x ∈ s.rotated, x.1 ≠ number
  | handling id own => OwnIds s number id own ∧
      ∀ newId, own = some newId → ∃ t, s.store.rotations.lookup id = some (newId, t)
  | taken id own => OwnIds s number id own

structure Served (sessions : SessionsHandle) (requests : ℕ → SessionRequest) (s : Server) (d : Multiset (ℕ × Stage)) :
    Prop where
  nodup : (d.map Prod.fst).Nodup
  received : ∀ x ∈ d, x.1 ∈ s.received
  unsent : ∀ x ∈ d, ∀ y ∈ s.sent, y.1 ≠ x.1
  holds : ∀ x ∈ d, x.2.Holds s x.1
  keys : ∀ key record, s.store.rotations.lookup key = some record → ∃ x ∈ d, x.2 = .handling key (some record.1)
  sent_received : ∀ y ∈ s.sent, y.1 ∈ s.received
  assigned_received : ∀ y ∈ s.assigned, y.1 ∈ s.received
  rotated_received : ∀ y ∈ s.rotated, y.1 ∈ s.received
  answered : ∀ y ∈ s.sent, Answered sessions (requests y.1) s y.1 y.2

section Frame

variable {sessions : SessionsHandle} {requests : ℕ → SessionRequest} {s s' : Server} {m : Multiset (ℕ × Stage)}
  {number : ℕ} {stage stage' : Stage}

/-- Nothing has happened to a request. -/
structure Server.SameFor (s s' : Server) (number : ℕ) : Prop where
  assigned : ∀ id, (number, id) ∈ s'.assigned ↔ (number, id) ∈ s.assigned
  rotated : ∀ x : ℕ × String × String × ℕ, x.1 = number → (x ∈ s'.rotated ↔ x ∈ s.rotated)

theorem Server.SameFor.of_eq (hassigned : s'.assigned = s.assigned) (hrotated : s'.rotated = s.rotated) :
    s.SameFor s' number :=
  ⟨fun _ => by rw [hassigned], fun _ _ => by rw [hrotated]⟩

theorem OwnIds.frame {id : String} {own : Option String} (h : OwnIds s number id own) (hsame : s.SameFor s' number) :
    OwnIds s' number id own where
  assigned id' := (hsame.assigned id').trans (h.assigned id')
  eq x hx hnumber := h.eq x ((hsame.rotated x hnumber).1 hx) hnumber
  mem newId hown := by
    obtain ⟨x, hx, hnumber, hids⟩ := h.mem newId hown
    exact ⟨x, (hsame.rotated x hnumber).2 hx, hnumber, hids⟩

theorem Stage.Holds.frame (h : stage.Holds s number) (hsame : s.SameFor s' number)
    (hkept : ∀ id newId t, stage = .handling id (some newId) → s.store.rotations.lookup id = some (newId, t) →
      s'.store.rotations.lookup id = some (newId, t)) : stage.Holds s' number := by
  cases stage with
  | received =>
    exact ⟨fun id hid => h.1 id ((hsame.assigned id).1 hid),
      fun x hx hnumber => h.2 x ((hsame.rotated x hnumber).1 hx) hnumber⟩
  | handling id own =>
    refine ⟨h.1.frame hsame, fun newId hown => ?_⟩
    obtain ⟨t, ht⟩ := h.2 newId hown
    exact ⟨t, hkept id newId t (by rw [hown]) ht⟩
  | taken id own => exact OwnIds.frame h hsame

theorem Answered.frame {req : SessionRequest} {reply : Reply} (h : Answered sessions req s number reply)
    (hsame : s.SameFor s' number) : Answered sessions req s' number reply where
  own id hid := by
    rcases h.own id hid with hassigned | ⟨x, hx, hnumber, heq⟩
    · exact Or.inl ((hsame.assigned id).2 hassigned)
    · exact Or.inr ⟨x, (hsame.rotated x hnumber).2 hx, hnumber, heq⟩
  rotated x hx hnumber := h.rotated x ((hsame.rotated x hnumber).1 hx) hnumber

theorem Served.ne (h : Served sessions requests s ({(number, stage)} + m)) : ∀ x ∈ m, x.1 ≠ number := by
  intro x hx heq
  have hnodup := h.nodup
  rw [Multiset.singleton_add, Multiset.map_cons, Multiset.nodup_cons] at hnodup
  exact hnodup.1 (Multiset.mem_map.2 ⟨x, hx, heq⟩)

theorem mem_token {x : ℕ × Stage} : x ∈ {(number, stage)} + m ↔ x = (number, stage) ∨ x ∈ m := by
  rw [Multiset.singleton_add, Multiset.mem_cons]

theorem Served.here (h : Served sessions requests s ({(number, stage)} + m)) : stage.Holds s number :=
  h.holds (number, stage) (mem_token.2 (Or.inl rfl))

theorem Served.key (h : Served sessions requests s ({(number, stage)} + m)) {key : String} {record : String × ℕ}
    (hrecord : s.store.rotations.lookup key = some record) :
    stage = .handling key (some record.1) ∨ ∃ x ∈ m, x.2 = .handling key (some record.1) := by
  obtain ⟨x, hx, heq⟩ := h.keys key record hrecord
  rcases mem_token.1 hx with rfl | hx
  · exact Or.inl heq
  · exact Or.inr ⟨x, hx, heq⟩

theorem Served.step (h : Served sessions requests s ({(number, stage)} + m)) (hreceived : s'.received = s.received)
    (hsent : s'.sent = s.sent) (hothers : ∀ r, r ≠ number → s.SameFor s' r)
    (hkept : ∀ x ∈ m, ∀ id newId t, x.2 = .handling id (some newId) →
      s.store.rotations.lookup id = some (newId, t) → s'.store.rotations.lookup id = some (newId, t))
    (hholds : stage'.Holds s' number)
    (hkeys : ∀ key record, s'.store.rotations.lookup key = some record →
      stage' = .handling key (some record.1) ∨ ∃ x ∈ m, x.2 = .handling key (some record.1)) :
    Served sessions requests s' ({(number, stage')} + m) := by
  have hin : number ∈ s.received := h.received (number, stage) (mem_token.2 (Or.inl rfl))
  constructor
  case nodup =>
    have hnodup := h.nodup
    rw [Multiset.singleton_add, Multiset.map_cons] at hnodup ⊢
    exact hnodup
  case received =>
    intro x hx
    rw [hreceived]
    rcases mem_token.1 hx with rfl | hx
    · exact hin
    · exact h.received x (mem_token.2 (Or.inr hx))
  case unsent =>
    intro x hx
    rw [hsent]
    rcases mem_token.1 hx with rfl | hx
    · exact h.unsent (number, stage) (mem_token.2 (Or.inl rfl))
    · exact h.unsent x (mem_token.2 (Or.inr hx))
  case holds =>
    intro x hx
    rcases mem_token.1 hx with rfl | hx
    · exact hholds
    · exact (h.holds x (mem_token.2 (Or.inr hx))).frame (hothers _ (h.ne x hx)) (hkept x hx)
  case keys =>
    intro key record hrecord
    rcases hkeys key record hrecord with heq | ⟨x, hx, heq⟩
    · exact ⟨_, mem_token.2 (Or.inl rfl), heq⟩
    · exact ⟨x, mem_token.2 (Or.inr hx), heq⟩
  case sent_received =>
    rw [hsent, hreceived]
    exact h.sent_received
  case assigned_received =>
    rintro ⟨r, id⟩ hy
    rw [hreceived]
    by_cases hr : r = number
    · rw [hr]
      exact hin
    · exact h.assigned_received _ (((hothers r hr).assigned id).1 hy)
  case rotated_received =>
    intro y hy
    rw [hreceived]
    by_cases hr : y.1 = number
    · rw [hr]
      exact hin
    · exact h.rotated_received _ (((hothers y.1 hr).rotated y rfl).1 hy)
  case answered =>
    intro y hy
    rw [hsent] at hy
    have hne : y.1 ≠ number := h.unsent (number, stage) (mem_token.2 (Or.inl rfl)) y hy
    exact (h.answered y hy).frame (hothers _ hne)

end Frame

/-! ## What a request does to the log -/

section Steps

variable {sessions : SessionsHandle} {requests : ℕ → SessionRequest} {s : Server} {d m : Multiset (ℕ × Stage)}
  {number t : ℕ} {stage : Stage}
  {id oldId newId : String} {own : Option String} {reply : Reply}

theorem mem_inFlight : (number, id) ∈ s.inFlight ↔ (number, id) ∈ s.assigned ∧ ∀ y ∈ s.sent, y.1 ≠ number := by
  unfold Server.inFlight
  rw [mem_filter, decide_eq_true_iff, mem_map, not_exists]
  simp only [not_and]

theorem Served.congr {store : SessionStore} (h : Served sessions requests s d)
    (heq : store.rotations = s.store.rotations) : Served sessions requests { s with store := store } d := by
  have hsame : ∀ r, s.SameFor { s with store := store } r := fun _ => .of_eq rfl rfl
  refine { h with
    holds := fun x hx => (h.holds x hx).frame (hsame _) fun id newId t _ ht => ?_
    keys := ?_
    answered := fun y hy => (h.answered y hy).frame (hsame _) }
  · rw [heq]
    exact ht
  · rw [heq]
    exact h.keys

theorem Served.receive (h : Served sessions requests s m) (hnew : number ∉ s.received) :
    Served sessions requests { s with received := number :: s.received } ({(number, .received)} + m) := by
  have hsame : ∀ r, s.SameFor { s with received := number :: s.received } r := fun _ => .of_eq rfl rfl
  have hfresh : ∀ r ∈ s.received, r ≠ number := fun r hr heq => hnew (heq ▸ hr)
  constructor
  case nodup =>
    rw [Multiset.singleton_add, Multiset.map_cons, Multiset.nodup_cons]
    refine ⟨fun hmem => ?_, h.nodup⟩
    obtain ⟨x, hx, heq⟩ := Multiset.mem_map.1 hmem
    exact hfresh _ (h.received x hx) heq
  case received =>
    intro x hx
    rcases mem_token.1 hx with rfl | hx
    · exact mem_cons_self
    · exact mem_cons_of_mem _ (h.received x hx)
  case unsent =>
    intro x hx y hy heq
    rcases mem_token.1 hx with rfl | hx
    · exact hfresh _ (h.sent_received y hy) heq
    · exact h.unsent x hx y hy heq
  case holds =>
    intro x hx
    rcases mem_token.1 hx with rfl | hx
    · exact ⟨fun id hid => hnew (h.assigned_received _ hid), fun y hy => hfresh _ (h.rotated_received y hy)⟩
    · exact (h.holds x hx).frame (hsame _) fun _ _ _ _ ht => ht
  case keys =>
    intro key record hrecord
    obtain ⟨x, hx, heq⟩ := h.keys key record hrecord
    exact ⟨x, mem_token.2 (Or.inr hx), heq⟩
  case sent_received => exact fun y hy => mem_cons_of_mem _ (h.sent_received y hy)
  case assigned_received => exact fun y hy => mem_cons_of_mem _ (h.assigned_received y hy)
  case rotated_received => exact fun y hy => mem_cons_of_mem _ (h.rotated_received y hy)
  case answered => exact fun y hy => (h.answered y hy).frame (hsame _)

theorem Served.assign (h : Served sessions requests s ({(number, .received)} + m)) (id : String) :
    Served sessions requests { s with assigned := (number, id) :: s.assigned } ({(number, .handling id none)} + m) := by
  obtain ⟨hassigned, hrotated⟩ := h.here
  refine h.step rfl rfl (fun r hr => ⟨fun id' => ?_, fun _ _ => Iff.rfl⟩) (fun _ _ _ _ _ _ ht => ht)
    ⟨⟨fun id' => ?_, fun x hx heq => absurd heq (hrotated x hx), nofun⟩, nofun⟩ fun key record hrecord => ?_
  · rw [mem_cons, Prod.mk.injEq]
    exact or_iff_right fun heq => hr heq.1
  · rw [mem_cons, Prod.mk.injEq]
    exact ⟨fun hid => (hid.resolve_right (hassigned id')).2, fun hid => Or.inl ⟨rfl, hid⟩⟩
  · exact Or.inr ((h.key hrecord).resolve_left nofun)

theorem Served.waiting (h : Served sessions requests s d) {x : ℕ × Stage} (hx : x ∈ d)
    (hstage : x.2 = .handling id (some newId)) :
    (x.1, id) ∈ s.inFlight ∧ ∃ y ∈ s.rotated, y.1 = x.1 ∧ y.2.1 = id := by
  have hholds := h.holds x hx
  rw [hstage] at hholds
  obtain ⟨y, hy, hnumber, hid, -⟩ := hholds.1.mem newId rfl
  exact ⟨mem_inFlight.2 ⟨(hholds.1.assigned id).2 rfl, h.unsent x hx⟩, y, hy, hnumber, hid⟩

theorem Served.record (h : Served sessions requests s ({(number, .handling id own)} + m))
    (ho : (StoreAction.recordRotation oldId newId t).Orderly sessions.cfg number s) :
    Served sessions requests { s with
      store := s.store.recordRotation sessions.cfg oldId newId t
      rotated := s.rotated ++ [(number, oldId, newId, t)] } ({(number, .handling id (some newId))} + m) := by
  obtain ⟨hflight, hfirst, halone, hroom, hretain⟩ := ho
  obtain ⟨hids, htable⟩ := h.here
  obtain rfl : oldId = id := (hids.assigned oldId).1 (mem_inFlight.1 hflight).1
  have hnew := (lookup_recordRotation sessions.cfg s.store oldId newId t oldId).1 hroom
  have hold : ∀ key, key ≠ oldId →
      (s.store.recordRotation sessions.cfg oldId newId t).rotations.lookup key = s.store.rotations.lookup key := by
    intro key hkey
    rw [(lookup_recordRotation sessions.cfg s.store oldId newId t key).2 (Or.inl hkey)]
    conv_rhs => rw [← hretain, lookup_retain]
  have hother : ∀ x ∈ m, ∀ key newId', x.2 = .handling key (some newId') → key ≠ oldId := by
    rintro x hx key newId' hstage rfl
    obtain ⟨hflight', y, hy, hnumber, hid⟩ := h.waiting (mem_token.2 (Or.inr hx)) hstage
    exact halone y hy hid (hnumber ▸ hflight')
  refine h.step rfl rfl (fun r hr => ⟨fun _ => Iff.rfl, fun x hx => ?_⟩) (fun x hx key newId' t' hstage ht => ?_)
    ⟨⟨hids.assigned, fun x hx heq => ?_, ?_⟩, ?_⟩ fun key record hrecord => ?_
  · rw [mem_append, mem_singleton]
    refine or_iff_left ?_
    rintro rfl
    exact hr hx.symm
  · exact (hold key (hother x hx key newId' hstage)).trans ht
  · rcases mem_append.1 hx with hx | hx
    · exact absurd heq (hfirst x hx)
    · rw [mem_singleton.1 hx]
      exact ⟨rfl, rfl⟩
  · rintro _ ⟨⟩
    exact ⟨_, mem_append_right _ (mem_singleton_self _), rfl, rfl, rfl⟩
  · rintro _ ⟨⟩
    exact ⟨t, hnew⟩
  · by_cases hkey : key = oldId
    · subst hkey
      obtain rfl := Option.some.inj (hnew.symm.trans hrecord)
      exact Or.inl rfl
    · refine Or.inr ((h.key ((hold key hkey).symm.trans hrecord)).resolve_left ?_)
      rintro ⟨⟩
      exact hkey rfl

theorem Served.take (h : Served sessions requests s ({(number, .handling id own)} + m))
    (ho : (StoreAction.takeRotation id).Orderly sessions.cfg number s) :
    (s.store.takeRotation id).1 = own ∧
    Served sessions requests { s with store := (s.store.takeRotation id).2 } ({(number, .taken id own)} + m) := by
  obtain ⟨hids, htable⟩ := h.here
  have hother : ∀ x ∈ m, ∀ key newId', x.2 = .handling key (some newId') → key ≠ id := by
    rintro x hx key newId' hstage rfl
    obtain ⟨hflight, y, hy, hnumber, hid⟩ := h.waiting (mem_token.2 (Or.inr hx)) hstage
    exact ho y hy hid (hnumber ▸ h.ne x hx) (hnumber ▸ hflight)
  constructor
  · show (s.store.rotations.lookup id).map Prod.fst = own
    cases hlookup : s.store.rotations.lookup id with
    | none =>
      cases own with
      | none => rfl
      | some newId =>
        obtain ⟨t, ht⟩ := htable newId rfl
        cases hlookup.symm.trans ht
    | some record =>
      rcases h.key hlookup with heq | ⟨x, hx, heq⟩
      · cases heq
        rfl
      · exact absurd rfl (hother x hx id _ heq)
  · refine h.step rfl rfl (fun _ _ => .of_eq rfl rfl) (fun x hx key newId' t' hstage ht => ?_)
      (OwnIds.frame hids (.of_eq rfl rfl)) fun key record hrecord => ?_
    · exact (Finmap.lookup_erase_ne (hother x hx key newId' hstage)).trans ht
    · replace hrecord : (s.store.rotations.erase id).lookup key = some record := hrecord
      rw [lookup_erase_eq] at hrecord
      split at hrecord
      · cases hrecord
      · rename_i hkey
        refine Or.inr ((h.key hrecord).resolve_left ?_)
        rintro ⟨⟩
        exact hkey rfl

/-- The reply is one for a request at this stage. -/
def Stage.Fits (sessions : SessionsHandle) (req : SessionRequest) (reply : Reply) : Stage → Prop
  | received => reply.signed = none
  | handling _ _ => False
  | taken id own => (∀ id', reply.signed = some id' → id' = own.getD id) ∧
      ∀ newId, own = some newId →
        responseSetsRootHostCookie reply.toHandlerReply sessions.cookieName req.path = false → reply.signed = some newId

theorem Stage.Fits.answered {req : SessionRequest} (h : stage.Fits sessions req reply) (hholds : stage.Holds s number) :
    Answered sessions req s number reply := by
  cases stage with
  | received =>
    have hnone : reply.signed = none := h
    refine ⟨fun id hid => ?_, fun x hx heq => absurd heq (hholds.2 x hx)⟩
    rw [hnone] at hid
    cases hid
  | handling _ _ => exact h.elim
  | taken id own =>
    have hids : OwnIds s number id own := hholds
    refine ⟨fun id' hid => ?_, fun x hx heq => h.2 _ (hids.eq x hx heq).2⟩
    cases own with
    | none => exact Or.inl ((hids.assigned id').2 (h.1 id' hid))
    | some newId =>
      obtain ⟨x, hx, hnumber, -, hnew⟩ := hids.mem newId rfl
      exact Or.inr ⟨x, hx, hnumber, hnew.trans (h.1 id' hid).symm⟩

theorem Served.respond (h : Served sessions requests s ({(number, stage)} + m))
    (hfits : stage.Fits sessions (requests number) reply) :
    Served sessions requests { s with sent := (number, reply) :: s.sent } m := by
  have hsame : ∀ r, s.SameFor { s with sent := (number, reply) :: s.sent } r := fun _ => .of_eq rfl rfl
  have htoken : (number, stage) ∈ {(number, stage)} + m := mem_token.2 (Or.inl rfl)
  have hmem : ∀ x ∈ m, x ∈ {(number, stage)} + m := fun x hx => mem_token.2 (Or.inr hx)
  constructor
  case nodup =>
    have hnodup := h.nodup
    rw [Multiset.singleton_add, Multiset.map_cons, Multiset.nodup_cons] at hnodup
    exact hnodup.2
  case received => exact fun x hx => h.received x (hmem x hx)
  case unsent =>
    intro x hx y hy
    rcases mem_cons.1 hy with rfl | hy
    · exact (h.ne x hx).symm
    · exact h.unsent x (hmem x hx) y hy
  case holds => exact fun x hx => (h.holds x (hmem x hx)).frame (hsame _) fun _ _ _ _ ht => ht
  case keys =>
    intro key record hrecord
    -- a request that is answered has no record left
    refine (h.key hrecord).resolve_left ?_
    rintro rfl
    exact hfits.elim
  case sent_received =>
    intro y hy
    rcases mem_cons.1 hy with rfl | hy
    · exact h.received _ htoken
    · exact h.sent_received y hy
  case assigned_received => exact h.assigned_received
  case rotated_received => exact h.rotated_received
  case answered =>
    intro y hy
    rcases mem_cons.1 hy with rfl | hy
    · exact (hfits.answered (h.holds _ htoken)).frame (hsame _)
    · exact (h.answered y hy).frame (hsame _)

end Steps

/-! ## What a request does -/

section Requests

variable {sessions : SessionsHandle} {requests : ℕ → SessionRequest} {d : Multiset (ℕ × Stage)} {number : ℕ}
  {id : String} {own : Option String}

theorem onStore_bind {α γ : Type} (p : Prog StoreAction α) (f : α → Prog StoreAction γ) :
    onStore (p >>= f) = onStore p >>= fun r => onStore (f r) :=
  interpret_bind _ p f

/-- The access is not to the table of records. -/
def StoreAction.OffTable : {β : Type} → StoreAction β → Prop
  | _, .recordRotation _ _ _ => False
  | _, .takeRotation _ => False
  | _, _ => True

/-- An access to the store, and not to the table. -/
def ServerAction.OffTable {β : Type} : ServerAction β → Prop
  | .store a => a.OffTable
  | .request _ => False

theorem Served.offTable {β : Type} {a : ServerAction β} {now : ℕ} {s s' : Server} {r : β}
    (h : Served sessions requests s d) (hexec : (orderlyMachine sessions.cfg).exec a number now s = some (r, s'))
    (ha : a.OffTable) : Served sessions requests s' d := by
  cases a with
  | request a => exact ha.elim
  | store a =>
    obtain ⟨⟨x, store⟩, hstore, heq⟩ := Option.map_eq_some_iff.1 (Machine.restrict_exec hexec).2
    obtain ⟨rfl, rfl⟩ := Prod.mk.inj heq
    have hrotation : a.rotation number = [] := by
      cases a <;> first | exact ha.elim | rfl
    rw [hrotation, append_nil]
    refine h.congr ?_
    by_cases hquiet : a.OnRotations
    · cases a with
      | generateId =>
        cases hstore
        rfl
      | _ => first | exact ha.elim | exact hquiet.elim
    · exact (SessionStore.exec_quiet hstore hquiet).1

theorem offTable_of_quiet {α : Type} {p : Prog ServerAction α} (h : p.All ServerAction.Quiet) :
    p.All ServerAction.OffTable :=
  h.imp fun a ha => by
    cases a with
    | request a => exact ha
    | store a => cases a <;> first | trivial | exact ha trivial

theorem keeps_offTable {α : Type} {p : Prog ServerAction α} (h : p.All ServerAction.OffTable)
    (d : Multiset (ℕ × Stage)) :
    p.Keeps (orderlyMachine sessions.cfg) (Served sessions requests) number d fun _ d' => d' = d :=
  h.keeps (fun _ _ _ _ _ _ ha hexec hI => hI.offTable hexec ha) d

theorem keeps_call {β : Type} (call : SessionCall β) (d : Multiset (ℕ × Stage))
    (hd : ∃ own, d = {(number, .handling id own)}) :
    (onStore (call.prog sessions.cfg)).Keeps (orderlyMachine sessions.cfg) (Served sessions requests) number d
      fun _ d' => ∃ own, d' = {(number, .handling id own)} := by
  have hquiet : ∀ {ids : Set String} {p : Prog StoreAction β}, Confined ids p →
      (onStore p).Keeps (orderlyMachine sessions.cfg) (Served sessions requests) number d
        fun _ d' => ∃ own, d' = {(number, .handling id own)} := by
    intro ids p hp
    refine (keeps_offTable (offTable_of_quiet hp.quiet) d).imp ?_
    rintro _ d' rfl
    exact hd
  cases call with
  | get id key => exact hquiet (@SessionStore.settled_get ∅ id key).confined
  | set id key value => exact hquiet (SessionStore.settled_set id key value).confined
  | remove id key => exact hquiet (@SessionStore.settled_remove ∅ id key).confined
  | clear id => exact hquiet (@SessionStore.settled_clear ∅ id).confined
  | len => exact hquiet (@SessionStore.settled_liveLen ∅).confined
  | regenerate oldId =>
    intro e s newId s' m hexec hI
    refine ⟨d, hI.offTable hexec trivial, ?_⟩
    show (onStore (Sessions.rotateOrCreate sessions.cfg oldId newId >>= _)).Keeps _ _ _ _ _
    rw [onStore_bind]
    refine Keeps.bind ((keeps_offTable (offTable_of_quiet (Sessions.confined_rotateOrCreate oldId newId).quiet) d).imp ?_)
    rintro admitted d' rfl
    cases admitted with
    | false => exact hd
    | true =>
      intro e s t s' m hexec hI
      refine ⟨d', hI.offTable hexec trivial, ?_⟩
      intro e s _ s' m hexec hI
      obtain ⟨ho, hexec⟩ := Machine.restrict_exec hexec
      obtain ⟨own, rfl⟩ := hd
      cases hexec
      exact ⟨_, hI.record ho, some newId, rfl⟩

theorem keeps_handler {α : Type} (p : Prog SessionCall α) :
    (onStore (p.interpret (SessionCall.prog sessions.cfg))).Keeps (orderlyMachine sessions.cfg)
      (Served sessions requests) number {(number, .handling id own)} fun _ d => ∃ own, d = {(number, .handling id own)} := by
  unfold onStore
  rw [interpret_interpret]
  exact keeps_interpret (fun call d hd => keeps_call call d hd) p ⟨own, rfl⟩

def Ready (sessions : SessionsHandle) (req : SessionRequest) (number : ℕ) (reply : Reply) (d : Multiset (ℕ × Stage)) :
    Prop :=
  ∃ stage : Stage, d = {(number, stage)} ∧ stage.Fits sessions req reply

theorem signed_withCookie (req : SessionRequest) (id : String) (alive : Bool) (res : HandlerReply) :
    (∀ id', (withCookie sessions req id alive res).signed = some id' → id' = id) ∧
    (alive = true → (withCookie sessions req id alive res).signed = some id) := by
  unfold withCookie Reply.signed
  cases alive with
  | true => simp
  | false => split <;> simp

theorem keeps_attachCookie (res : HandlerReply) :
    (onStore (attachCookie sessions (requests number) (own.getD id) res)).Keeps (orderlyMachine sessions.cfg)
      (Served sessions requests) number {(number, .taken id own)} (Ready sessions (requests number) number) := by
  unfold attachCookie
  split
  · rename_i hsets
    exact ⟨_, rfl, nofun, fun _ _ hnot => absurd hsets (Bool.eq_false_iff.1 hnot)⟩
  · intro e s t s' m hexec hI
    refine ⟨_, hI.offTable hexec trivial, ?_⟩
    intro e s alive s' m hexec hI
    refine ⟨_, hI.offTable hexec trivial, _, rfl, (signed_withCookie _ _ alive res).1,
      fun newId hown _ => ?_⟩
    obtain ⟨ho, hexec⟩ := Machine.restrict_exec hexec
    have hids : OwnIds s number id own := hI.holds _ (Multiset.mem_add.2 (Or.inl (Multiset.mem_singleton_self _)))
    obtain ⟨x, hx, hnumber, -, hnew⟩ := hids.mem newId hown
    obtain rfl : (s.store.touch sessions.cfg (own.getD id) t).1 = alive := congrArg Prod.fst (Option.some.inj hexec)
    have halive : (s.store.touch sessions.cfg (own.getD id) t).1 = true :=
      ho ⟨x, hx, hnumber, by rw [hnew, hown]; rfl⟩
    refine ((signed_withCookie _ _ _ res).2 halive).trans ?_
    rw [hown]
    rfl

theorem keeps_afterHandler (res : HandlerReply) :
    (onStore (afterHandler sessions (requests number) id res)).Keeps (orderlyMachine sessions.cfg)
      (Served sessions requests) number {(number, .handling id own)} (Ready sessions (requests number) number) := by
  intro e s rotated s' m hexec hI
  obtain ⟨ho, hexec⟩ := Machine.restrict_exec hexec
  obtain ⟨hown, hserved⟩ := hI.take ho
  obtain ⟨hrotated, rfl⟩ := Prod.mk.inj (Option.some.inj hexec)
  obtain rfl := hown.symm.trans hrotated
  refine ⟨_, ?_, keeps_attachCookie _⟩
  show Served sessions requests { s with store := (s.store.takeRotation id).2, rotated := s.rotated ++ [] } _
  rw [append_nil]
  exact hserved

theorem keeps_withSession (next : String → Prog SessionCall HandlerReply) (id : String) :
    (withSession sessions (requests number) next id).Keeps (orderlyMachine sessions.cfg)
      (Served sessions requests) number {(number, .received)} (Ready sessions (requests number) number) := by
  unfold withSession
  split
  · rw [perform_bind]
    intro e s _ s' m hexec hI
    cases (Machine.restrict_exec hexec).2
    refine ⟨_, hI.assign id, ?_⟩
    refine Keeps.bind (Keeps.imp (keeps_handler (next id)) ?_)
    rintro res _ ⟨own, rfl⟩
    exact keeps_afterHandler res
  · exact ⟨_, rfl, rfl⟩

theorem keeps_middleware (next : String → Prog SessionCall HandlerReply) :
    (middleware sessions (requests number) next).Keeps (orderlyMachine sessions.cfg) (Served sessions requests) number
      {(number, .received)} (Ready sessions (requests number) number) := by
  unfold middleware
  split
  · exact ⟨_, rfl, rfl⟩
  · have hexisting : (onStore (existingSession sessions (requests number))).All ServerAction.OffTable := by
      unfold existingSession
      split
      · trivial
      · rename_i id _
        refine offTable_of_quiet (Confined.quiet ((@SessionStore.settled_resume ∅ id).confined.bind fun alive => ?_))
        trivial
    refine Keeps.bind ((keeps_offTable hexisting _).imp ?_)
    rintro existing _ rfl
    have hnew : (onStore (existingOrNew existing)).All ServerAction.OffTable := by
      cases existing with
      | none => exact ⟨trivial, fun _ => trivial⟩
      | some id => trivial
    refine Keeps.bind ((keeps_offTable hnew _).imp ?_)
    rintro id _ rfl
    exact keeps_withSession next id

theorem keeps_serve (next : String → Prog SessionCall HandlerReply) :
    (serve sessions (requests number) next).Keeps (orderlyMachine sessions.cfg)
      (Served sessions requests) number 0 fun _ d => d = 0 := by
  unfold serve
  rw [perform_bind]
  intro e s _ s' m hexec hI
  replace hexec : (if number ∈ s.received then none else some ((), { s with received := number :: s.received })) =
    some ((), s') := (Machine.restrict_exec hexec).2
  split at hexec
  · cases hexec
  · rename_i hnew
    cases hexec
    rw [zero_add] at hI
    refine ⟨_, hI.receive hnew, Keeps.bind ((keeps_middleware next).imp ?_)⟩
    rintro reply _ ⟨stage, rfl, hfits⟩ e s _ s' m hexec hI
    cases (Machine.restrict_exec hexec).2
    refine ⟨0, ?_, rfl⟩
    rw [zero_add]
    exact hI.respond hfits

end Requests

theorem served_new (sessions : SessionsHandle) (requests : ℕ → SessionRequest) (now sessionCounter : ℕ) :
    Served sessions requests (.new now sessionCounter) 0 where
  nodup := Multiset.nodup_zero
  received := nofun
  unsent := nofun
  holds := nofun
  keys key record hrecord := by
    cases (Finmap.lookup_empty key).symm.trans hrecord
  sent_received := nofun
  assigned_received := nofun
  rotated_received := nofun
  answered := nofun

/-- The programs that a run may start: request number `n` is `requests n`, with any handler. -/
def anyRequest (sessions : SessionsHandle) (requests : ℕ → SessionRequest) (_ : Server) (number : ℕ)
    (p : Prog ServerAction Unit) : Prop :=
  ∃ next, p = serve sessions (requests number) next

/-- **Rotations stay with their requests.** In every interleaving of requests that is orderly, a response has a cookie
for the session id of its request or for an id that the handler of this request has generated. If it has generated one,
the cookie is for it, unless the handler has set the cookie itself, for the path of this very request. -/
theorem rotation_stays_with_request {sessions : SessionsHandle} {requests : ℕ → SessionRequest} {now sessionCounter : ℕ}
    {c : Config ServerAction ℕ Server Unit}
    (hrun : Run (orderlyMachine sessions.cfg) (anyRequest sessions requests) ⟨.new now sessionCounter, []⟩ c) :
    ∀ x ∈ c.shared.sent, Answered sessions (requests x.1) c.shared x.1 x.2 := by
  have hstart : ∀ s l p, anyRequest sessions requests s l p →
      p.Keeps (orderlyMachine sessions.cfg) (Served sessions requests) l 0 fun _ d => d = 0 := by
    rintro s l p ⟨next, rfl⟩
    exact keeps_serve next
  have hnew : Owned (orderlyMachine sessions.cfg) (Served sessions requests) (fun (_ : Unit) d => d = 0)
      ⟨.new now sessionCounter, []⟩ [] := ⟨.nil, served_new sessions requests now sessionCounter⟩
  obtain ⟨ds, howned⟩ := hnew.run hstart hrun
  exact howned.2.answered

/-! ## Three requests -/

def settingHandler (id : String) : Prog SessionCall HandlerReply := do
  let _ ← perform (.set id "k" "v")
  pure ⟨[], []⟩

def rotatingHandler (id : String) : Prog SessionCall HandlerReply := do
  let _ ← perform (.regenerate id)
  pure ⟨[], []⟩

/-- A request without a cookie, and two with the cookie for `x`. -/
def threeRequests : ℕ → SessionRequest
  | 0 => ⟨true, "/", [], ∅⟩
  | _ => requestOf "x"

def threeThreads : List (ℕ × Prog ServerAction Unit) :=
  [(0, serve smallSessions (threeRequests 0) settingHandler), (1, serve smallSessions (threeRequests 1) rotatingHandler),
    (2, serve smallSessions (threeRequests 2) fun _ => pure ⟨[], []⟩)]

theorem threeThreads_start (M : Machine ServerAction ℕ ℕ Server) :
    Run M (anyRequest smallSessions threeRequests) ⟨.new 0 1, []⟩ ⟨.new 0 1, threeThreads⟩ :=
  .head (.start ⟨_, rfl⟩) (.head (.start ⟨_, rfl⟩) (.single (.start ⟨_, rfl⟩)))

def actions (thread count now : ℕ) : List (ℕ × ℕ) := List.replicate count (thread, now)

/-- Request 1 moves the session from `x` to `xx`. The cookie for `xx` is sent to request 2, and request 1 is told to
delete its cookie. -/
theorem concurrent_request_gets_new_id : ∃ c : Config ServerAction ℕ Server Unit,
    Run (serverMachine smallConfig) (anyRequest smallSessions threeRequests) ⟨.new 0 1, []⟩ c ∧
    c.shared.rotated = [(1, "x", "xx", 2)] ∧ c.shared.assigned = [(1, "x"), (2, "x"), (0, "x")] ∧
    c.shared.sent.map (fun x => (x.1, x.2.signed)) = [(1, none), (2, some "xx"), (0, some "x")] := by
  refine (threeThreads_start _).exists_perform
    (actions 0 17 1 ++ actions 2 4 2 ++ actions 1 10 2 ++ actions 2 4 3 ++ actions 1 4 3) ?_
  decide +kernel

/-- Request 2 returns from its handler when request 1 has been answered: the cookie for `xx` is sent to request 1. -/
theorem rotation_stays_with_request_one : ∃ c : Config ServerAction ℕ Server Unit,
    Run (orderlyMachine smallConfig) (anyRequest smallSessions threeRequests) ⟨.new 0 1, []⟩ c ∧
    c.shared.rotated = [(1, "x", "xx", 2)] ∧
    c.shared.sent.map (fun x => (x.1, x.2.signed)) = [(2, none), (1, some "xx"), (0, some "x")] ∧
    ∀ x ∈ c.shared.sent, Answered smallSessions (threeRequests x.1) c.shared x.1 x.2 := by
  obtain ⟨c, hrun, hrotated, hsent⟩ := (threeThreads_start (orderlyMachine smallConfig)).exists_perform
    (P := fun c => c.shared.rotated = [(1, "x", "xx", 2)] ∧
      c.shared.sent.map (fun x => (x.1, x.2.signed)) = [(2, none), (1, some "xx"), (0, some "x")])
    (actions 0 17 1 ++ actions 2 4 2 ++ actions 1 14 2 ++ actions 2 4 3) (by decide +kernel)
  exact ⟨c, hrun, hrotated, hsent, @rotation_stays_with_request smallSessions threeRequests 0 1 c hrun⟩

end RustRest
