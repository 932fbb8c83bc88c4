import RustRest.Session.Sections

/-!
# The calls of `Sessions`

The methods of `Sessions` that a handler can call, as programs on the store.
-/

namespace RustRest

open FiniteMap Threads Threads.Prog

namespace Sessions

variable (cfg : SessionsConfig)

def rotateOrCreate (sessionId newId : String) : Prog StoreAction Bool := do
  let rotated ← SessionStore.rotate cfg sessionId newId
  if rotated then pure true else SessionStore.create cfg newId

def recordRotation (oldId newId : String) : Prog StoreAction Unit := do
  let now ← perform .clock
  perform (.recordRotation oldId newId now)

def recordIf (admitted : Bool) (sessionId newId : String) : Prog StoreAction (Except SessionDataError String) :=
  if admitted then do
    recordRotation sessionId newId
    pure (.ok newId)
  else pure (.error ⟨.sessionUnavailable, none⟩)

/-- `Sessions::regenerate` behind `generate_id`. -/
def regenerateAs (sessionId newId : String) : Prog StoreAction (Except SessionDataError String) := do
  let admitted ← rotateOrCreate cfg sessionId newId
  recordIf admitted sessionId newId

/-- The session moves to a new id, and the move is recorded. -/
def regenerate (sessionId : String) : Prog StoreAction (Except SessionDataError String) := do
  let newId ← perform .generateId
  regenerateAs cfg sessionId newId

end Sessions

/-- The calls of a handler. -/
inductive SessionCall : Type → Type where
  | get (sessionId key : String) : SessionCall (Option String)
  | set (sessionId key value : String) : SessionCall (Except SessionDataError Unit)
  | remove (sessionId key : String) : SessionCall Unit
  | clear (sessionId : String) : SessionCall Unit
  | regenerate (sessionId : String) : SessionCall (Except SessionDataError String)
  | len : SessionCall ℕ

def SessionCall.prog (cfg : SessionsConfig) : {β : Type} → SessionCall β → Prog StoreAction β
  | _, get id key => SessionStore.get id key
  | _, set id key value => SessionStore.set cfg id key value
  | _, remove id key => SessionStore.remove id key
  | _, clear id => SessionStore.clear id
  | _, regenerate id => Sessions.regenerate cfg id
  | _, len => SessionStore.liveLen

/-! ## What the programs do not do -/

namespace StoreAction

/-- The action puts an entry in for an id. -/
def Inserts (id : String) : {β : Type} → StoreAction β → Prop
  | _, .admitSession id' _ => id' = id
  | _, .move id' _ => id' = id
  | _, _ => False

def Moves : {β : Type} → StoreAction β → Prop
  | _, .move _ _ => True
  | _, _ => False

def OnRotations : {β : Type} → StoreAction β → Prop
  | _, .recordRotation _ _ _ => True
  | _, .takeRotation _ => True
  | _, .generateId => True
  | _, _ => False

def Confined (ids : Set String) {β : Type} (a : StoreAction β) : Prop := ¬a.OnRotations ∧ ∀ id, a.Inserts id → id ∈ ids

/-- The same, and the action moves no entry. -/
def Settled (ids : Set String) {β : Type} (a : StoreAction β) : Prop := a.Confined ids ∧ ¬a.Moves

end StoreAction

/-- So do all actions the program can come to. -/
def Confined {α : Type} (ids : Set String) (p : Prog StoreAction α) : Prop := p.All (StoreAction.Confined ids)

/-- So are all actions the program can come to. -/
def Settled {α : Type} (ids : Set String) (p : Prog StoreAction α) : Prop := p.All (StoreAction.Settled ids)

section Confined

variable {cfg : SessionsConfig} {ids : Set String} {α β γ : Type}

theorem Confined.bind {p : Prog StoreAction α} {f : α → Prog StoreAction γ} (hp : Confined ids p)
    (hf : ∀ r, Confined ids (f r)) : Confined ids (p >>= f) :=
  All.bind hp hf

theorem confined_act {a : StoreAction β} {f : β → Prog StoreAction γ} (ha : a.Confined ids)
    (hf : ∀ r, Confined ids (f r)) : Confined ids (perform a >>= f) :=
  ⟨ha, hf⟩

theorem Settled.confined {p : Prog StoreAction α} (h : Settled ids p) : Confined ids p := All.imp (fun _ ha => ha.1) h

theorem Settled.bind {p : Prog StoreAction α} {f : α → Prog StoreAction γ} (hp : Settled ids p)
    (hf : ∀ r, Settled ids (f r)) : Settled ids (p >>= f) :=
  All.bind hp hf

theorem settled_act {a : StoreAction β} {f : β → Prog StoreAction γ} (ha : a.Settled ids)
    (hf : ∀ r, Settled ids (f r)) : Settled ids (perform a >>= f) :=
  ⟨ha, hf⟩

namespace SessionStore

theorem settled_cleanupShards (now : ℕ) (first : Fin sessionStoreShards) :
    ∀ rest remaining removed, Settled ids (cleanupShards now first rest remaining removed)
  | [], _, _ => trivial
  | _ :: rest, _, _ => by
    refine settled_act ⟨⟨nofun, nofun⟩, nofun⟩ fun n => ?_
    split
    · trivial
    · exact settled_cleanupShards now first rest _ _

theorem settled_countOff (n : ℕ) : Settled ids (countOff n) := by
  unfold countOff
  split
  · exact ⟨⟨⟨nofun, nofun⟩, nofun⟩, fun _ => trivial⟩
  · trivial

theorem settled_cleanupExpiredBatch (now : ℕ) (m : StoreMaintenance) : Settled ids (cleanupExpiredBatch cfg now m) :=
  (settled_cleanupShards now _ _ _ _).bind fun _ => (settled_countOff _).bind fun _ => trivial

theorem settled_createMissing (id : String) (now : ℕ) (m : StoreMaintenance) :
    Settled {id} (createMissing cfg id now m) := by
  refine Settled.bind ?_ fun result => settled_act ⟨⟨nofun, nofun⟩, nofun⟩ fun entries => Settled.bind ?_ fun m =>
    settled_act ⟨⟨nofun, nofun⟩, nofun⟩ fun entries => ?_
  · unfold cleanupIfNeeded
    split
    · trivial
    · exact (settled_cleanupExpiredBatch now m).bind fun _ => trivial
  · unfold cleanupIfFull
    split
    · exact settled_cleanupExpiredBatch now _
    · trivial
  · unfold admitUnlessFull
    split
    · exact settled_act ⟨⟨nofun, nofun⟩, nofun⟩ fun _ => trivial
    · refine settled_act ⟨⟨nofun, fun _ h => h.symm⟩, nofun⟩ fun _ => ?_
      exact settled_act ⟨⟨nofun, nofun⟩, nofun⟩ fun _ => trivial

theorem settled_create (id : String) : Settled {id} (create cfg id) := by
  refine settled_act ⟨⟨nofun, nofun⟩, nofun⟩ fun now => settled_act ⟨⟨nofun, nofun⟩, nofun⟩ fun m =>
    settled_act ⟨⟨nofun, nofun⟩, nofun⟩ fun renewed => ?_
  cases renewed with
  | true => exact settled_act ⟨⟨nofun, nofun⟩, nofun⟩ fun _ => trivial
  | false => exact settled_createMissing id now m

theorem settled_resume (id : String) : Settled ids (resume id) :=
  settled_act ⟨⟨nofun, nofun⟩, nofun⟩ fun _ => ⟨⟨⟨nofun, nofun⟩, nofun⟩, fun _ => trivial⟩

theorem settled_get (id key : String) : Settled ids (get id key) :=
  settled_act ⟨⟨nofun, nofun⟩, nofun⟩ fun _ => ⟨⟨⟨nofun, nofun⟩, nofun⟩, fun _ => trivial⟩

theorem settled_remove (id key : String) : Settled ids (remove id key) :=
  settled_act ⟨⟨nofun, nofun⟩, nofun⟩ fun _ => ⟨⟨⟨nofun, nofun⟩, nofun⟩, fun _ => trivial⟩

theorem settled_set (id key value : String) : Settled {id} (set cfg id key value) := by
  unfold set
  split
  · trivial
  · refine Settled.bind ((settled_resume id).bind fun resumed => ?_) fun available => ?_
    · cases resumed with
      | true => trivial
      | false => exact settled_create id
    · cases available with
      | true => exact ⟨⟨⟨nofun, nofun⟩, nofun⟩, fun _ => trivial⟩
      | false => trivial

theorem settled_clear (id : String) : Settled ids (clear id) := by
  refine settled_act ⟨⟨nofun, nofun⟩, nofun⟩ fun entry => ?_
  split
  · exact ⟨⟨⟨nofun, nofun⟩, nofun⟩, fun _ => trivial⟩
  · trivial

theorem confined_rotate (old new : String) : Confined {new} (rotate cfg old new) := by
  refine confined_act ⟨nofun, nofun⟩ fun now => confined_act ⟨nofun, nofun⟩ fun entry => ?_
  cases entry with
  | none => trivial
  | some entry =>
    unfold moveTo
    dsimp only
    split
    · exact confined_act ⟨nofun, nofun⟩ fun _ => trivial
    · exact confined_act ⟨nofun, fun _ h => h.symm⟩ fun _ => trivial

theorem settled_sweepShards (now : ℕ) : ∀ rest removed, Settled ids (sweepShards now rest removed)
  | [], _ => trivial
  | _ :: rest, _ => settled_act ⟨⟨nofun, nofun⟩, nofun⟩ fun _ => settled_sweepShards now rest _

theorem settled_liveLen : Settled ids liveLen :=
  settled_act ⟨⟨nofun, nofun⟩, nofun⟩ fun now => (settled_sweepShards now _ _).bind fun _ =>
    (settled_countOff _).bind fun _ => ⟨⟨⟨nofun, nofun⟩, nofun⟩, fun _ => trivial⟩

end SessionStore

theorem Sessions.confined_rotateOrCreate (old new : String) : Confined {new} (Sessions.rotateOrCreate cfg old new) := by
  refine (SessionStore.confined_rotate old new).bind fun rotated => ?_
  cases rotated with
  | true => trivial
  | false => exact (SessionStore.settled_create new).confined

end Confined

end RustRest
