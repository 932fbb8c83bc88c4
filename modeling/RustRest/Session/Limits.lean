import RustRest.Session.Invalidate
import RustRest.Session.Plain

/-!
# The limits of a session

`SessionStore::set` writes a value if the session stays within its limits. The sizes are counted in checked arithmetic,
which for data within the limits is exact.

Main result: **`set_effect`**.
-/

namespace RustRest

open FiniteMap Threads Threads.Prog

/-! ## Sizes -/

/-- The summed sizes of keys and values. -/
def totalBytes (data : SessionData) : ℕ := (data.entries.map fun e => e.1.utf8ByteSize + e.2.utf8ByteSize).sum

def replacedBytes (data : SessionData) (key : String) : ℕ :=
  match data.lookup key with
  | some oldValue => key.utf8ByteSize + oldValue.utf8ByteSize
  | none => 0

/-- Data within the limits. -/
structure Within (limits : SessionDataLimits) (data : SessionData) : Prop where
  entries : data.keys.card ≤ limits.entries
  bytes : totalBytes data ≤ limits.totalBytes
  fits : totalBytes data ≤ usizeMax

theorem dataBytes_eq (data : SessionData) : dataBytes data = checkedUsize (totalBytes data) := rfl

theorem totalBytes_insert_of_notMem {data : SessionData} {key : String} (h : key ∉ data) (value : String) :
    totalBytes (data.insert key value) = totalBytes data + (key.utf8ByteSize + value.utf8ByteSize) := by
  unfold totalBytes
  rw [Finmap.entries_insert_of_notMem h, Multiset.map_cons, Multiset.sum_cons, Nat.add_comm]

theorem totalBytes_of_lookup {data : SessionData} {key old : String} (h : data.lookup key = some old) :
    totalBytes data = totalBytes (data.erase key) + (key.utf8ByteSize + old.utf8ByteSize) := by
  conv_lhs => rw [← insert_erase h]
  exact totalBytes_insert_of_notMem (Finmap.notMem_erase_self) old

theorem totalBytes_erase_le (data : SessionData) (key : String) : totalBytes (data.erase key) ≤ totalBytes data := by
  cases h : data.lookup key with
  | none =>
    rw [erase_of_lookup h]
  | some old =>
    rw [totalBytes_of_lookup h]
    exact Nat.le_add_right _ _

theorem replacedBytes_le (data : SessionData) (key : String) : replacedBytes data key ≤ totalBytes data := by
  unfold replacedBytes
  split
  · next old h =>
    rw [totalBytes_of_lookup h]
    exact Nat.le_add_left _ _
  · exact Nat.zero_le _

theorem totalBytes_insert (data : SessionData) (key value : String) : totalBytes (data.insert key value) =
    totalBytes data - replacedBytes data key + key.utf8ByteSize + value.utf8ByteSize := by
  unfold replacedBytes
  split
  · next old h =>
    have hinsert : data.insert key value = (data.erase key).insert key value := by
      conv_lhs => rw [← insert_erase h]
      exact Finmap.insert_insert _
    rw [hinsert, totalBytes_insert_of_notMem Finmap.notMem_erase_self, totalBytes_of_lookup h]
    omega
  · next h =>
    rw [totalBytes_insert_of_notMem (Finmap.lookup_eq_none.1 h)]
    omega

theorem checkedUsize_bind (total size limit : ℕ) :
    ((checkedUsize total).bind fun total => (checkedUsize (total + size)).filter fun total => total ≤ limit) =
      if total + size ≤ limit ∧ total + size ≤ usizeMax then some (total + size) else none := by
  unfold checkedUsize
  by_cases htotal : total ≤ usizeMax
  · rw [if_pos htotal, Option.bind_some]
    by_cases hsize : total + size ≤ usizeMax
    · simp [hsize, Option.filter]
    · simp [hsize]
  · rw [if_neg htotal, if_neg (by omega)]
    rfl

theorem writeValue_of_fits {limits : SessionDataLimits} {key : String} {data : SessionData} (value : String)
    (hplace : key ∈ data ∨ data.keys.card < limits.entries) (hfits : totalBytes data ≤ usizeMax) :
    writeValue limits key value data =
      if totalBytes (data.insert key value) ≤ limits.totalBytes ∧ totalBytes (data.insert key value) ≤ usizeMax then
        .ok (data.insert key value)
      else .error ⟨.sessionTooLarge, some limits.totalBytes⟩ := by
  have hle := replacedBytes_le data key
  have hfree : ¬ (key ∉ data ∧ data.keys.card ≥ limits.entries) := by
    rintro ⟨hkey, hcard⟩
    exact hplace.elim hkey (Nat.not_lt.2 hcard)
  rw [totalBytes_insert]
  unfold writeValue
  rw [if_neg hfree, dataBytes_eq, checkedUsize, if_pos hfits]
  cases hlookup : data.lookup key with
  | none =>
    have hreplaced : replacedBytes data key = 0 := by rw [replacedBytes, hlookup]
    dsimp only
    rw [hreplaced, if_neg (Nat.not_lt_zero _), checkedUsize_bind]
    split_ifs <;> rfl
  | some old =>
    have hreplaced : replacedBytes data key = key.utf8ByteSize + old.utf8ByteSize := by rw [replacedBytes, hlookup]
    rw [hreplaced] at hle ⊢
    dsimp only
    rw [if_neg (Nat.not_lt.2 hle), checkedUsize_bind]
    split_ifs <;> rfl

theorem writeValue_eq_ok {limits : SessionDataLimits} {key value : String} {data data' : SessionData} :
    writeValue limits key value data = .ok data' ↔ data' = data.insert key value ∧
      (key ∈ data ∨ data.keys.card < limits.entries) ∧ totalBytes data ≤ usizeMax ∧
      totalBytes (data.insert key value) ≤ limits.totalBytes ∧ totalBytes (data.insert key value) ≤ usizeMax := by
  by_cases hplace : key ∈ data ∨ data.keys.card < limits.entries
  · by_cases hfits : totalBytes data ≤ usizeMax
    · rw [writeValue_of_fits value hplace hfits]
      split_ifs with hsize
      · simp [hplace, hfits, hsize, eq_comm]
      · constructor
        · intro h
          cases h
        · exact fun h => absurd h.2.2.2 hsize
    · have herror : writeValue limits key value data ≠ .ok data' := by
        intro hok
        unfold writeValue at hok
        rw [dataBytes_eq, checkedUsize, if_neg hfits] at hok
        split_ifs at hok
      simp [herror, hfits]
  · have hfull : key ∉ data ∧ data.keys.card ≥ limits.entries := by
      rw [not_or, Nat.not_lt] at hplace
      exact hplace
    have herror : writeValue limits key value data ≠ .ok data' := by
      intro hok
      unfold writeValue at hok
      rw [if_pos hfull] at hok
      cases hok
    simp [herror, hplace]

theorem Within.writeValue {limits : SessionDataLimits} {key value : String} {data data' : SessionData}
    (h : Within limits data) (hwrite : writeValue limits key value data = .ok data') : Within limits data' := by
  obtain ⟨rfl, hplace, -, hbytes, hfits⟩ := writeValue_eq_ok.1 hwrite
  refine ⟨?_, hbytes, hfits⟩
  have hcard := card_keys_of_lookup (m := data) fun k => lookup_insert_eq data key value k
  have hentries := h.entries
  cases hlookup : data.lookup key with
  | none =>
    have hroom := hplace.resolve_left (Finmap.lookup_eq_none.1 hlookup)
    rw [hlookup, Option.elim_none, Option.elim_some] at hcard
    omega
  | some old =>
    rw [hlookup, Option.elim_some, Option.elim_some] at hcard
    omega

theorem within_empty (limits : SessionDataLimits) : Within limits ∅ := ⟨Nat.zero_le _, Nat.zero_le _, Nat.zero_le _⟩

theorem Within.erase {limits : SessionDataLimits} {data : SessionData} (h : Within limits data) (key : String) :
    Within limits (data.erase key) := by
  have hbytes := totalBytes_erase_le data key
  refine ⟨?_, le_trans hbytes h.bytes, le_trans hbytes h.fits⟩
  rw [Finmap.keys_erase]
  exact le_trans (Finset.card_erase_le) h.entries

theorem writeValue_empty {limits : SessionDataLimits} {key value : String} (hentries : 0 < limits.entries)
    (hvalid : validateSessionValue key value limits = .ok ()) :
    writeValue limits key value ∅ = .ok (Finmap.insert key value ∅) := by
  have hsize : key.utf8ByteSize + value.utf8ByteSize ≤ usizeMax ∧
      key.utf8ByteSize + value.utf8ByteSize ≤ limits.totalBytes := by
    unfold validateSessionValue checkedUsize at hvalid
    split_ifs at hvalid with hempty hkey hvalue hfits
    dsimp only at hvalid
    split_ifs at hvalid with hlimit
    exact ⟨hfits, Nat.le_of_not_lt hlimit⟩
  have hbytes : totalBytes (Finmap.insert key value ∅) = key.utf8ByteSize + value.utf8ByteSize := by
    rw [totalBytes_insert_of_notMem Finmap.notMem_empty]
    exact Nat.zero_add _
  exact writeValue_eq_ok.2 ⟨rfl, .inr hentries, Nat.zero_le _, hbytes ▸ hsize.2, hbytes ▸ hsize.1⟩

/-! ## In every interleaving -/

namespace SessionStore

variable {cfg : SessionsConfig} {s s' : SessionStore} {id : String}

/-- All sessions are within their limits. -/
def Bounded (cfg : SessionsConfig) (s : SessionStore) : Prop :=
  ∀ id entry, s.lookup cfg id = some entry → Within cfg.limits entry.data

theorem Bounded.put {new : Option SessionEntry} (h : Bounded cfg s) (hput : Put cfg s s' id new)
    (hnew : ∀ entry, new = some entry → Within cfg.limits entry.data) : Bounded cfg s' := by
  intro id' entry hentry
  rw [hput.lookup_eq] at hentry
  split at hentry
  · exact hnew entry hentry
  · exact h id' entry hentry

theorem Bounded.drop (h : Bounded cfg s) (hput : Put cfg s s' id none) : Bounded cfg s' :=
  h.put hput fun _ hnone => by cases hnone

theorem Bounded.touch (h : Bounded cfg s) (id : String) (now : ℕ) : Bounded cfg (s.touch cfg id now).2 := by
  obtain ⟨entry, s₁, -, -, hput, htouch⟩ | ⟨-, htouch⟩ | ⟨entry, s₁, hentry, -, hput, htouch⟩ := touch_cases cfg s id now
  · have h₁ : Bounded cfg s₁ := h.drop hput
    rw [htouch]
    exact h₁
  · rw [htouch]
    exact h
  · rw [htouch]
    exact h.put hput fun _ hnew => Option.some.inj hnew ▸ h id entry hentry

theorem Bounded.removeSection (h : Bounded cfg s) (id key : String) (now : ℕ) :
    Bounded cfg (s.removeSection cfg id key now) := by
  obtain ⟨-, heq⟩ | ⟨entry, hentry, -, hput⟩ := removeSection_cases cfg s id key now
  · rw [heq]
    exact h.touch id now
  · exact h.put hput fun _ hnew => Option.some.inj hnew ▸ (h id entry hentry).erase key

theorem Bounded.writeSection (h : Bounded cfg s) (id key value : String) (now : ℕ) :
    Bounded cfg (s.writeSection cfg id key value now).2 := by
  obtain ⟨entry, s₁, -, -, hput, heq⟩ | ⟨-, heq⟩ | ⟨entry, error, -, -, -, heq⟩ |
    ⟨entry, data, s₁, hentry, -, hwrite, hput, heq⟩ := writeSection_cases cfg s id key value now
  · have h₁ : Bounded cfg s₁ := h.drop hput
    rw [heq]
    exact h₁
  · rw [heq]
    exact h
  · rw [heq]
    exact h
  · rw [heq]
    exact h.put hput fun _ hnew => Option.some.inj hnew ▸ (h id entry hentry).writeValue hwrite

theorem Bounded.admitSection (h : Bounded cfg s) (id : String) (now : ℕ) : Bounded cfg (s.admitSection cfg id now) := by
  obtain ⟨s₁, hput, heq⟩ := admitSection_cases cfg s id now
  have h₁ : Bounded cfg s₁ := h.put hput fun _ hnew => Option.some.inj hnew ▸ within_empty cfg.limits
  rw [heq]
  split
  · exact h₁
  · exact h₁

theorem Bounded.moveSection (h : Bounded cfg s) (id : String) {entry : SessionEntry}
    (hentry : Within cfg.limits entry.data) : Bounded cfg (s.moveSection cfg id entry) := by
  obtain ⟨s₁, hput, heq⟩ := moveSection_cases cfg s id entry
  have h₁ : Bounded cfg s₁ := h.put hput fun _ hnew => Option.some.inj hnew ▸ hentry
  rw [heq]
  split
  · exact h₁
  · exact h₁

theorem Bounded.cleaned {now n : ℕ} (h : Bounded cfg s) (hclean : Cleaned cfg s s' now n) : Bounded cfg s' := by
  intro id entry hentry
  rcases hclean.lookup_eq id with heq | ⟨hnone, -⟩
  · exact h id entry (heq ▸ hentry)
  · rw [hnone] at hentry
    cases hentry

theorem exec_bounded {β : Type} (a : StoreAction β) {now : ℕ} {r : β} (hexec : a.exec cfg now s = some (r, s'))
    (hexact : s.Exact) (h : Bounded cfg s) (hmove : ¬a.Moves) : Bounded cfg s' := by
  cases a with
  | clock | load | generateId | fetchSub | unlock | takeRotation =>
    cases hexec
    exact h
  | recordRotation old new t =>
    cases hexec
    unfold recordRotation
    dsimp only
    split <;> exact h
  | lock =>
    replace hexec : (if s.locked then none else some (s.maintenance, { s with locked := true })) = some (r, s') := hexec
    obtain ⟨-, heq⟩ := Option.ite_none_left_eq_some.1 hexec
    cases heq
    exact h
  | resume id t =>
    obtain rfl := congrArg Prod.snd (Option.some.inj hexec)
    exact h.touch id t
  | probe id t =>
    obtain rfl := congrArg Prod.snd (Option.some.inj hexec)
    rw [probeSection_eq_touch]
    exact h.touch id t
  | get id key t =>
    obtain rfl := congrArg Prod.snd (Option.some.inj hexec)
    rw [getSection_eq]
    exact h.touch id t
  | remove id key t =>
    cases hexec
    exact h.removeSection id key t
  | write id key value =>
    obtain rfl := congrArg Prod.snd (Option.some.inj hexec)
    exact h.writeSection id key value now
  | take id =>
    obtain rfl := congrArg Prod.snd (Option.some.inj hexec)
    obtain ⟨s₁, hput, heq⟩ := takeSection_cases cfg s id
    rw [heq]
    exact h.drop hput
  | sweep index t maximum =>
    obtain rfl := congrArg Prod.snd (Option.some.inj hexec)
    obtain ⟨n, s₁, hsweep, hclean, -⟩ := sweepSection_cases cfg hexact index t maximum
    rw [hsweep]
    exact h.cleaned hclean
  | admitSession id t =>
    cases hexec
    exact h.admitSection id t
  | move id entry => exact absurd trivial hmove

section Uses

variable {L α : Type} {l : L}

def Sound (cfg : SessionsConfig) (s : SessionStore) (_ : Unit) : Prop := s.Exact ∧ Bounded cfg s

theorem Sound.exec {β : Type} {a : StoreAction β} (hmove : ¬a.Moves) {now : ℕ} {r : β} {d : Unit}
    (hexec : (storeMachine cfg L).exec a l now s = some (r, s')) (h : Sound cfg s d) : Sound cfg s' d :=
  ⟨(exec_shrinks a hexec h.1).1, exec_bounded a hexec h.1 h.2 hmove⟩

theorem keeps_settled {ids : Set String} {p : Prog StoreAction α} (h : Settled ids p) :
    p.Keeps (storeMachine cfg L) (Sound cfg) l () fun _ _ => True :=
  (All.keeps h (fun _ _ _ _ _ _ ha hexec hI => hI.exec ha.2 hexec) ()).imp fun _ _ _ => trivial

theorem keeps_rotate (old new : String) :
    (rotate cfg old new).Keeps (storeMachine cfg L) (Sound cfg) l () fun _ _ => True := by
  intro now s t s' _ hclock hI
  refine ⟨(), hI.exec (a := .clock) nofun hclock, ?_⟩
  intro now s entry s' _ htake hI
  refine ⟨(), hI.exec (a := .take old) nofun htake, ?_⟩
  have hentry : s.lookup cfg old = entry := by
    obtain ⟨s₁, -, heq⟩ := takeSection_cases cfg s old
    exact (congrArg Prod.fst heq).symm.trans (congrArg Prod.fst (Option.some.inj htake))
  cases entry with
  | none => trivial
  | some entry =>
    show (moveTo cfg new t (some entry)).Keeps _ _ l () _
    unfold moveTo
    dsimp only
    split
    · intro now s r s' _ hsub hI
      exact ⟨(), hI.exec (a := .fetchSub 1) nofun hsub, trivial⟩
    · intro now s₁ r s₂ _ hmove hI₁
      cases hmove
      exact ⟨(), ⟨(moveSection_put cfg s₁ new _).1 hI₁.1, hI₁.2.moveSection new (hI.2 old entry hentry)⟩, trivial⟩

theorem keeps_recordIf (admitted : Bool) (id newId : String) :
    (Sessions.recordIf admitted id newId).Keeps (storeMachine cfg L) (Sound cfg) l () fun _ _ => True := by
  cases admitted with
  | false => trivial
  | true =>
    intro now s t s' _ hclock hI
    refine ⟨(), hI.exec (a := .clock) nofun hclock, ?_⟩
    intro now s r s' _ hrecord hI
    exact ⟨(), hI.exec (a := .recordRotation id newId t) nofun hrecord, trivial⟩

theorem keeps_use (use : SessionUse) :
    (use.prog cfg).Keeps (storeMachine cfg L) (Sound cfg) l () fun _ _ => True := by
  have hsettled : ∀ {ids : Set String} {α : Type} {p : Prog StoreAction α}, Settled ids p →
      (p >>= fun _ => pure ()).Keeps (storeMachine cfg L) (Sound cfg) l () fun (_ : Unit) _ => True :=
    fun h => keeps_settled (h.bind fun _ => trivial)
  cases use with
  | get id key => exact hsettled (@settled_get ∅ id key)
  | set id key value => exact hsettled (settled_set id key value)
  | remove id key => exact keeps_settled (@settled_remove ∅ id key)
  | clear id => exact keeps_settled (@settled_clear ∅ id)
  | regenerate id newId =>
    have hrecord : ∀ admitted : Bool, (Sessions.recordIf admitted id newId >>= fun _ => pure ()).Keeps
        (storeMachine cfg L) (Sound cfg) l () fun (_ : Unit) _ => True :=
      fun admitted => Keeps.bind ((keeps_recordIf admitted id newId).imp fun _ _ _ => trivial)
    show ((Sessions.rotateOrCreate cfg id newId >>= fun admitted => Sessions.recordIf admitted id newId) >>=
      fun _ => pure ()).Keeps _ _ l () _
    rw [bind_assoc]
    refine Keeps.bind (Keeps.bind ((keeps_rotate id newId).imp fun rotated _ _ => ?_))
    cases rotated with
    | true => exact hrecord true
    | false => exact (keeps_settled (settled_create newId)).imp fun admitted _ _ => hrecord admitted
  | len => exact hsettled (@settled_liveLen ∅)
  | resume id => exact hsettled (@settled_resume ∅ id)
  | takeRotation id =>
    intro now s r s' _ htake hI
    exact ⟨(), hI.exec (a := .takeRotation id) nofun htake, trivial⟩

theorem neutral_recordRotation (old new : String) (t : ℕ) : Neutral cfg (.recordRotation old new t) := by
  intro now s r s' d hexec h
  cases hexec
  unfold recordRotation
  dsimp only
  split
  · exact ⟨h.exact, h.placed, h.entries_eq, h.entries_le, h.locked_eq, h.wrapped_eq, h.inexact_eq⟩
  · exact ⟨h.exact, h.placed, h.entries_eq, h.entries_le, h.locked_eq, h.wrapped_eq, h.inexact_eq⟩

theorem neutral_takeRotation (old : String) : Neutral cfg (.takeRotation old) := by
  intro now s r s' d hexec h
  cases hexec
  exact ⟨h.exact, h.placed, h.entries_eq, h.entries_le, h.locked_eq, h.wrapped_eq, h.inexact_eq⟩

theorem balanced_regenerateAs (id newId : String) : Balanced cfg l 0 (Sessions.regenerateAs cfg id newId) := by
  refine Balanced.bind ((balanced_rotate id newId).bind fun rotated => ?_) fun admitted => ?_
  · cases rotated with
    | true => rfl
    | false => exact balanced_create newId
  · cases admitted with
    | true =>
      refine Balanced.bind ((balanced_neutral neutral_clock).bind fun t => ?_) fun _ => rfl
      exact balanced_neutral (neutral_recordRotation id newId t)
    | false => rfl

theorem balanced_use (use : SessionUse) : Balanced cfg l 0 (use.prog cfg) := by
  cases use with
  | get id key =>
    exact ((balanced_neutral neutral_clock).bind fun t => balanced_neutral (neutral_get id key t)).bind fun _ => rfl
  | set id key value => exact (balanced_set id key value).bind fun _ => rfl
  | remove id key => exact (balanced_neutral neutral_clock).bind fun t => balanced_neutral (neutral_remove id key t)
  | clear id => exact balanced_clear id
  | regenerate id newId => exact (balanced_regenerateAs id newId).bind fun _ => rfl
  | len => exact balanced_liveLen.bind fun _ => rfl
  | resume id => exact (balanced_resume id).bind fun _ => rfl
  | takeRotation id => exact (balanced_neutral (neutral_takeRotation id)).bind fun _ => rfl

end Uses

theorem sound_new (cfg : SessionsConfig) (now sessionCounter : ℕ) : Sound cfg (new now sessionCounter) () := by
  refine ⟨fun _ => SessionShard.exact_empty, fun id entry hentry => ?_⟩
  have hnone : (new now sessionCounter).lookup cfg id = none := Finmap.lookup_empty _
  rw [hnone] at hentry
  cases hentry

def Reached (cfg : SessionsConfig) (s : SessionStore) : Prop :=
  ∃ start sessionCounter threads, Run (storeMachine cfg SessionUse) (anyUse cfg) ⟨.new start sessionCounter, []⟩
    ⟨s, threads⟩ ∧ ∀ t ∈ threads, ∃ r, t.2 = .done r

theorem Reached.exists_perform (cfg : SessionsConfig) {P : SessionStore → Prop} [DecidablePred P] (use : SessionUse)
    (schedule : List (ℕ × ℕ))
    (h : ((⟨.new 0 1, [(use, use.prog cfg)]⟩ : Config StoreAction SessionUse SessionStore Unit).perform
      (storeMachine cfg SessionUse) schedule).any (fun c => decide ((∀ t ∈ c.threads, t.2.isDone) ∧ P c.shared)) = true) :
    ∃ s, Reached cfg s ∧ P s := by
  have hstart : Run (storeMachine cfg SessionUse) (anyUse cfg) ⟨.new 0 1, []⟩ ⟨.new 0 1, [(use, use.prog cfg)]⟩ :=
    .single (.start rfl)
  obtain ⟨c, hrun, hdone, hP⟩ := hstart.exists_perform schedule h
  exact ⟨c.shared, ⟨0, 1, c.threads, hrun, fun t ht => eq_done_of_isDone (hdone t ht)⟩, hP⟩

theorem Reached.sound (h : Reached cfg s) : Counted cfg s 0 ∧ Bounded cfg s := by
  obtain ⟨start, sessionCounter, threads, hrun, hdone⟩ := h
  have hcounted : Owned (storeMachine cfg SessionUse) (Counted cfg) (fun (_ : Unit) d => d = 0)
      ⟨.new start sessionCounter, []⟩ [] := ⟨.nil, counted_new cfg start sessionCounter⟩
  have hsound : Owned (storeMachine cfg SessionUse) (Sound cfg) (fun (_ : Unit) _ => True)
      ⟨.new start sessionCounter, []⟩ [] := ⟨.nil, sound_new cfg start sessionCounter⟩
  obtain ⟨ds, howned⟩ := hcounted.run (by rintro s l p rfl; exact balanced_use l) hrun
  obtain ⟨ds', howned'⟩ := hsound.run (by rintro s l p rfl; exact keeps_use l) hrun
  exact ⟨howned.finished hdone fun _ _ h => h, howned'.2.2⟩

end SessionStore

/-! ## The plain map -/

namespace PlainSessions

variable {cfg : SessionsConfig} {now : ℕ} {m : PlainSessions}

def data (now : ℕ) (m : PlainSessions) (id : String) : Option SessionData := (m.session now id).map SessionEntry.data

theorem data_insert (m : PlainSessions) (id : String) (entry : SessionEntry) (id' : String) :
    data now (m.insert id entry) id' =
      if id' = id then (if now < entry.expiresAt then some entry.data else none) else data now m id' := by
  unfold data session
  rw [lookup_insert_eq]
  split
  · split
    · next hlt => rw [live_some_iff.2 ⟨rfl, hlt⟩, Option.map_some]
    · next hge => rw [live_eq_none (Nat.le_of_not_lt hge), Option.map_none]
  · rfl

theorem create_cases (cfg : SessionsConfig) (now : ℕ) (m : PlainSessions) (id : String) :
    m.create cfg now id = (true, m.insert id ⟨(data now m id).getD ∅, cfg.expiry now⟩) ∨
      m.create cfg now id = (false, m) := by
  unfold create data
  cases m.session now id with
  | some entry => exact .inl rfl
  | none =>
    dsimp only
    split
    · exact .inl rfl
    · exact .inr rfl

theorem set_cases (hentries : 0 < cfg.limits.entries) (now : ℕ) (m : PlainSessions) (id key value : String) :
    (∃ new, (m.set cfg now id key value).1 = .ok () ∧
      writeValue cfg.limits key value ((data now m id).getD ∅) = .ok new ∧
      ∀ id', data now (m.set cfg now id key value).2 id' = if id' = id then some new else data now m id') ∨
    (∃ error, (m.set cfg now id key value).1 = .error error ∧
      ∀ id', data now (m.set cfg now id key value).2 id' = data now m id') ∨
    ∃ error, (m.set cfg now id key value).1 = .error error ∧ cfg.expiry now ≤ now ∧
      ∀ id', data now (m.set cfg now id key value).2 id' = if id' = id then none else data now m id' := by
  unfold set
  cases hvalid : validateSessionValue key value cfg.limits with
  | error error => exact .inr (.inl ⟨error, rfl, fun _ => rfl⟩)
  | ok _ =>
    dsimp only
    rcases create_cases cfg now m id with hcreate | hcreate
    · rw [hcreate]
      dsimp only
      unfold write
      have hsession : session now (m.insert id ⟨(data now m id).getD ∅, cfg.expiry now⟩) id =
          live now (some ⟨(data now m id).getD ∅, cfg.expiry now⟩) := by
        unfold session
        rw [Finmap.lookup_insert]
      rw [hsession]
      by_cases hlt : now < cfg.expiry now
      · rw [live_some_iff.2 ⟨rfl, hlt⟩]
        dsimp only
        cases hwrite : writeValue cfg.limits key value ((data now m id).getD ∅) with
        | ok new =>
          refine .inl ⟨new, rfl, rfl, fun id' => ?_⟩
          rw [data_insert, if_pos hlt, data_insert, if_pos hlt]
          split <;> rfl
        | error error =>
          refine .inr (.inl ⟨error, rfl, fun id' => ?_⟩)
          rw [data_insert, if_pos hlt]
          split
          · next heq =>
            subst heq
            cases hdata : data now m id' with
            | some old => rfl
            | none =>
              -- a value that was checked fits into a new session
              rw [hdata, Option.getD_none, writeValue_empty hentries hvalid] at hwrite
              cases hwrite
          · rfl
      · have hle := Nat.le_of_not_lt hlt
        rw [live_eq_none hle]
        refine .inr (.inr ⟨_, rfl, hle, fun id' => ?_⟩)
        rw [data_insert, if_neg hlt]
    · rw [hcreate]
      exact .inr (.inl ⟨_, rfl, fun _ => rfl⟩)

end PlainSessions

/-! ## The store -/

namespace SessionStore

variable {cfg : SessionsConfig} {now : ℕ} {s s' : SessionStore} {m : PlainSessions}

def data (cfg : SessionsConfig) (now : ℕ) (s : SessionStore) (id : String) : Option SessionData :=
  (live now (s.lookup cfg id)).map SessionEntry.data

theorem Agrees.data_eq (h : Agrees cfg now s m) (id : String) : s.data cfg now id = PlainSessions.data now m id := by
  unfold SessionStore.data PlainSessions.data
  rw [h id]

theorem lookup_foldr_shards (hplaced : s.Placed cfg) (indices : List (Fin sessionStoreShards)) (id : String) :
    (indices.foldr (fun i (m : PlainSessions) => (s.shards i).entries ∪ m) ∅).lookup id =
      if cfg.shardIndex id ∈ indices then s.lookup cfg id else none := by
  induction indices with
  | nil => rfl
  | cons i indices ih =>
    rw [List.foldr_cons]
    by_cases hmem : id ∈ (s.shards i).entries
    · obtain rfl := hplaced i id hmem
      rw [Finmap.lookup_union_left hmem, if_pos List.mem_cons_self]
      rfl
    · rw [Finmap.lookup_union_right hmem, ih]
      by_cases hi : cfg.shardIndex id = i
      · -- the shard of the id has no entry for it
        have hnone : s.lookup cfg id = none := by
          unfold lookup shardOf
          rw [hi]
          exact Finmap.lookup_eq_none.2 hmem
        rw [hnone, ite_self, ite_self]
      · simp only [List.mem_cons, hi, false_or]

theorem exists_agrees (hplaced : s.Placed cfg) (now : ℕ) : ∃ m, Agrees cfg now s m := by
  refine ⟨(List.finRange sessionStoreShards).foldr (fun i (m : PlainSessions) => (s.shards i).entries ∪ m) ∅, fun id => ?_⟩
  unfold PlainSessions.session
  rw [lookup_foldr_shards hplaced, if_pos (List.mem_finRange _)]

theorem Bounded.accounting (h : Bounded cfg s) {id : String} {entry : SessionEntry} (hentry : s.lookup cfg id = some entry)
    (key value : String) : dataBytes entry.data = some (totalBytes entry.data) ∧
      replacedBytes entry.data key ≤ totalBytes entry.data ∧
      totalBytes (entry.data.insert key value) =
        totalBytes entry.data - replacedBytes entry.data key + key.utf8ByteSize + value.utf8ByteSize :=
  ⟨if_pos (h id entry hentry).fits, replacedBytes_le _ _, totalBytes_insert _ _ _⟩

theorem Bounded.data (h : Bounded cfg s) {id : String} {data : SessionData} (hdata : s.data cfg now id = some data) :
    Within cfg.limits data := by
  obtain ⟨entry, hentry, rfl⟩ := Option.map_eq_some_iff.1 hdata
  exact h id entry (live_some_iff.1 hentry).1

theorem Bounded.getD_data (h : Bounded cfg s) (now : ℕ) (id : String) :
    Within cfg.limits ((s.data cfg now id).getD ∅) := by
  cases hdata : s.data cfg now id with
  | none => exact within_empty cfg.limits
  | some data => exact h.data hdata

theorem expiry_le_iff : cfg.expiry now ≤ now ↔ ¬ now + cfg.idleTimeout ≤ cfg.maxInstant := by
  have hpos := cfg.idleTimeout_pos
  unfold SessionsConfig.expiry SessionsConfig.after
  split <;> omega

theorem get_of_data {L : Type} {l : L} (h : StandsFor cfg now s m) {id : String} {data : SessionData}
    (hdata : s.data cfg now id = some data) (key : String) :
    ∃ s', (SessionStore.get id key).run (storeMachine cfg L) l now s = some (data.lookup key, s') := by
  rw [h.agrees.data_eq] at hdata
  obtain ⟨entry, hentry, rfl⟩ := Option.map_eq_some_iff.1 hdata
  obtain ⟨s', hrun, -⟩ := refines_get (l := l) id key s m h
  have hvalue : (m.get cfg now id key).1 = entry.data.lookup key := by
    unfold PlainSessions.get
    rw [hentry]
  exact ⟨s', hvalue ▸ hrun⟩

/-- **`set` on a store that is not in use.** If it succeeds, the session is within its limits and has the value, and
nothing else changes. If it fails, no session is admitted and none changes, except that the session itself ends if it
cannot be renewed because its expiry could not be represented. Sizes are counted exactly. -/
theorem set_effect (hentries : 0 < cfg.limits.entries) (hs : s.Reached cfg) {L : Type} (l : L) (now : ℕ)
    (id key value : String) :
    (∀ id' entry, s.lookup cfg id' = some entry → dataBytes entry.data = some (totalBytes entry.data) ∧
      replacedBytes entry.data key ≤ totalBytes entry.data ∧ totalBytes (entry.data.insert key value) =
        totalBytes entry.data - replacedBytes entry.data key + key.utf8ByteSize + value.utf8ByteSize) ∧
    ∃ result s', (SessionStore.set cfg id key value).run (storeMachine cfg L) l now s = some (result, s') ∧
      (result = .ok () →
        (∃ new, s'.data cfg now id = some new ∧ new.keys.card ≤ cfg.limits.entries ∧
          totalBytes new ≤ cfg.limits.totalBytes ∧
          ∀ key' ≠ key, new.lookup key' = ((s.data cfg now id).getD ∅).lookup key') ∧
        (∃ s'', (SessionStore.get id key).run (storeMachine cfg L) l now s' = some (some value, s'')) ∧
        ∀ id' ≠ id, s'.data cfg now id' = s.data cfg now id') ∧
      ∀ error, result = .error error →
        (∀ id', (s'.data cfg now id').isSome → (s.data cfg now id').isSome) ∧
        ∀ id', id' ≠ id ∨ now + cfg.idleTimeout ≤ cfg.maxInstant → s'.data cfg now id' = s.data cfg now id' := by
  obtain ⟨hcounted, hbounded⟩ := hs.sound
  obtain ⟨m, hagrees⟩ := exists_agrees hcounted.placed now
  obtain ⟨s', hrun, hstands⟩ := refines_set (l := l) id key value s m ⟨hcounted, hagrees⟩
  refine ⟨fun id' entry hentry => hbounded.accounting hentry key value, _, s', hrun, ?_⟩
  have hdata' := hstands.agrees.data_eq
  obtain ⟨new, hok, hwrite, hdata⟩ | ⟨error, herror, hdata⟩ | ⟨error, herror, hexpiry, hdata⟩ :=
    PlainSessions.set_cases hentries now m id key value
  · rw [hok]
    refine ⟨fun _ => ?_, fun error herror => (by cases herror)⟩
    rw [← hagrees.data_eq] at hwrite
    have hnew : s'.data cfg now id = some new := by rw [hdata', hdata, if_pos rfl]
    have hwithin := (hbounded.getD_data now id).writeValue hwrite
    obtain ⟨rfl, -⟩ := writeValue_eq_ok.1 hwrite
    refine ⟨⟨_, hnew, hwithin.entries, hwithin.bytes, fun key' hkey => ?_⟩, ?_, fun id' hid => ?_⟩
    · rw [lookup_insert_eq, if_neg hkey]
    · obtain ⟨s'', hget⟩ := get_of_data (l := l) hstands hnew key
      rw [Finmap.lookup_insert] at hget
      exact ⟨s'', hget⟩
    · rw [hdata', hdata, if_neg hid, hagrees.data_eq]
  · rw [herror]
    have hsame : ∀ id', s'.data cfg now id' = s.data cfg now id' := fun id' => by
      rw [hdata', hdata, hagrees.data_eq]
    refine ⟨fun hok => (by cases hok), fun _ _ => ⟨fun id' h => ?_, fun id' _ => hsame id'⟩⟩
    rw [← hsame id']
    exact h
  · rw [herror]
    have hother : ∀ id', s'.data cfg now id' = if id' = id then none else s.data cfg now id' := fun id' => by
      rw [hdata', hdata, hagrees.data_eq]
    refine ⟨fun hok => (by cases hok), fun _ _ => ⟨fun id' h => ?_, fun id' h => ?_⟩⟩
    · rw [hother] at h
      split at h
      · cases h
      · exact h
    · rw [hother, if_neg (h.resolve_right (expiry_le_iff.1 hexpiry))]

/-- A value is replaced. -/
theorem set_effect_replaced : ∃ s s' s'', Reached smallConfig s ∧ (s.data smallConfig 6 "a").isSome ∧
    (SessionStore.set smallConfig "a" "k" "w").run (storeMachine smallConfig Unit) () 6 s = some (.ok (), s') ∧
    (SessionStore.get "a" "k").run (storeMachine smallConfig Unit) () 6 s' = some (some "w", s'') := by
  obtain ⟨s, hreached, hdata, hresult⟩ := Reached.exists_perform smallConfig
    (P := fun s => (s.data smallConfig 6 "a").isSome ∧ ((SessionStore.set smallConfig "a" "k" "w").run
      (storeMachine smallConfig Unit) () 6 s).map Prod.fst = some (.ok ()))
    (.set "a" "k" "v") (List.replicate 10 (0, 0)) (by decide +kernel)
  obtain ⟨-, result, s', hrun, hok, -⟩ := set_effect (by decide) hreached () 6 "a" "k" "w"
  rw [hrun] at hresult
  obtain rfl := Option.some.inj hresult
  obtain ⟨-, ⟨s'', hget⟩, -⟩ := hok rfl
  exact ⟨s, s', s'', hreached, hdata, hrun, hget⟩

/-- The last instant is near. -/
def lateConfig : SessionsConfig := { smallConfig with maxInstant := 15 }

/-- At instant 6 a session of instant 0 has not expired, but another ten units later is no instant any more. So it is
given up for expired. -/
theorem set_ends_session : ∃ s s', Reached lateConfig s ∧ (s.data lateConfig 6 "a").isSome ∧
    (SessionStore.set lateConfig "a" "k" "w").run (storeMachine lateConfig Unit) () 6 s =
      some (.error ⟨.sessionUnavailable, none⟩, s') ∧ s'.data lateConfig 6 "a" = none := by
  obtain ⟨s, hreached, hdata, hresult⟩ := Reached.exists_perform lateConfig
    (P := fun s => (s.data lateConfig 6 "a").isSome ∧ ((SessionStore.set lateConfig "a" "k" "w").run
      (storeMachine lateConfig Unit) () 6 s).map (fun x => (x.1, (x.2.data lateConfig 6 "a").isNone)) =
        some (.error ⟨.sessionUnavailable, none⟩, true))
    (.set "a" "k" "v") (List.replicate 10 (0, 0)) (by decide +kernel)
  obtain ⟨⟨result, s'⟩, hrun, hend⟩ := Option.map_eq_some_iff.1 hresult
  obtain ⟨rfl, hnone⟩ := Prod.mk.inj hend
  exact ⟨s, s', hreached, hdata, hrun, Option.isNone_iff_eq_none.1 hnone⟩

end SessionStore

end RustRest
