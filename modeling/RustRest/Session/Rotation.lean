import RustRest.Session.Middleware

/-!
# Rotations in one request

A handler may regenerate its session more than once, each time with the id it was given last. The middleware takes the
record under the id the request came with, and no other.

Main result: **`cookie_signs_current_iff`**.
-/

namespace RustRest

open FiniteMap Threads Threads.Prog List

inductive HandlerCall where
  | regenerate
  | set (key value : String)
  | get (key : String)
  | remove (key : String)
  deriving DecidableEq

def callChain : List HandlerCall → String → Prog SessionCall (Option String)
  | [], current => pure (some current)
  | .regenerate :: calls, current => do
    match ← perform (.regenerate current) with
    | .ok newId => callChain calls newId
    | .error _ => pure none
  | .set key value :: calls, current => do
    match ← perform (.set current key value) with
    | .ok _ => callChain calls current
    | .error _ => pure none
  | .get key :: calls, current => do
    let _ ← perform (.get current key)
    callChain calls current
  | .remove key :: calls, current => do
    perform (.remove current key)
    callChain calls current

/-- The calls as a program of the server. -/
def handlerProg (cfg : SessionsConfig) {α : Type} (p : Prog SessionCall α) : Prog ServerAction α :=
  onStore (p.interpret (SessionCall.prog cfg))

def Server.rotatedTo (s : Server) (id : String) : String := ((s.store.rotations.lookup id).map Prod.fst).getD id

def HasRoom (cfg : SessionsConfig) (t : ℕ) (rotations : Map String (String × ℕ)) : Prop :=
  (retain (fun _ record => t - record.2 < rotationRecordTtl) rotations).keys.card < cfg.maxSessions

instance (cfg : SessionsConfig) (t : ℕ) (rotations : Map String (String × ℕ)) : Decidable (HasRoom cfg t rotations) :=
  inferInstanceAs (Decidable (_ < _))

theorem lookup_recordRotation (cfg : SessionsConfig) (s : SessionStore) (oldId newId : String) (t : ℕ) (key : String) :
    (HasRoom cfg t s.rotations → (s.recordRotation cfg oldId newId t).rotations.lookup oldId = some (newId, t)) ∧
    (key ≠ oldId ∨ ¬HasRoom cfg t s.rotations → (s.recordRotation cfg oldId newId t).rotations.lookup key =
      (s.rotations.lookup key).filter fun record => t - record.2 < rotationRecordTtl) := by
  unfold SessionStore.recordRotation HasRoom
  dsimp only
  by_cases hroom : (retain (fun _ record => t - record.2 < rotationRecordTtl) s.rotations).keys.card < cfg.maxSessions
  · rw [if_pos hroom]
    refine ⟨fun _ => Finmap.lookup_insert _, fun hkey => ?_⟩
    rw [Finmap.lookup_insert_of_ne _ (hkey.resolve_right (not_not_intro hroom)), lookup_retain]
  · rw [if_neg hroom]
    exact ⟨fun h => absurd h hroom, fun _ => lookup_retain _ _ _⟩

theorem recordRotation_sessionCounter (cfg : SessionsConfig) (s : SessionStore) (oldId newId : String) (t : ℕ) :
    (s.recordRotation cfg oldId newId t).sessionCounter = s.sessionCounter := by
  unfold SessionStore.recordRotation
  dsimp only
  split <;> rfl

theorem recordRotation_congr {cfg : SessionsConfig} {s s' : SessionStore} {oldId newId : String} {t : ℕ}
    (h : s'.rotations = s.rotations) :
    (s'.recordRotation cfg oldId newId t).rotations = (s.recordRotation cfg oldId newId t).rotations := by
  unfold SessionStore.recordRotation
  rw [h]
  dsimp only
  split <;> rfl

/-! ## The middleware behind the handler -/

section After

variable {sessions : SessionsHandle} {req : SessionRequest} {id current : String} {res : HandlerReply} {number t : ℕ}
  {s s' : Server} {reply : Reply}

theorem signed_withCookie_iff (alive : Bool) (id' : String) (h : id' = current → alive = true) :
    (withCookie sessions req id' alive res).sessionCookie.bind SessionCookie.signed = some current ↔ id' = current := by
  unfold withCookie
  cases alive with
  | true => simp
  | false =>
    have hne : id' ≠ current := fun heq => Bool.false_ne_true (h heq)
    split <;> simp [hne]

theorem afterHandler_signs_iff
    (hrun : (onStore (afterHandler sessions req id res)).run (serverMachine sessions.cfg) number t s = some (reply, s'))
    (hown : responseSetsRootHostCookie (ensurePrivateCacheControl res) sessions.cookieName req.path = false)
    (hlive : ∃ entry, s.store.lookup sessions.cfg current = some entry ∧ t < entry.expiresAt) :
    reply.sessionCookie.bind SessionCookie.signed = some current ↔ s.rotatedTo id = current := by
  have hreply : reply = withCookie sessions req (s.rotatedTo id)
      ((s.store.takeRotation id).2.touch sessions.cfg (s.rotatedTo id) t).1 (ensurePrivateCacheControl res) := by
    unfold afterHandler attachCookie at hrun
    simp only [hown] at hrun
    exact (congrArg Prod.fst (Option.some.inj hrun)).symm
  rw [hreply]
  refine signed_withCookie_iff _ _ fun heq => ?_
  obtain ⟨entry, hentry, hlt⟩ := hlive
  rw [heq]
  obtain ⟨_, _, hentry', hle, -⟩ | ⟨hnone, -⟩ | ⟨_, _, -, -, -, htouch⟩ :=
    SessionStore.touch_cases sessions.cfg (s.store.takeRotation id).2 current t
  · obtain rfl := Option.some.inj (hentry.symm.trans hentry')
    omega
  · cases hentry.symm.trans hnone
  · rw [htouch]

end After

/-! ## The calls -/

section Calls

variable {cfg : SessionsConfig} {number : ℕ} {s s' : Server} {id : String}

theorem Confined.sameRotations {α : Type} {ids : Set String} {p : Prog StoreAction α} {r : α} (h : Confined ids p)
    (hexec : (onStore p).Exec (serverMachine cfg) number s r s') : s.SameRotations s' := by
  refine All.exec (fun s' => s.SameRotations s') h.quiet (fun a e s₁ r s₂ ha hact hsame => ?_) hexec
    ⟨rfl, rfl, rfl, rfl, rfl, rfl⟩
  have hstep := ServerAction.exec_quiet hact ha
  exact ⟨hstep.rotations.trans hsame.rotations, hstep.sessionCounter.trans hsame.sessionCounter,
    hstep.received.trans hsame.received, hstep.assigned.trans hsame.assigned, hstep.rotated.trans hsame.rotated,
    hstep.sent.trans hsame.sent⟩

theorem exec_onStore_bind {α γ : Type} {p : Prog StoreAction α} {f : α → Prog StoreAction γ} {r : γ}
    (hexec : (onStore (p >>= f)).Exec (serverMachine cfg) number s r s') :
    ∃ x s₁, (onStore p).Exec (serverMachine cfg) number s x s₁ ∧
      (onStore (f x)).Exec (serverMachine cfg) number s₁ r s' := by
  unfold onStore at hexec
  rw [interpret_bind] at hexec
  exact hexec.of_bind

theorem exec_onStore_perform {β : Type} {a : StoreAction β} {r : β}
    (hexec : (onStore (perform a)).Exec (serverMachine cfg) number s r s') :
    ∃ now store, a.exec cfg now s.store = some (r, store) ∧
      s' = { s with store := store, rotated := s.rotated ++ a.rotation number } := by
  cases hexec with
  | act now hact hdone =>
    cases hdone
    obtain ⟨⟨x, store⟩, hstore, heq⟩ := Option.map_eq_some_iff.1 hact
    obtain ⟨rfl, rfl⟩ := Prod.mk.inj heq
    exact ⟨now, store, hstore, rfl⟩

theorem regenerate_exec {newId : String}
    (hexec : (onStore (Sessions.regenerate cfg id)).Exec (serverMachine cfg) number s (.ok newId) s') :
    ∃ now t, newId = cfg.idOf now s.store.sessionCounter ∧ s'.store.sessionCounter = s.store.sessionCounter + 1 ∧
      s'.store.rotations = (s.store.recordRotation cfg id newId t).rotations ∧
      s'.rotated = s.rotated ++ [(number, id, newId, t)] := by
  obtain ⟨generated, s₁, hgenerate, hrest⟩ := exec_onStore_bind hexec
  obtain ⟨now, _, hstore, rfl⟩ := exec_onStore_perform hgenerate
  cases hstore
  obtain ⟨admitted, s₂, hadmit, hrecord⟩ := exec_onStore_bind hrest
  have hsame := (Sessions.confined_rotateOrCreate id _).sameRotations hadmit
  cases admitted with
  | false =>
    cases hrecord
  | true =>
    obtain ⟨_, s₃, hrecord, hdone⟩ := exec_onStore_bind hrecord
    cases hdone
    obtain ⟨t, s₄, hclock, hrecord⟩ := exec_onStore_bind hrecord
    obtain ⟨t', _, hstore, rfl⟩ := exec_onStore_perform hclock
    cases hstore
    obtain ⟨_, _, hstore, rfl⟩ := exec_onStore_perform hrecord
    cases hstore
    have hcounter : s₂.store.sessionCounter = s.store.sessionCounter + 1 := hsame.sessionCounter
    have hrotated : s₂.rotated = s.rotated ++ [] := hsame.rotated
    refine ⟨now, t, rfl, (recordRotation_sessionCounter ..).trans hcounter, recordRotation_congr hsame.rotations, ?_⟩
    show (s₂.rotated ++ []) ++ [(number, id, _, t)] = _
    rw [hrotated, append_nil, append_nil]

/-! ## Sequences of calls -/

theorem exec_handler_call {α β : Type} {call : SessionCall β} {f : β → Prog SessionCall α} {r : α}
    (hexec : (handlerProg cfg (perform call >>= f)).Exec (serverMachine cfg) number s r s') :
    ∃ x s₁, (onStore (call.prog cfg)).Exec (serverMachine cfg) number s x s₁ ∧
      (handlerProg cfg (f x)).Exec (serverMachine cfg) number s₁ r s' :=
  exec_onStore_bind hexec

variable {calls : List HandlerCall} {current last : String}

theorem callChain_cons {call : HandlerCall}
    (hexec : (handlerProg cfg (callChain (call :: calls) current)).Exec (serverMachine cfg) number s (some last) s') :
    (call ≠ .regenerate ∧ ∃ s₁, s.SameRotations s₁ ∧
      (handlerProg cfg (callChain calls current)).Exec (serverMachine cfg) number s₁ (some last) s') ∨
    (call = .regenerate ∧ ∃ newId s₁,
      (onStore (Sessions.regenerate cfg current)).Exec (serverMachine cfg) number s (.ok newId) s₁ ∧
      (handlerProg cfg (callChain calls newId)).Exec (serverMachine cfg) number s₁ (some last) s') := by
  cases call with
  | regenerate =>
    obtain ⟨result, s₁, hcall, hrest⟩ := exec_handler_call hexec
    cases result with
    | error _ => cases hrest
    | ok newId => exact Or.inr ⟨rfl, newId, s₁, hcall, hrest⟩
  | set key value =>
    obtain ⟨result, s₁, hcall, hrest⟩ := exec_handler_call hexec
    cases result with
    | error _ => cases hrest
    | ok _ => exact Or.inl ⟨nofun, s₁, (SessionStore.settled_set current key value).confined.sameRotations hcall, hrest⟩
  | get key =>
    obtain ⟨_, s₁, hcall, hrest⟩ := exec_handler_call hexec
    exact Or.inl ⟨nofun, s₁, (@SessionStore.settled_get ∅ current key).confined.sameRotations hcall, hrest⟩
  | remove key =>
    obtain ⟨_, s₁, hcall, hrest⟩ := exec_handler_call hexec
    exact Or.inl ⟨nofun, s₁, (@SessionStore.settled_remove ∅ current key).confined.sameRotations hcall, hrest⟩

theorem callChain_quiet (hcalls : HandlerCall.regenerate ∉ calls)
    (hexec : (handlerProg cfg (callChain calls current)).Exec (serverMachine cfg) number s (some last) s') :
    last = current ∧ s'.store.rotations = s.store.rotations ∧ s'.rotated = s.rotated := by
  induction calls generalizing s with
  | nil =>
    cases hexec
    exact ⟨rfl, rfl, rfl⟩
  | cons call calls ih =>
    rcases callChain_cons hexec with ⟨-, s₁, hsame, hrest⟩ | ⟨rfl, -⟩
    · obtain ⟨hlast, hrotations, hrotated⟩ := ih (fun h => hcalls (mem_cons_of_mem _ h)) hrest
      exact ⟨hlast, hrotations.trans hsame.rotations, hrotated.trans hsame.rotated⟩
    · exact absurd (mem_cons_self ..) hcalls

/-! ## Ids to come -/

/-- `generate_id` will not give this id. -/
def Server.NotToCome (cfg : SessionsConfig) (s : Server) (id : String) : Prop :=
  ∀ now n, s.store.sessionCounter ≤ n → cfg.idOf now n ≠ id

/-- `generate_id` gives no id twice from here on. -/
def Server.DistinctToCome (cfg : SessionsConfig) (s : Server) : Prop :=
  ∀ now now' n n', s.store.sessionCounter ≤ n → n < n' → cfg.idOf now n ≠ cfg.idOf now' n'

theorem Server.NotToCome.later (h : s.NotToCome cfg id) (hle : s.store.sessionCounter ≤ s'.store.sessionCounter) :
    s'.NotToCome cfg id :=
  fun now n hn => h now n (hle.trans hn)

theorem Server.DistinctToCome.later (h : s.DistinctToCome cfg)
    (hle : s.store.sessionCounter ≤ s'.store.sessionCounter) : s'.DistinctToCome cfg :=
  fun now now' n n' hn => h now now' n n' (hle.trans hn)

theorem rotatedTo_record {oldId newId : String} {t : ℕ}
    (hrotations : s'.store.rotations = (s.store.recordRotation cfg oldId newId t).rotations)
    (h : id ≠ oldId ∨ ¬HasRoom cfg t s.store.rotations) : s'.rotatedTo id = s.rotatedTo id ∨ s'.rotatedTo id = id := by
  unfold Server.rotatedTo
  rw [hrotations, (lookup_recordRotation cfg s.store oldId newId t id).2 h]
  cases s.store.rotations.lookup id with
  | none => exact Or.inl rfl
  | some record =>
    rw [Option.filter_some]
    split
    · exact Or.inl rfl
    · exact Or.inr rfl

structure Server.Behind (cfg : SessionsConfig) (id : String) (s : Server) (current : String) : Prop where
  ne : current ≠ id
  id_notToCome : s.NotToCome cfg id
  rotatedTo_notToCome : s.NotToCome cfg (s.rotatedTo id)

theorem Server.Behind.callChain (h : s.Behind cfg id current)
    (hexec : (handlerProg cfg (callChain calls current)).Exec (serverMachine cfg) number s (some last) s')
    (hlost : HandlerCall.regenerate ∈ calls ∨ s.rotatedTo id ≠ current) : s'.rotatedTo id ≠ last := by
  induction calls generalizing s current with
  | nil =>
    cases hexec
    exact hlost.resolve_left not_mem_nil
  | cons call calls ih =>
    rcases callChain_cons hexec with ⟨hcall, s₁, hsame, hrest⟩ | ⟨rfl, newId, s₁, hregenerate, hrest⟩
    · have hto : s₁.rotatedTo id = s.rotatedTo id := by
        unfold Server.rotatedTo
        rw [hsame.rotations]
      have hle := hsame.sessionCounter.ge
      refine ih ⟨h.ne, h.id_notToCome.later hle, hto ▸ h.rotatedTo_notToCome.later hle⟩ hrest ?_
      rw [hto]
      exact hlost.imp_left fun hmem => (mem_cons.1 hmem).resolve_left fun heq => hcall heq.symm
    · obtain ⟨now, t, rfl, hcounter, hrotations, -⟩ := regenerate_exec hregenerate
      have hle : s.store.sessionCounter ≤ s₁.store.sessionCounter := by omega
      have hto := rotatedTo_record hrotations (Or.inl h.ne.symm)
      have hnew : s.NotToCome cfg (s₁.rotatedTo id) := by
        rcases hto with hto | hto
        · rw [hto]
          exact h.rotatedTo_notToCome
        · rw [hto]
          exact h.id_notToCome
      exact ih ⟨h.id_notToCome now _ le_rfl, h.id_notToCome.later hle, hnew.later hle⟩ hrest
        (Or.inr (hnew now _ le_rfl).symm)

theorem rotatedTo_eq_iff {last : String} (hid : s.NotToCome cfg id)
    (hto : s.NotToCome cfg (s.rotatedTo id)) (hdistinct : s.DistinctToCome cfg)
    (hexec : (handlerProg cfg (callChain calls id)).Exec (serverMachine cfg) number s (some last) s') :
    s'.rotatedTo id = last ↔
      calls.count .regenerate = 0 ∧ s.rotatedTo id = id ∨
      calls.count .regenerate = 1 ∧ ∃ t, s'.rotated = s.rotated ++ [(number, id, last, t)] ∧
        HasRoom cfg t s.store.rotations := by
  induction calls generalizing s with
  | nil =>
    cases hexec
    simp
  | cons call calls ih =>
    rcases callChain_cons hexec with ⟨hcall, s₁, hsame, hrest⟩ | ⟨rfl, newId, s₁, hregenerate, hrest⟩
    · have hle := hsame.sessionCounter.ge
      have hto₁ : s₁.rotatedTo id = s.rotatedTo id := by
        unfold Server.rotatedTo
        rw [hsame.rotations]
      rw [ih (hid.later hle) (hto₁ ▸ hto.later hle) (hdistinct.later hle) hrest, hto₁, hsame.rotated, hsame.rotations,
        count_cons_of_ne hcall]
    · obtain ⟨now, t, rfl, hcounter, hrotations, hrotated⟩ := regenerate_exec hregenerate
      have hle : s.store.sessionCounter ≤ s₁.store.sessionCounter := by omega
      -- what is taken behind the first rotation: the new id, or what would have been taken before
      have hto₁ : HasRoom cfg t s.store.rotations → s₁.rotatedTo id = cfg.idOf now s.store.sessionCounter := by
        intro hroom
        unfold Server.rotatedTo
        rw [hrotations, (lookup_recordRotation cfg s.store id _ t id).1 hroom]
        rfl
      have hold : ¬HasRoom cfg t s.store.rotations → s.NotToCome cfg (s₁.rotatedTo id) := by
        intro hroom
        rcases rotatedTo_record hrotations (Or.inr hroom) with heq | heq
        · rw [heq]
          exact hto
        · rw [heq]
          exact hid
      rw [count_cons_self]
      by_cases hmore : HandlerCall.regenerate ∈ calls
      · have hnew : s₁.NotToCome cfg (s₁.rotatedTo id) := by
          by_cases hroom : HasRoom cfg t s.store.rotations
          · rw [hto₁ hroom]
            exact fun now' n hn => (hdistinct now now' _ n le_rfl (by omega)).symm
          · exact (hold hroom).later hle
        have hbehind : s₁.Behind cfg id (cfg.idOf now s.store.sessionCounter) :=
          ⟨hid now _ le_rfl, hid.later hle, hnew⟩
        have hpos := count_pos_iff.2 hmore
        refine iff_of_false (hbehind.callChain hrest (Or.inl hmore)) ?_
        rintro (⟨hzero, -⟩ | ⟨hone, -⟩) <;> omega
      · obtain ⟨rfl, hsame, hsent⟩ := callChain_quiet hmore hrest
        have hlast : s'.rotatedTo id = s₁.rotatedTo id := by
          unfold Server.rotatedTo
          rw [hsame]
        rw [hlast, count_eq_zero_of_not_mem hmore]
        constructor
        · intro heq
          refine Or.inr ⟨rfl, t, hsent.trans hrotated, ?_⟩
          by_contra hroom
          exact hold hroom now _ le_rfl heq.symm
        · rintro (⟨hzero, -⟩ | ⟨-, t', heq, hroom⟩)
          · omega
          · rw [hsent, hrotated] at heq
            obtain rfl : t = t' := by simpa using heq
            exact hto₁ hroom

end Calls

theorem setCookie_ensurePrivateCacheControl (res : HandlerReply) :
    (ensurePrivateCacheControl res).setCookie = res.setCookie := by
  unfold ensurePrivateCacheControl
  split
  · rfl
  · split <;> rfl

/-- **The cookie of a request.** A handler makes any calls, the first with the id of the request and each later one with
the id most recently returned, and does not set the cookie itself. If the last id has a live session when the handler
returns, the cookie of the response is for it if and only if there was no rotation and the table did not lead from the
id of the request to another, or one rotation and room for its record. -/
theorem cookie_signs_current_iff {sessions : SessionsHandle} {req : SessionRequest} {calls : List HandlerCall}
    {id current : String} {res : HandlerReply} {reply : Reply} {number t : ℕ} {s s₁ s₂ : Server}
    (hid : s.NotToCome sessions.cfg id) (hto : s.NotToCome sessions.cfg (s.rotatedTo id))
    (hdistinct : s.DistinctToCome sessions.cfg)
    (hcalls : (handlerProg sessions.cfg (callChain calls id)).Exec (serverMachine sessions.cfg) number s
      (some current) s₁)
    (hafter : (onStore (afterHandler sessions req id res)).run (serverMachine sessions.cfg) number t s₁ =
      some (reply, s₂))
    (hown : responseSetsRootHostCookie res sessions.cookieName req.path = false)
    (hlive : ∃ entry, s₁.store.lookup sessions.cfg current = some entry ∧ t < entry.expiresAt) :
    reply.sessionCookie.bind SessionCookie.signed = some current ↔
      calls.count .regenerate = 0 ∧ s.rotatedTo id = id ∨
      calls.count .regenerate = 1 ∧ ∃ t', s₁.rotated = s.rotated ++ [(number, id, current, t')] ∧
        HasRoom sessions.cfg t' s.store.rotations := by
  have hown' : responseSetsRootHostCookie (ensurePrivateCacheControl res) sessions.cookieName req.path = false := by
    unfold responseSetsRootHostCookie at hown ⊢
    rw [setCookie_ensurePrivateCacheControl]
    exact hown
  rw [afterHandler_signs_iff hafter hown' hlive]
  exact rotatedTo_eq_iff hid hto hdistinct hcalls

def serverWithA : Option Server :=
  ((onStore (SessionStore.create smallConfig "a")).run (serverMachine smallConfig) 0 1 (.new 0 1)).map Prod.snd

/-- After two rotations the session is under the id `xx`, and the client is told to delete its cookie. -/
theorem two_rotations_delete_cookie : ∃ s s₁ s₂ : Server, ∃ reply : Reply, serverWithA = some s ∧
    (handlerProg smallConfig (callChain [.regenerate, .regenerate] "a")).Exec (serverMachine smallConfig) 1 s
      (some "xx") s₁ ∧
    (onStore (afterHandler smallSessions (requestOf "a") "a" ⟨[], []⟩)).run (serverMachine smallConfig) 1 3 s₁ =
      some (reply, s₂) ∧
    (s₁.store.touch smallConfig "xx" 3).1 = true ∧
    reply.sessionCookie.map (fun cookie => (cookie.signed, cookie.maxAgeSecs)) = some (none, 0) := by
  have hrun : serverWithA.bind (fun s =>
      ((handlerProg smallConfig (callChain [.regenerate, .regenerate] "a")).run (serverMachine smallConfig) 1 2 s).bind
        fun x => ((onStore (afterHandler smallSessions (requestOf "a") "a" ⟨[], []⟩)).run (serverMachine smallConfig)
          1 3 x.2).map fun y => (x.1, (x.2.store.touch smallConfig "xx" 3).1,
            y.1.sessionCookie.map fun cookie => (cookie.signed, cookie.maxAgeSecs))) =
      some (some "xx", true, some (none, 0)) := by
    decide +kernel
  obtain ⟨s, hs, hrun⟩ := Option.bind_eq_some_iff.1 hrun
  obtain ⟨⟨last, s₁⟩, hcalls, hrun⟩ := Option.bind_eq_some_iff.1 hrun
  obtain ⟨⟨reply, s₂⟩, hafter, hseen⟩ := Option.map_eq_some_iff.1 hrun
  obtain ⟨rfl, hseen⟩ := Prod.mk.inj hseen
  obtain ⟨halive, hcookie⟩ := Prod.mk.inj hseen
  exact ⟨s, s₁, s₂, reply, hs, .of_run hcalls, hafter, halive, hcookie⟩

theorem notToCome_small (s : Server) {id : String} {c : Char} (hmem : c ∈ id.toList) (hc : c ≠ 'x') :
    s.NotToCome smallConfig id := by
  rintro now n - rfl
  rw [show smallConfig.idOf now n = String.ofList (List.replicate n 'x') from rfl, String.toList_ofList] at hmem
  exact hc (eq_of_mem_replicate hmem)

theorem distinctToCome_small (s : Server) : s.DistinctToCome smallConfig := by
  intro now now' n n' _ hlt heq
  have hlength := congrArg (fun id => id.toList.length) heq
  simp only [smallConfig, String.toList_ofList, length_replicate] at hlength
  omega

/-- After one rotation the cookie is for the new id. -/
theorem cookie_signs_current_once : ∃ s s₁ s₂ : Server, ∃ reply : Reply, serverWithA = some s ∧
    (handlerProg smallConfig (callChain [.set "k" "v", .regenerate, .get "k"] "a")).Exec (serverMachine smallConfig) 1 s
      (some "x") s₁ ∧
    (onStore (afterHandler smallSessions (requestOf "a") "a" ⟨[], []⟩)).run (serverMachine smallConfig) 1 3 s₁ =
      some (reply, s₂) ∧
    reply.sessionCookie.bind SessionCookie.signed = some "x" := by
  have hrun : serverWithA.bind (fun s =>
      ((handlerProg smallConfig (callChain [.set "k" "v", .regenerate, .get "k"] "a")).run (serverMachine smallConfig)
        1 2 s).bind fun x => ((onStore (afterHandler smallSessions (requestOf "a") "a" ⟨[], []⟩)).run
          (serverMachine smallConfig) 1 3 x.2).map fun _ =>
            decide (x.1 = some "x" ∧ s.rotatedTo "a" = "a" ∧
              (x.2.store.lookup smallConfig "x").map SessionEntry.expiresAt = some 12 ∧
              x.2.rotated = s.rotated ++ [(1, "a", "x", 2)] ∧ HasRoom smallConfig 2 s.store.rotations)) = some true := by
    decide +kernel
  obtain ⟨s, hs, hrun⟩ := Option.bind_eq_some_iff.1 hrun
  obtain ⟨⟨last, s₁⟩, hcalls, hrun⟩ := Option.bind_eq_some_iff.1 hrun
  obtain ⟨⟨reply, s₂⟩, hafter, hseen⟩ := Option.map_eq_some_iff.1 hrun
  obtain ⟨rfl, hto, hentry, hrotated, hroom⟩ := of_decide_eq_true hseen
  obtain ⟨entry, hlookup, hexpires⟩ := Option.map_eq_some_iff.1 hentry
  have ha : s.NotToCome smallConfig "a" := notToCome_small s (c := 'a') (by decide) (by decide)
  have hto' : s.NotToCome smallConfig (s.rotatedTo "a") := by
    rw [hto]
    exact ha
  refine ⟨s, s₁, s₂, reply, hs, .of_run hcalls, hafter, ?_⟩
  exact (@cookie_signs_current_iff smallSessions _ _ _ _ _ _ _ _ _ _ _ ha hto' (distinctToCome_small s)
    (.of_run hcalls) hafter (by decide) ⟨entry, hlookup, by omega⟩).2 (Or.inr ⟨by decide, 2, hrotated, hroom⟩)

end RustRest
