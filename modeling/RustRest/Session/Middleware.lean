import RustRest.Lib.Signature
import RustRest.Session.Calls
import RustRest.Header
import RustRest.Response.Cookie

/-!
# The session middleware

`Sessions::middleware` finds the session of a request from its cookie, lets the handler run, and attaches the cookie for
the session to the response. A handler that regenerates its session leaves a record of the new id in a table that all
requests share, under the old id; the middleware takes it from there.
-/

namespace RustRest

open FiniteMap Threads Threads.Prog

/-! ## Signed values -/

structure CookieSigner where
  mac : List UInt8 → List UInt8
  encode : List UInt8 → String
  decode : String → Option (List UInt8)
  decode_encode : ∀ bytes, decode (encode bytes) = some bytes
  encode_no_dot : ∀ bytes, '.' ∉ (encode bytes).toList

namespace CookieSigner

variable (signer : CookieSigner)

/-- `sign_value`: the value, a dot and its signature. -/
def signValue (value : String) : String := value ++ "." ++ signer.encode (signer.mac (utf8 value))

/-- `verify_value`: what stands before the last dot, if it is signed. -/
def verifyValue (signed : String) : Option String := do
  let (value, signature) ← rsplitOnce '.' signed.toList
  let decoded ← signer.decode (String.ofList signature)
  if decoded = signer.mac (utf8 (String.ofList value)) then some (String.ofList value) else none

theorem toList_signValue (value : String) : (signer.signValue value).toList =
    value.toList ++ '.' :: (signer.encode (signer.mac (utf8 value))).toList := by
  rw [signValue, String.toList_append, String.toList_append, List.append_assoc]
  rfl

theorem verifyValue_signValue (value : String) : signer.verifyValue (signer.signValue value) = some value := by
  have hsplit := rsplitOnce_append (signer.encode_no_dot (signer.mac (utf8 value))) value.toList
  unfold verifyValue
  rw [toList_signValue, hsplit]
  simp [signer.decode_encode]

end CookieSigner

/-- A MAC with a secret, and an encoding that decodes what it encodes and nothing else. -/
structure CookieCrypto where
  mac : String → List UInt8 → List UInt8
  encode : List UInt8 → String
  decode : String → Option (List UInt8)
  decode_eq_some : ∀ text bytes, decode text = some bytes ↔ text = encode bytes
  alphabet : ∀ bytes, ∀ c ∈ (encode bytes).toList, (c.isAlphanum || "-_".toList.contains c) = true

/-- The signing of values with a secret. -/
def CookieCrypto.signer (crypto : CookieCrypto) (secret : String) : CookieSigner where
  mac := crypto.mac secret
  encode := crypto.encode
  decode := crypto.decode
  decode_encode bytes := (crypto.decode_eq_some _ bytes).2 rfl
  encode_no_dot bytes h := absurd (crypto.alphabet bytes _ h) (by decide)

/-- HMAC-SHA256 and base64url without padding, which the source takes from its crates. -/
def hmacSha256 : CookieCrypto where
  mac secret := Sha256.hmac (utf8 secret)
  encode bytes := String.ofList (Base64Url.encode bytes)
  decode text := Base64Url.decode text.toList
  decode_eq_some text bytes := by
    rw [Base64Url.decode_eq_some, ← String.toList_inj, String.toList_ofList]
  alphabet bytes c hc := by
    rw [String.toList_ofList] at hc
    have hall : Base64Url.alphabet.all (fun c => c.isAlphanum || "-_".toList.contains c) = true := by decide
    exact List.all_eq_true.1 hall c (Base64Url.mem_alphabet_of_mem_encode hc)

/-! ## Requests and responses -/

/-- `Sessions`. -/
structure SessionsHandle where
  cfg : SessionsConfig
  cookieName : String
  sameSite : SameSite
  forceSecureCookie : Bool
  signer : CookieSigner

/-- What the middleware reads of a request. -/
structure SessionRequest where
  secure : Bool
  path : String
  cookieHeaders : List String
  cookies : Map String String

structure HandlerReply where
  cacheControl : List (Option String)
  setCookie : List (Option String)
  deriving DecidableEq

structure SessionCookie where
  name : String
  signed : Option String
  maxAgeSecs : ℕ
  secure : Bool
  httpOnly : Bool
  sameSite : SameSite
  deriving DecidableEq

structure Reply extends HandlerReply where
  error : Option HttpError
  sessionCookie : Option SessionCookie
  deriving DecidableEq

/-- How often the request sends the cookie. -/
def requestCookieOccurrences (req : SessionRequest) (cookieName : String) : ℕ :=
  ((req.cookieHeaders.flatMap fun value => value.toList.splitOn ';').filter fun pair =>
    match splitOnce '=' pair with
    | some (name, _) => trim name = cookieName.toList
    | none => false).length

/-- Whole seconds, rounded up. -/
def durationMaxAge (duration : ℕ) : ℕ :=
  min (min (duration / second + if duration % second ≠ 0 then 1 else 0) (2 ^ 64 - 1)) (2 ^ 63 - 1)

/-- The path of a cookie that names none. -/
def defaultCookiePath (requestPath : List Char) : List Char :=
  if requestPath.head? ≠ some '/' then ['/']
  else match rsplitOnce '/' requestPath with
    | some (c :: before, _) => c :: before
    | _ => ['/']

def cookieAttribute (defaultPath : List Char) (seen : List Char × Bool) (segment : List Char) : List Char × Bool :=
  let (name, value) := match splitOnce '=' (trim segment) with
    | some (name, value) => (trim name, trim value)
    | none => (trim segment, [])
  if eqIgnoreAsciiCase (String.ofList name) "path" then
    (if value.head? = some '/' then value else defaultPath, seen.2)
  else if eqIgnoreAsciiCase (String.ofList name) "domain" then (seen.1, true)
  else seen

def setsRootHostCookie (cookieName requestPath value : List Char) : Bool :=
  match value.splitOn ';' with
  | [] => false
  | pair :: attributes => match splitOnce '=' pair with
    | none => false
    | some (name, _) =>
      if trim name ≠ cookieName then false
      else
        let defaultPath := defaultCookiePath requestPath
        let (effectivePath, hasDomain) := attributes.foldl (cookieAttribute defaultPath) (defaultPath, false)
        effectivePath = ['/'] && !hasDomain

/-- The handler set the session cookie itself, for `/`. -/
def responseSetsRootHostCookie (response : HandlerReply) (cookieName requestPath : String) : Bool :=
  response.setCookie.any fun value => value.any fun value =>
    setsRootHostCookie cookieName.toList requestPath.toList value.toList

def isPrivateCacheControl (value : String) : Bool :=
  (value.toList.splitOn ',').any fun directive =>
    let name := match splitOnce '=' (trim directive) with
      | some (name, _) => trim name
      | none => trim directive
    eqIgnoreAsciiCase (String.ofList name) "private" || eqIgnoreAsciiCase (String.ofList name) "no-store"

/-- No cache may share a response with a session. -/
def ensurePrivateCacheControl (response : HandlerReply) : HandlerReply :=
  if response.cacheControl.any Option.isNone then { response with cacheControl := [some "private, no-store"] }
  else if response.cacheControl.any (·.any isPrivateCacheControl) then response
  else { response with cacheControl := response.cacheControl ++ [some "private"] }

/-- `Response::from_error`, made private. -/
def errorReply (error : HttpError) : Reply :=
  { ensurePrivateCacheControl ⟨[], []⟩ with error := some error, sessionCookie := none }

/-! ## The middleware -/

inductive RequestAction : Type → Type where
  | receive : RequestAction Unit
  | assign (sessionId : String) : RequestAction Unit
  | respond (reply : Reply) : RequestAction Unit

inductive ServerAction (β : Type) where
  | store (action : StoreAction β)
  | request (action : RequestAction β)

def onStore {α : Type} (p : Prog StoreAction α) : Prog ServerAction α := p.interpret fun a => perform (.store a)

section Middleware

variable (sessions : SessionsHandle) (req : SessionRequest)

def existingSession : Prog StoreAction (Option String) :=
  match (req.cookies.lookup sessions.cookieName).bind sessions.signer.verifyValue with
  | none => pure none
  | some id => do
    let alive ← SessionStore.resume id
    pure (if alive then some id else none)

def existingOrNew : Option String → Prog StoreAction String
  | some id => pure id
  | none => perform .generateId

def withCookie (id : String) (alive : Bool) (res : HandlerReply) : Reply :=
  if !alive && (req.cookies.lookup sessions.cookieName).isNone then { res with error := none, sessionCookie := none }
  else { res with
    error := none
    sessionCookie := some {
      name := sessions.cookieName
      signed := if alive then some id else none
      maxAgeSecs := if alive then durationMaxAge sessions.cfg.idleTimeout else 0
      secure := req.secure || sessions.forceSecureCookie || sessions.cookieName.startsWith "__Host-" ||
        sessions.cookieName.startsWith "__Secure-" || sessions.sameSite == .none
      httpOnly := true
      sameSite := sessions.sameSite } }

def attachCookie (id : String) (res : HandlerReply) : Prog StoreAction Reply :=
  if responseSetsRootHostCookie res sessions.cookieName req.path then
    pure { res with error := none, sessionCookie := none }
  else do
    let alive ← SessionStore.resume id
    pure (withCookie sessions req id alive res)

def afterHandler (id : String) (res : HandlerReply) : Prog StoreAction Reply := do
  let rotated ← perform (.takeRotation id)
  attachCookie sessions req (rotated.getD id) (ensurePrivateCacheControl res)

def withSession (next : String → Prog SessionCall HandlerReply) (id : String) : Prog ServerAction Reply :=
  if (HeaderValue.fromStr id).isSome then do
    perform (.request (.assign id))
    let res ← onStore ((next id).interpret (SessionCall.prog sessions.cfg))
    onStore (afterHandler sessions req id res)
  else pure (errorReply (.new 400 "bad_request" "El valor del encabezado de solicitud no es valido"))

/-- `Sessions::middleware`, around any handler. -/
def middleware (next : String → Prog SessionCall HandlerReply) : Prog ServerAction Reply :=
  if requestCookieOccurrences req sessions.cookieName > 1 then
    pure (errorReply (.new 400 "duplicate_session_cookie"
      "La solicitud contiene varias cookies de sesion con el mismo nombre"))
  else do
    let existing ← onStore (existingSession sessions req)
    let id ← onStore (existingOrNew existing)
    withSession sessions req next id

def serve (next : String → Prog SessionCall HandlerReply) : Prog ServerAction Unit := do
  perform (.request .receive)
  let reply ← middleware sessions req next
  perform (.request (.respond reply))

end Middleware

/-! ## The server -/

structure Server where
  store : SessionStore
  received : List ℕ
  assigned : List (ℕ × String)
  rotated : List (ℕ × String × String × ℕ)
  sent : List (ℕ × Reply)

namespace Server

def new (now sessionCounter : ℕ) : Server := ⟨.new now sessionCounter, [], [], [], []⟩

def inFlight (s : Server) : List (ℕ × String) := s.assigned.filter fun x => x.1 ∉ s.sent.map Prod.fst

end Server

def StoreAction.rotation (number : ℕ) : {β : Type} → StoreAction β → List (ℕ × String × String × ℕ)
  | _, .recordRotation old new now => [(number, old, new, now)]
  | _, _ => []

def RequestAction.exec : {β : Type} → RequestAction β → ℕ → Server → Option (β × Server)
  | _, .receive, number, s =>
    if number ∈ s.received then none else some ((), { s with received := number :: s.received })
  | _, .assign id, number, s => some ((), { s with assigned := (number, id) :: s.assigned })
  | _, .respond reply, number, s => some ((), { s with sent := (number, reply) :: s.sent })

def ServerAction.exec (cfg : SessionsConfig) {β : Type} : ServerAction β → ℕ → ℕ → Server → Option (β × Server)
  | .store a, number, now, s => (a.exec cfg now s.store).map fun x =>
    (x.1, { s with store := x.2, rotated := s.rotated ++ a.rotation number })
  | .request a, number, _, s => a.exec number s

def serverMachine (cfg : SessionsConfig) : Machine ServerAction ℕ ℕ Server where
  exec a number now s := a.exec cfg number now s

def smallSessions : SessionsHandle := ⟨smallConfig, "sid", .lax, false, hmacSha256.signer "k"⟩

def requestOf (id : String) : SessionRequest where
  secure := true
  path := "/"
  cookieHeaders := ["sid=" ++ smallSessions.signer.signValue id]
  cookies := (∅ : Map String String).insert "sid" (smallSessions.signer.signValue id)

/-! ## Accesses that have nothing to do with rotations -/

namespace SessionStore

variable {cfg : SessionsConfig} {s s' : SessionStore}

theorem touch_same (cfg : SessionsConfig) (s : SessionStore) (id : String) (now : ℕ) :
    SameRest s (s.touch cfg id now).2 := by
  unfold touch
  dsimp only
  split <;> exact ⟨rfl, rfl, rfl, rfl⟩

theorem removeSection_same (cfg : SessionsConfig) (s : SessionStore) (id key : String) (now : ℕ) :
    SameRest s (s.removeSection cfg id key now) := by
  obtain ⟨-, heq⟩ | ⟨_, -, -, hput⟩ := removeSection_cases cfg s id key now
  · rw [heq]
    exact touch_same cfg s id now
  · exact hput.same

theorem writeSection_same (cfg : SessionsConfig) (s : SessionStore) (id key value : String) (now : ℕ) :
    SameRest s (s.writeSection cfg id key value now).2 := by
  obtain ⟨_, _, -, -, hput, heq⟩ | ⟨-, heq⟩ | ⟨_, _, -, -, -, heq⟩ | ⟨_, _, _, -, -, -, hput, heq⟩ :=
    writeSection_cases cfg s id key value now
  · rw [heq]
    exact hput.same.trans ⟨rfl, rfl, rfl, rfl⟩
  · rw [heq]
    exact .refl s
  · rw [heq]
    exact .refl s
  · rw [heq]
    exact hput.same

theorem admitSection_same (cfg : SessionsConfig) (s : SessionStore) (id : String) (now : ℕ) :
    SameRest s (s.admitSection cfg id now) := by
  unfold admitSection
  dsimp only
  split <;> exact ⟨rfl, rfl, rfl, rfl⟩

theorem moveSection_same (cfg : SessionsConfig) (s : SessionStore) (id : String) (entry : SessionEntry) :
    SameRest s (s.moveSection cfg id entry) := by
  unfold moveSection
  dsimp only
  split <;> exact ⟨rfl, rfl, rfl, rfl⟩

theorem exec_quiet {β : Type} {a : StoreAction β} {now : ℕ} {r : β} (hexec : a.exec cfg now s = some (r, s'))
    (ha : ¬a.OnRotations) : s'.rotations = s.rotations ∧ s'.sessionCounter = s.sessionCounter := by
  have of_same : SameRest s s' → s'.rotations = s.rotations ∧ s'.sessionCounter = s.sessionCounter := fun h =>
    ⟨h.rotations, h.sessionCounter⟩
  cases a with
  | generateId | takeRotation | recordRotation => exact absurd trivial ha
  | clock | load | fetchSub | unlock =>
    cases hexec
    exact ⟨rfl, rfl⟩
  | lock =>
    replace hexec : (if s.locked then none else some (s.maintenance, { s with locked := true })) = some (r, s') := hexec
    split at hexec
    · cases hexec
    · cases hexec
      exact ⟨rfl, rfl⟩
  | resume id t =>
    obtain rfl := congrArg Prod.snd (Option.some.inj hexec)
    exact of_same (touch_same cfg s id t)
  | probe id t =>
    obtain rfl := congrArg Prod.snd (Option.some.inj hexec)
    rw [probeSection_eq_touch] at of_same ⊢
    exact of_same (touch_same cfg s id t)
  | get id key t =>
    obtain rfl := congrArg Prod.snd (Option.some.inj hexec)
    rw [getSection_eq] at of_same ⊢
    exact of_same (touch_same cfg s id t)
  | remove id key t =>
    cases hexec
    exact of_same (removeSection_same cfg s id key t)
  | write id key value =>
    obtain rfl := congrArg Prod.snd (Option.some.inj hexec)
    exact of_same (writeSection_same cfg s id key value now)
  | take id =>
    cases hexec
    exact ⟨rfl, rfl⟩
  | sweep index t maximum =>
    obtain rfl := congrArg Prod.snd (Option.some.inj hexec)
    exact ⟨rfl, rfl⟩
  | admitSession id t =>
    cases hexec
    exact of_same (admitSection_same cfg s id t)
  | move id entry =>
    cases hexec
    exact of_same (moveSection_same cfg s id entry)

end SessionStore

def ServerAction.Quiet {β : Type} : ServerAction β → Prop
  | .store a => ¬a.OnRotations
  | .request _ => False

theorem Confined.quiet {α : Type} {ids : Set String} {p : Prog StoreAction α} (h : Confined ids p) :
    (onStore p).All ServerAction.Quiet := by
  induction p with
  | done r => trivial
  | act a k ih => exact ⟨h.1.1, fun r => ih r (h.2 r)⟩

structure Server.SameRotations (s s' : Server) : Prop where
  rotations : s'.store.rotations = s.store.rotations
  sessionCounter : s'.store.sessionCounter = s.store.sessionCounter
  received : s'.received = s.received
  assigned : s'.assigned = s.assigned
  rotated : s'.rotated = s.rotated
  sent : s'.sent = s.sent

theorem ServerAction.exec_quiet {cfg : SessionsConfig} {β : Type} {a : ServerAction β} {number now : ℕ} {s s' : Server}
    {r : β} (hexec : a.exec cfg number now s = some (r, s')) (ha : a.Quiet) : s.SameRotations s' := by
  cases a with
  | request a => exact ha.elim
  | store a =>
    obtain ⟨⟨x, store⟩, hstore, heq⟩ := Option.map_eq_some_iff.1 hexec
    obtain ⟨rfl, rfl⟩ := Prod.mk.inj heq
    obtain ⟨hrotations, hcounter⟩ := SessionStore.exec_quiet hstore ha
    refine ⟨hrotations, hcounter, rfl, rfl, ?_, rfl⟩
    cases a <;> first | exact absurd trivial ha | exact List.append_nil _

end RustRest
