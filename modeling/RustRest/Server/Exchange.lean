import RustRest.Request.Views
import RustRest.Response.Head

/-!
# From the dispatch to the wire

`App::run_request` takes the response that the dispatch or the deadline gives and decides what leaves the server: a switch
of protocols that no WebSocket handler authorized becomes an error, the fields of the connection are removed for HTTP/2,
`CONNECT` gets no success, and the response is finalized, for `HEAD` without its content.

Main result: **`runRequest_spec`**.
-/

namespace RustRest

/-- `hyper::Version`. -/
inductive WireVersion where
  | http09 | http10 | http11 | http2 | http3
  deriving DecidableEq

/-- What `run_request` reads of a request. -/
structure WireRequest where
  version : WireVersion
  method : String
  upgrade : Bool
  views : Request

structure SwitchCrates extends ResponseCrates where
  websocketAccept : String → String

namespace HeaderName

def te : HeaderName := ⟨"te", by decide, by decide, by decide⟩
def keepAlive : HeaderName := ⟨"keep-alive", by decide, by decide, by decide⟩
def proxyConnection : HeaderName := ⟨"proxy-connection", by decide, by decide, by decide⟩

end HeaderName

/-! ## The request -/

def headerValueContainsToken (expected value : String) : Bool :=
  (value.toList.splitOn ',').any fun token => eqIgnoreAsciiCase (String.ofList (trim token)) expected

namespace Request

def containsToken (req : Request) (name expected : String) : Bool :=
  (req.headersAll name).any (headerValueContainsToken expected) ||
    (req.header name).any (headerValueContainsToken expected)

/-- `websocket::singleton_header`. -/
def onlyHeader (req : Request) (name : String) : Option String :=
  match req.headersAll name with
  | [value] => some value
  | _ => none

end Request

def ResponseCrates.isValidWebsocketKey (crates : ResponseCrates) (value : String) : Bool :=
  (crates.base64 value.toList).any fun decoded => decoded.length == 16

/-- A WebSocket handshake over HTTP/1.1. -/
def WireRequest.isWebsocketUpgrade (crates : ResponseCrates) (req : WireRequest) : Bool :=
  match req.views.onlyHeader "host", req.views.onlyHeader "sec-websocket-key",
    req.views.onlyHeader "sec-websocket-version" with
  | some host, some key, some version =>
    req.version == .http11 && eqIgnoreAsciiCase req.method "GET" && !(trim host.toList).isEmpty &&
    req.views.containsToken "upgrade" "websocket" && req.views.containsToken "connection" "upgrade" &&
    crates.isValidWebsocketKey key && trim version.toList == ['1', '3']
  | _, _, _ => false

def WireRequest.expectedWebsocketAccept (crates : SwitchCrates) (req : WireRequest) : Option String :=
  if req.upgrade && req.isWebsocketUpgrade crates.toResponseCrates then
    (req.views.singletonHeader "sec-websocket-key").toOption.join.map crates.websocketAccept
  else none

/-! ## The response -/

namespace Response

variable {Stream : Type}

/-- The fields that HTTP/2 does not have. -/
def connectionFields : List HeaderName := [.connection, .upgrade, .te, .keepAlive, .proxyConnection]

/-- Fields of the connection go, and those that `Connection` names. -/
def stripHttp2ConnectionHeaders (r : Response Stream) : Response Stream :=
  let nominated := connectionNominatedHeaders r.headers
  let r := match r.trailers.bind fun trailers => nominated.find? (· ∈ trailers) with
    | some name => r.recordBuildError (.invalidTrailerName name.text)
    | none => r
  { r with headers := (connectionFields ++ nominated).foldl MultiMap.remove r.headers }

/-- The upgrade authorized it, with the key that is expected. -/
def authorizedWebsocketSwitch (r : Response Stream) (expected : Option String) : Bool :=
  r.websocketUpgradeAuthorized && expected.any fun expected =>
    match r.headers.getAll .secWebsocketAccept with
    | [value] => value.toStr == some expected.toList
    | _ => false

def enforceConnectRejectionStatus (r : Response Stream) (isConnect : Bool) : Response Stream :=
  if isConnect ∧ 200 ≤ r.status ∧ r.status < 300 then { r with status := 501 } else r

end Response

variable {Stream : Type}

/-- A switch that was not authorized is an error. -/
def checkSwitch (crates : SwitchCrates) (req : WireRequest) (r : Response Stream) : Response Stream :=
  if r.status = 101 ∧ r.authorizedWebsocketSwitch (req.expectedWebsocketAccept crates) = false then
    .internalServerError crates.toResponseCrates
  else r

/-- `run_request`, of what the dispatch or the deadline gives. -/
def runRequest (crates : SwitchCrates) (req : WireRequest) (dispatched : Response Stream) : Response Stream :=
  let r := checkSwitch crates req dispatched
  let r := if req.version = .http2 ∨ req.version = .http3 then r.stripHttp2ConnectionHeaders else r
  (r.enforceConnectRejectionStatus (eqIgnoreAsciiCase req.method "CONNECT")).deliver crates.toResponseCrates
    (req.method == "HEAD")

/-! ## What finalizing leaves -/

namespace Response

variable {crates : ResponseCrates} {r r' : Response Stream}

theorem checked_keeps (h : r.checked crates = .ok r') :
    r'.status = r.status ∧ ∀ name ∉ touched, r'.headers.getAll name = r.headers.getAll name := by
  obtain ⟨-, h⟩ := bind_unit_eq_ok.1 h
  obtain ⟨r₁, h₁, h⟩ := bind_eq_ok.1 h
  obtain ⟨r₂, h₂, h⟩ := bind_eq_ok.1 h
  obtain ⟨r₃, h₃, h⟩ := bind_eq_ok.1 h
  cases h
  obtain ⟨heq₁, hother₁, -⟩ := announceTrailers_ok h₁
  obtain ⟨headers, contentLength, hparse, -, -, hcases⟩ := finalizeFraming_ok h₂
  obtain ⟨heq₃, hother₃, -⟩ := addContentType_ok h₃
  have hstatus₂ : r₂.status = r₁.status := by rcases hcases with ⟨-, rfl⟩ | ⟨-, -, rfl⟩ <;> rfl
  have hlength : r₃.addContentLength.status = r₃.status ∧
      ∀ name ≠ .contentLength, r₃.addContentLength.headers.getAll name = r₃.headers.getAll name := by
    unfold addContentLength
    repeat' split
    all_goals first
      | exact ⟨rfl, fun _ _ => rfl⟩
      | exact ⟨rfl, fun name hname => by rw [MultiMap.getAll_insert, if_neg hname]⟩
  refine ⟨by rw [hlength.1, heq₃, hstatus₂, heq₁], fun name hname => ?_⟩
  have hne : name ≠ .trailer ∧ name ≠ .contentLength ∧ name ≠ .contentType := by
    simp only [touched, List.mem_cons, not_or] at hname
    exact ⟨hname.1, hname.2.2.1, hname.2.2.2.1⟩
  rw [hlength.2 name hne.2.1, hother₃ name hne.2.2, ← hother₁ name hne.1, ← parseContentLength_getAll hparse hne.2.1]
  rcases hcases with ⟨-, rfl⟩ | ⟨-, -, rfl⟩
  · exact strip_getAll hname
  · rfl

/-- What may have become of a response: it is as it was, or it is an error. -/
def Outcome (r out : Response Stream) : Prop :=
  out.status = r.status ∧ (∀ name ∉ touched, out.headers.getAll name = r.headers.getAll name) ∨
    out.status = 500 ∧ ∀ name ∉ touched, out.headers.getAll name = []

/-- A finalized response is the one given or an error, as far as status and other fields go. -/
theorem finalize_outcome (crates : ResponseCrates) (r : Response Stream) : r.Outcome (r.finalize crates) := by
  unfold finalize
  split
  · next h => exact .inl (checked_keeps h)
  · unfold invalidResponseValue
    split
    · next h => exact .inr (checked_keeps h)
    · next h =>
      obtain ⟨_, hok⟩ := checked_fromError crates "No se pudo construir la respuesta"
      cases h.symm.trans hok

theorem deliver_outcome (crates : ResponseCrates) (isHead : Bool) (r : Response Stream) :
    r.Outcome (r.deliver crates isHead) ∧
      (isHead = true → (r.deliver crates isHead).bodyKind = .empty ∧ (r.deliver crates isHead).trailers = none) := by
  have hfinal := finalize_outcome crates r
  cases isHead with
  | false => exact ⟨hfinal, nofun⟩
  | true =>
    have h : (r.finalize crates).Finalized crates := finalized_finalize r
    have hdeliver : r.deliver crates true = (r.finalize crates).prepareForHead :=
      finalize_of_finalized (finalized_prepareForHead h)
    obtain ⟨headers, heq, -, hother, -⟩ := prepareForHead_eq h
    have hsame : ∀ name ∉ touched, headers.getAll name = (r.finalize crates).headers.getAll name := by
      intro name hname
      simp only [touched, List.mem_cons, not_or] at hname
      exact hother name hname.1 hname.2.2.1
    rw [hdeliver, heq]
    exact ⟨hfinal.imp (And.imp_right fun h name hname => (hsame name hname).trans (h name hname))
      (And.imp_right fun h name hname => (hsame name hname).trans (h name hname)), fun _ => ⟨rfl, rfl⟩⟩

end Response

/-! ## The wire -/

theorem expectedWebsocketAccept_eq_some {crates : SwitchCrates} {req : WireRequest} {accept : String}
    (h : req.expectedWebsocketAccept crates = some accept) :
    req.upgrade = true ∧ req.isWebsocketUpgrade crates.toResponseCrates = true ∧ req.version = .http11 ∧
      ∃ key, req.views.headersAll "sec-websocket-key" = [key] ∧ accept = crates.websocketAccept key := by
  obtain ⟨hupgrade, h⟩ := Option.ite_none_right_eq_some.1 h
  obtain ⟨key, hkey, rfl⟩ := Option.map_eq_some_iff.1 h
  rw [Bool.and_eq_true] at hupgrade
  have hswitch := hupgrade.2
  unfold WireRequest.isWebsocketUpgrade at hswitch
  split at hswitch
  · next hsome _ =>
    simp only [Bool.and_eq_true, beq_iff_eq] at hswitch
    refine ⟨hupgrade.1, hupgrade.2, by tauto, key, ?_, rfl⟩
    unfold Request.onlyHeader at hsome
    unfold Request.singletonHeader at hkey
    split at hsome
    · next value hvalue =>
      rw [hvalue] at hkey ⊢
      cases hkey
      rfl
    · cases hsome
  · cases hswitch

theorem authorizedWebsocketSwitch_iff {r : Response Stream} {expected : Option String} :
    r.authorizedWebsocketSwitch expected = true ↔ r.websocketUpgradeAuthorized = true ∧
      ∃ accept value, expected = some accept ∧ r.headers.getAll .secWebsocketAccept = [value] ∧
        value.toStr = some accept.toList := by
  unfold Response.authorizedWebsocketSwitch
  rw [Bool.and_eq_true, Option.any_eq_true]
  refine and_congr_right fun _ => ⟨?_, ?_⟩
  · rintro ⟨accept, rfl, h⟩
    split at h
    · next value hvalue => exact ⟨accept, value, rfl, hvalue, eq_of_beq h⟩
    · cases h
  · rintro ⟨accept, value, rfl, hvalue, htext⟩
    exact ⟨accept, rfl, by rw [hvalue]; exact beq_iff_eq.2 htext⟩

theorem checkSwitch_cases (crates : SwitchCrates) (req : WireRequest) (r : Response Stream) :
    checkSwitch crates req r = r ∧
      (r.status = 101 → r.authorizedWebsocketSwitch (req.expectedWebsocketAccept crates) = true) ∨
    (checkSwitch crates req r).status = 500 ∧ ∀ name, (checkSwitch crates req r).headers.getAll name = [] := by
  unfold checkSwitch
  split
  · exact .inr ⟨rfl, fun _ => rfl⟩
  · next h => exact .inl ⟨rfl, fun h101 => Bool.eq_true_of_not_eq_false fun hfalse => h ⟨h101, hfalse⟩⟩

theorem stripHttp2_spec (r : Response Stream) : r.stripHttp2ConnectionHeaders.status = r.status ∧
    ∀ name, name ∈ Response.connectionFields ++ connectionNominatedHeaders r.headers ∨ r.headers.getAll name = [] →
      r.stripHttp2ConnectionHeaders.headers.getAll name = [] := by
  have hrecord : ∀ error, (r.recordBuildError error).status = r.status ∧
      (r.recordBuildError error).headers = r.headers := by
    intro error
    unfold Response.recordBuildError
    split <;> exact ⟨rfl, rfl⟩
  have hnone : ∀ (name : HeaderName) (ks : List HeaderName), name ∈ ks ∨ r.headers.getAll name = [] →
      (ks.foldl MultiMap.remove r.headers).getAll name = [] := by
    intro name ks h
    by_cases hmem : name ∈ ks
    · exact MultiMap.getAll_foldl_remove_of_mem hmem _
    · exact (MultiMap.getAll_foldl_remove hmem _).trans (h.resolve_left hmem)
  unfold Response.stripHttp2ConnectionHeaders
  dsimp only
  split
  · rw [(hrecord _).1, (hrecord _).2]
    exact ⟨rfl, fun name => hnone name _⟩
  · exact ⟨rfl, fun name => hnone name _⟩

theorem enforceConnect_spec (r : Response Stream) (isConnect : Bool) :
    (r.enforceConnectRejectionStatus isConnect).headers = r.headers ∧
    ((r.enforceConnectRejectionStatus isConnect).status = 101 → r.status = 101) ∧
    (isConnect = true → ¬ (200 ≤ (r.enforceConnectRejectionStatus isConnect).status ∧
      (r.enforceConnectRejectionStatus isConnect).status < 300)) := by
  unfold Response.enforceConnectRejectionStatus
  split
  · exact ⟨rfl, nofun, fun _ h => absurd h.2 (Nat.not_lt.2 (by decide : 300 ≤ 501))⟩
  · next h => exact ⟨rfl, id, fun hconnect hsuccess => h ⟨hconnect, hsuccess⟩⟩

/-- Whatever the application and the deadline make of a request: protocols are switched only for a WebSocket handshake that
a handler took, with the answer to its key; `CONNECT` opens no tunnel; over HTTP/2 and HTTP/3 no field of the connection,
nor one that `Connection` names, is left but those `finalize` writes; and `HEAD` gets no content. -/
theorem runRequest_spec (crates : SwitchCrates) (req : WireRequest) (dispatched : Response Stream) :
    let out := runRequest crates req dispatched
    (out.status = 101 → dispatched.websocketUpgradeAuthorized = true ∧ req.upgrade = true ∧
      req.isWebsocketUpgrade crates.toResponseCrates = true ∧
      ∃ key value, req.views.headersAll "sec-websocket-key" = [key] ∧ out.headers.getAll .secWebsocketAccept = [value] ∧
        value.toStr = some (crates.websocketAccept key).toList) ∧
    (eqIgnoreAsciiCase req.method "CONNECT" = true → ¬ (200 ≤ out.status ∧ out.status < 300)) ∧
    (req.version = .http2 ∨ req.version = .http3 → ∀ name ∉ Response.touched,
      name ∈ Response.connectionFields ++ connectionNominatedHeaders dispatched.headers → name ∉ out.headers) ∧
    (req.method = "HEAD" → out.bodyKind = .empty ∧ out.trailers = none) := by
  intro out
  let r₁ := checkSwitch crates req dispatched
  let r₂ := if req.version = .http2 ∨ req.version = .http3 then r₁.stripHttp2ConnectionHeaders else r₁
  let r₃ := r₂.enforceConnectRejectionStatus (eqIgnoreAsciiCase req.method "CONNECT")
  obtain ⟨hout, hhead⟩ : r₃.Outcome out ∧ _ := Response.deliver_outcome crates.toResponseCrates (req.method == "HEAD") r₃
  obtain ⟨hheaders, h101₃, hconnect₃⟩ := enforceConnect_spec r₂ (eqIgnoreAsciiCase req.method "CONNECT")
  have hswitch : r₁ = dispatched ∧ _ ∨ r₁.status = 500 ∧ _ := checkSwitch_cases crates req dispatched
  have hstrip := stripHttp2_spec r₁
  refine ⟨fun h101 => ?_, fun hconnect => ?_, fun hversion name hname hmem => ?_, fun h => hhead (beq_iff_eq.2 h)⟩
  · obtain ⟨hsame, hfields⟩ := hout.resolve_right fun h500 => by rw [h500.1] at h101; cases h101
    have hr₂ : r₂.status = 101 := h101₃ (hsame.symm.trans h101)
    have hr₁ : r₁.status = 101 := by
      dsimp only [r₂] at hr₂
      split at hr₂
      · exact hstrip.1.symm.trans hr₂
      · exact hr₂
    obtain ⟨heq, hauthorized⟩ := hswitch.resolve_right fun h500 => by rw [h500.1] at hr₁; cases hr₁
    obtain ⟨hhandler, accept, value, hexpected, hvalue, htext⟩ := authorizedWebsocketSwitch_iff.1 (hauthorized (heq ▸ hr₁))
    obtain ⟨hupgrade, hrequest, hversion, key, hkey, rfl⟩ := expectedWebsocketAccept_eq_some hexpected
    refine ⟨hhandler, hupgrade, hrequest, key, value, hkey, ?_, htext⟩
    have hunstripped : r₂ = dispatched := by
      dsimp only [r₂]
      rw [hversion, if_neg (by decide)]
      exact heq
    rw [hfields _ (by decide), hheaders, hunstripped, hvalue]
  · rcases hout with ⟨hsame, -⟩ | ⟨h500, -⟩
    · rw [hsame]
      exact hconnect₃ hconnect
    · omega
  · rw [MultiMap.mem_iff_getAll, not_not]
    rcases hout with ⟨-, hfields⟩ | ⟨-, hnone⟩
    · rw [hfields name hname, hheaders]
      dsimp only [r₂]
      rw [if_pos hversion]
      refine hstrip.2 name ?_
      rcases hswitch with ⟨heq, -⟩ | ⟨-, hnone⟩
      · rw [heq]
        exact .inl hmem
      · exact .inr (hnone name)
    · exact hnone name hname

end RustRest
