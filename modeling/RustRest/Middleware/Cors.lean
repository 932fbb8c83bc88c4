import RustRest.Request.Views
import RustRest.Response.Vary

/-!
# Cross-origin requests

`Cors` answers preflights itself and adds the grant for an origin to the responses of the next layer. A response that
depends on the `Origin` field has to say so in `Vary`, or a cache gives the response for one origin to another.

Main result: **`cors_varies`**.
-/

namespace RustRest

open FiniteMap

variable {Stream : Type}

/-! ## The model -/

/-- `Cors`, as its builder leaves it. -/
structure Cors where
  anyOrigin : Bool
  origins : List String
  methods : String
  headers : Option String
  credentials : Bool
  maxAgeSecs : Option ℕ

structure CorsRequest extends Request where
  method : String

/-- The header fields that a preflight asks for. -/
def CorsRequest.requestedHeaders (req : CorsRequest) : Option String :=
  let values := req.headersAll "access-control-request-headers"
  if values.isEmpty then req.header "access-control-request-headers" else some (", ".intercalate values)

namespace Cors

def new : Cors where
  anyOrigin := false
  origins := []
  methods := "GET, POST, PUT, PATCH, DELETE, OPTIONS, HEAD"
  headers := none
  credentials := false
  maxAgeSecs := none

def allowOrigin (cors : Cors) (origin : String) : Cors := { cors with origins := cors.origins ++ [origin] }

variable (cors : Cors)

/-- The value of `Access-Control-Allow-Origin` for an origin. -/
def grantFor (origin : String) : Option String :=
  if cors.anyOrigin then
    if cors.credentials then if origin ≠ "null" then some origin else none else some "*"
  else if cors.origins.any fun allowed => allowed == origin then some origin
  else none

/-- The fields of a grant. -/
def applyGrant (res : Response Stream) (allowed : String) : Response Stream :=
  let res := res.header "access-control-allow-origin" allowed
  if cors.credentials then res.header "access-control-allow-credentials" "true" else res

/-- The grant depends on the origin. -/
def variesByOrigin : Bool := !cors.anyOrigin || cors.credentials

def preflight (grant : Option String) (requestedHeaders : Option String) : Response Stream :=
  let res := ((Response.send ⟨[], Bytes.nil_bounded⟩).withStatus 204).header "vary"
    "Origin, Access-Control-Request-Method, Access-Control-Request-Headers"
  match grant with
  | none => res
  | some allowed =>
    let res := res.header "access-control-allow-methods" cors.methods
    let res := match cors.headers.or requestedHeaders with
      | some headers => res.header "access-control-allow-headers" headers
      | none => res
    let res := match cors.maxAgeSecs with
      | some age => res.header "access-control-max-age" (decimalText age)
      | none => res
    cors.applyGrant res allowed

/-- A response of the next layer, for an origin. -/
def decorate (grant : Option String) (res : Response Stream) : Response Stream :=
  let res := if cors.variesByOrigin then res.appendHeader "vary" "Origin" else res
  match grant with
  | some allowed => cors.applyGrant res allowed
  | none => res

/-- The middleware, around the next layer. -/
def handle (crates : ResponseCrates) (req : CorsRequest) (next : CorsRequest → Response Stream) : Response Stream :=
  match req.singletonHeader "origin" with
  | .ok none => next req
  | .error error => .fromError crates error
  | .ok (some origin) =>
    match req.singletonHeader "access-control-request-method" with
    | .error error => .fromError crates error
    | .ok requestedMethod =>
      let grant := cors.grantFor origin
      if req.method = "OPTIONS" ∧ requestedMethod.isSome then cors.preflight grant req.requestedHeaders
      else cors.decorate grant (next req)

end Cors

/-! ## `Vary` -/

namespace Cors

variable (cors : Cors)

/-- A grant leaves `Vary` alone. -/
theorem getAll_vary_applyGrant (res : Response Stream) (allowed : String) :
    (cors.applyGrant res allowed).headers.getAll .vary = res.headers.getAll .vary := by
  have horigin : (res.header "access-control-allow-origin" allowed).headers.getAll .vary = res.headers.getAll .vary :=
    Response.getAll_vary_header (by decide) res allowed
  unfold applyGrant
  dsimp only
  split
  · rw [Response.getAll_vary_header (by decide), horigin]
  · exact horigin

theorem preflight_variesBy (grant requestedHeaders : Option String) :
    (cors.preflight grant requestedHeaders : Response Stream).VariesBy "origin" := by
  have hnames : (HeaderValue.fromStr "Origin, Access-Control-Request-Method, Access-Control-Request-Headers").bind
      Response.listedNames =
        some ["Origin", "Access-Control-Request-Method", "Access-Control-Request-Headers"] := by decide
  obtain ⟨value, hvalue, hlisted⟩ := Option.bind_eq_some_iff.1 hnames
  -- The response before the grant, and what a grant does to it.
  have hbase : (((Response.send ⟨[], Bytes.nil_bounded⟩).withStatus 204).header "vary"
      "Origin, Access-Control-Request-Method, Access-Control-Request-Headers" : Response Stream).headers.getAll .vary =
        [value] := by
    unfold Response.header
    rw [HeaderName.ofStr_vary, hvalue]
    exact (MultiMap.getAll_insert ..).trans (if_pos rfl)
  have hvary : (cors.preflight grant requestedHeaders : Response Stream).headers.getAll .vary = [value] := by
    unfold preflight
    cases grant with
    | none => exact hbase
    | some allowed =>
      dsimp only
      rw [getAll_vary_applyGrant]
      cases cors.maxAgeSecs <;> cases cors.headers.or requestedHeaders <;> dsimp only <;>
        simp only [Response.getAll_vary_header (show HeaderName.ofStr "access-control-max-age" ≠ some .vary by decide),
          Response.getAll_vary_header (show HeaderName.ofStr "access-control-allow-headers" ≠ some .vary by decide),
          Response.getAll_vary_header (show HeaderName.ofStr "access-control-allow-methods" ≠ some .vary by decide)] <;>
        exact hbase
  exact Response.variesBy_of_mem (hvary ▸ List.mem_singleton.2 rfl) hlisted List.mem_cons_self (by decide)

theorem decorate_variesBy (h : cors.variesByOrigin = true) (grant : Option String) (res : Response Stream) :
    (cors.decorate grant res).VariesBy "origin" := by
  have hnames : (HeaderValue.fromStr "Origin").bind Response.listedNames = some ["Origin"] := by decide
  obtain ⟨value, hvalue, hlisted⟩ := Option.bind_eq_some_iff.1 hnames
  have hmem : value ∈ (res.appendHeader "vary" "Origin").headers.getAll .vary := by
    unfold Response.appendHeader
    rw [HeaderName.ofStr_vary, hvalue]
    dsimp only
    rw [MultiMap.append, MultiMap.getAll_set, if_pos rfl]
    exact List.mem_append_right _ (List.mem_singleton.2 rfl)
  have happended : (res.appendHeader "vary" "Origin").VariesBy "origin" :=
    Response.variesBy_of_mem hmem hlisted List.mem_cons_self (by decide)
  unfold decorate
  rw [if_pos h]
  cases grant with
  | none => exact happended
  | some allowed => exact Response.variesBy_of_getAll happended (cors.getAll_vary_applyGrant _ allowed)

theorem grantFor_of_not_varies (h : cors.variesByOrigin = false) (origin : String) : cors.grantFor origin = some "*" := by
  obtain ⟨hany, hcredentials⟩ := Bool.or_eq_false_iff.1 h
  rw [grantFor, if_pos (by simpa using hany), hcredentials, if_neg Bool.false_ne_true]

end Cors

/-! ## Two origins -/

structure SameExceptOrigin (req req' : CorsRequest) : Prop where
  method : req.method = req'.method
  all : ∀ name, eqIgnoreAsciiCase name "origin" = false → req.headersAll name = req'.headersAll name
  header : ∀ name, eqIgnoreAsciiCase name "origin" = false → req.header name = req'.header name

theorem SameExceptOrigin.singletonHeader {req req' : CorsRequest} (h : SameExceptOrigin req req') {name : String}
    (hname : eqIgnoreAsciiCase name "origin" = false) : req.singletonHeader name = req'.singletonHeader name := by
  unfold Request.singletonHeader
  rw [h.all name hname, h.header name hname]

theorem SameExceptOrigin.requestedHeaders {req req' : CorsRequest} (h : SameExceptOrigin req req') :
    req.requestedHeaders = req'.requestedHeaders := by
  unfold CorsRequest.requestedHeaders
  rw [h.all _ (by decide), h.header _ (by decide)]

/-- **Two origins.** Two requests with one `Origin` field each, which differ in its value only, and the same response of
the next layer: if the responses differ, both vary by `Origin`. A request without the field gets the response of the
next layer as it is. -/
theorem cors_varies (cors : Cors) (crates : ResponseCrates) (inner : Response Stream) :
    (∀ req req' : CorsRequest, SameExceptOrigin req req' → ∀ origin origin',
      req.singletonHeader "origin" = .ok (some origin) → req'.singletonHeader "origin" = .ok (some origin') →
      cors.handle crates req (fun _ => inner) ≠ cors.handle crates req' (fun _ => inner) →
      (cors.handle crates req fun _ => inner).VariesBy "origin" ∧
        (cors.handle crates req' fun _ => inner).VariesBy "origin") ∧
    ∀ req : CorsRequest, req.singletonHeader "origin" = .ok none → cors.handle crates req (fun _ => inner) = inner := by
  constructor
  · intro req req' hsame origin origin' horigin horigin' hdiffer
    have hmethod : req.singletonHeader "access-control-request-method" =
        req'.singletonHeader "access-control-request-method" := hsame.singletonHeader (by decide)
    unfold Cors.handle at hdiffer ⊢
    rw [horigin, horigin', hmethod] at hdiffer ⊢
    dsimp only at hdiffer ⊢
    cases hrequested : req'.singletonHeader "access-control-request-method" with
    | error error =>
      rw [hrequested] at hdiffer
      exact absurd rfl hdiffer
    | ok requestedMethod =>
      rw [hrequested] at hdiffer
      dsimp only at hdiffer ⊢
      rw [hsame.method, hsame.requestedHeaders] at hdiffer ⊢
      split
      · exact ⟨cors.preflight_variesBy _ _, cors.preflight_variesBy _ _⟩
      · next hpreflight =>
        rw [if_neg hpreflight, if_neg hpreflight] at hdiffer
        cases hvaries : cors.variesByOrigin with
        | true => exact ⟨cors.decorate_variesBy hvaries _ _, cors.decorate_variesBy hvaries _ _⟩
        | false =>
          rw [cors.grantFor_of_not_varies hvaries, cors.grantFor_of_not_varies hvaries] at hdiffer
          exact absurd rfl hdiffer
  · intro req horigin
    unfold Cors.handle
    rw [horigin]

/-! ### Requests with and without the field -/

def HeaderName.origin : HeaderName := ⟨"origin", by decide, by decide, by decide⟩

def originRequest (method : String) (origin : Option String) : CorsRequest where
  toRequest := networkRequest (match origin with
    | some origin => MultiMap.insert ∅ .origin origin
    | none => ∅) none
  method

theorem headersAll_originRequest (method : String) (origin : Option String) {name : String}
    (h : eqIgnoreAsciiCase name "origin" = false) : (originRequest method origin).headersAll name = [] := by
  have hother : eqIgnoreAsciiCase "origin" name = false := by
    rw [← h, Bool.eq_iff_iff, eqIgnoreAsciiCase_iff, eqIgnoreAsciiCase_iff, eq_comm]
  cases origin with
  | none => rfl
  | some origin =>
    have hpairs : (originRequest method (some origin)).headerPairs = [("origin", origin)] := rfl
    rw [Request.headersAll, hpairs, List.filter_singleton, hother]
    rfl

theorem sameExceptOrigin_originRequest (method : String) (origin origin' : Option String) :
    SameExceptOrigin (originRequest method origin) (originRequest method origin') := by
  have hall : ∀ name, eqIgnoreAsciiCase name "origin" = false →
      (originRequest method origin).headersAll name = (originRequest method origin').headersAll name :=
    fun name hname => by rw [headersAll_originRequest method origin hname, headersAll_originRequest method origin' hname]
  refine ⟨rfl, hall, fun name hname => ?_⟩
  have hheader : ∀ o, (originRequest method o).header name = ((originRequest method o).headersAll name).getLast? := fun o =>
    (agrees_networkRequest _ none).header_eq name
  rw [hheader, hheader, hall name hname]

def noCrates : ResponseCrates := ⟨fun _ => ⟨[], Bytes.nil_bounded⟩, fun _ => none⟩

/-- What a site answers that allows one origin. -/
def allowedReply (origin : Option String) : Response Unit :=
  (Cors.new.allowOrigin "https://a.example").handle noCrates (originRequest "GET" origin) fun _ =>
    .send ⟨[], Bytes.nil_bounded⟩

def grantedOrigin (r : Response Unit) : List HeaderValue :=
  r.headers.getAll ⟨"access-control-allow-origin", by decide, by decide, by decide⟩

/-- One origin is allowed, another one is not. -/
theorem cors_varies_allowed : allowedReply (some "https://a.example") ≠ allowedReply (some "https://b.example") ∧
    (allowedReply (some "https://a.example")).VariesBy "origin" ∧
    (allowedReply (some "https://b.example")).VariesBy "origin" ∧
    allowedReply none = .send ⟨[], Bytes.nil_bounded⟩ := by
  have hdiffer : allowedReply (some "https://a.example") ≠ allowedReply (some "https://b.example") := fun h =>
    absurd (congrArg grantedOrigin h) (by decide)
  obtain ⟨hvaries, huntouched⟩ := cors_varies (Cors.new.allowOrigin "https://a.example") noCrates
    (.send ⟨[], Bytes.nil_bounded⟩ : Response Unit)
  obtain ⟨hallowed, hdenied⟩ := hvaries _ _ (sameExceptOrigin_originRequest "GET" (some "https://a.example")
    (some "https://b.example")) _ _ rfl rfl hdiffer
  exact ⟨hdiffer, hallowed, hdenied, huntouched _ rfl⟩

/-- The response to a request without `Origin` is another one, and does not vary. -/
theorem cors_without_origin :
    SameExceptOrigin (originRequest "GET" none) (originRequest "GET" (some "https://a.example")) ∧
    allowedReply none ≠ allowedReply (some "https://a.example") ∧ ¬ (allowedReply none).VariesBy "origin" := by
  refine ⟨sameExceptOrigin_originRequest "GET" none _, fun h => absurd (congrArg grantedOrigin h) (by decide), ?_⟩
  rintro ⟨value, hvalue, -⟩
  have hnone : (allowedReply none).headers.getAll .vary = [] := rfl
  rw [hnone] at hvalue
  cases hvalue

end RustRest
