import RustRest.Router.Route

/-!
# Lookups

The functions on `&self`: route resolution, the `Allow` computation, the middlewares of synthesized responses, and
URL generation. All but the last go through the index, which the first of them builds (`Router.getIndex`).
-/

namespace RustRest

variable {H M C : Type}

/-- A route that was found, with its captures. -/
structure MatchedRoute (H M C : Type) where
  handler : H
  middlewares : List M
  params : Params
  pattern : String
  kind : RouteKind C
  bodyLimit : Option Nat
  deriving DecidableEq

variable (r : Router H M C) (segments : List String) (host : Option String)

def Router.patterns : List (String × List Segment) :=
  r.routes.map (fun route => (route.method, route.pattern.segments))

/-- `Router::index`: the index, and the router after it was built if need be. -/
def Router.getIndex : RouteIndex × Router H M C :=
  match r.index with
  | some ix => (ix, r)
  | none => (.build r.patterns, { r with index := some (.build r.patterns) })

def Router.afterLookup (path : String) : Router H M C :=
  match decodePathSegments path with
  | .error _ => r
  | .ok _ => r.getIndex.2

/-! ## Resolution -/

def Route.matched (route : Route H M C) (params : Params) : MatchedRoute H M C where
  handler := route.handler
  middlewares := route.middlewares
  params := params
  pattern := route.pattern.rendered
  kind := route.kind
  bodyLimit := route.routeMeta.bodyLimit

def Router.tryCandidate (method : String) (segments : List String) (host : Option String)
    (index : Nat) : Option (MatchedRoute H M C) :=
  r.routes[index]?.bind (fun route =>
    if !hostMatches route.host host then none
    -- HEAD may borrow a GET route, but never a WebSocket-only one
    else if method == "HEAD" && route.method != method && route.kind.isWebSocket then none
    else (matchDecodedPattern route.pattern.segments segments).map route.matched)

/-- `resolve_method` after the path is decoded. -/
def Router.resolveSegments (method : String) (segments : List String) (host : Option String) :
    Option (MatchedRoute H M C) :=
  (r.getIndex.1.findCandidates method segments).findSome? (r.tryCandidate method segments host)

/-- `resolve_method`: the first candidate whose host matches. -/
def Router.resolveMethod (method path : String) (host : Option String) :
    Except RouteMatchError (Option (MatchedRoute H M C)) :=
  (decodePathSegments path).map (fun segments => r.resolveSegments method segments host)

def Router.tryHttpCandidate (index : Nat) :
    Option (MatchedRoute H M C) :=
  r.routes[index]?.bind (fun route =>
    if route.kind.isWebSocket then none
    else if !hostMatches route.host host then none
    else (matchDecodedPattern route.pattern.segments segments).map route.matched)

def Router.resolveHttpSegments (method : String) (segments : List String) (host : Option String) :
    Option (MatchedRoute H M C) :=
  (r.getIndex.1.findCandidates method segments).findSome? (r.tryHttpCandidate segments host)

/-- `HEAD` falls back to `GET`, any method to `ALL`. -/
def Router.resolveHttpMethod (method path : String) (host : Option String) :
    Except RouteMatchError (Option (MatchedRoute H M C)) :=
  (decodePathSegments path).map (fun segments => r.resolveHttpSegments method segments host)

/-! ## Synthesized responses -/

/-- Literal segments before parameters before wildcards. -/
def patternSpecificity (segments : List Segment) : List Nat :=
  segments.map (fun segment => match segment with
    | .static _ => 2
    | .param _ => 1
    | .wildcard _ => 0)

def Router.scopedCandidate (index : Nat)
    (method : String) : Option (Route H M C) :=
  r.routes[index]?.filter (fun route => method != methodAll && hostMatches route.host host &&
    (matchDecodedPattern route.pattern.segments segments).isSome)

def Router.scopedStep
    (best : Option (List Nat × Nat)) (x : Nat × String) : Option (List Nat × Nat) :=
  match r.scopedCandidate segments host x.1 x.2 with
  | none => best
  | some route =>
    let specificity := patternSpecificity route.pattern.segments
    match best with
    | none => some (specificity, x.1)
    | some (current, currentIndex) =>
      if current < specificity ∨ (specificity = current ∧ x.1 < currentIndex) then some (specificity, x.1)
      else some (current, currentIndex)

def Router.scopedRoute : Option Nat :=
  ((r.getIndex.1.matchingMethods segments).foldl (r.scopedStep segments host) none).map Prod.snd

def Route.scopedMiddlewares (route : Route H M C) : List M :=
  route.middlewares.take (route.middlewares.length - route.routeLayers)

/-- The middlewares for a path that no route answers. -/
def Router.scopedMiddlewares (path : String) (host : Option String) :
    Except RouteMatchError (List M) :=
  (decodePathSegments path).map (fun segments =>
    match (r.scopedRoute segments host).bind (fun index => r.routes[index]?) with
    | some route => route.scopedMiddlewares
    | none => [])

/-- The body of the loop of `allowed_methods`. -/
def Router.allowStep (methods : List String)
    (x : Nat × String) : List String :=
  match r.routes[x.1]? with
  | none => methods
  | some route =>
    if !hostMatches route.host host then methods
    else if (matchDecodedPattern route.pattern.segments segments).isNone then methods
    else if x.2 != methodAll && !methods.contains x.2 then methods ++ [x.2]
    else methods

/-- `allowed_methods` after the path is decoded. -/
def Router.allowedSegments : List String :=
  (r.getIndex.1.matchingMethods segments).foldl (r.allowStep segments host) []

/-- The methods of the routes that fit the path. -/
def Router.allowedMethods (path : String) (host : Option String) :
    Except RouteMatchError (List String) :=
  (decodePathSegments path).map (fun segments => r.allowedSegments segments host)

/-- The methods that `allow_header_value` joins. -/
def allowList (allowed : List String) (implicitHead : Bool) : List String :=
  let methods := if implicitHead && !allowed.contains "HEAD" then allowed ++ ["HEAD"] else allowed
  if methods.contains "OPTIONS" then methods else methods ++ ["OPTIONS"]

/-- The methods, with `HEAD` and `OPTIONS`. -/
def allowHeaderValue (allowed : List String) (implicitHead : Bool) : String :=
  ", ".intercalate (allowList allowed implicitHead)

/-! ## URL generation -/

def buildSegments (params : Params) : List Segment → Except RouteError (List String)
  | [] => .ok []
  | .static value :: rest => do
    let out ← buildSegments params rest
    .ok (encodePathSegment value :: out)
  | .param name :: rest =>
    let value := (params.lookup name).getD ""
    if value = "" then
      .error ⟨.missingUrlParameter, "El parametro de URL " ++ name ++ " no puede estar vacio"⟩
    else do
      let out ← buildSegments params rest
      .ok (encodePathSegment value :: out)
  | .wildcard name :: rest => do
    let value := (params.lookup name).getD ""
    let out ← buildSegments params rest
    .ok ("/".intercalate ((pathSegments value).map encodePathSegment) :: out)

/-- `build_url`. The maps are iterated in the order of the pattern and of the arguments. -/
def buildUrl (pattern : RoutePattern) (params : List (String × String)) : Except RouteError String :=
  let collected : Params := params.foldl (fun ps x => ps.insert x.1 x.2) ∅
  match pattern.parameterNames.find? (fun name => (collected.lookup name).isNone) with
  | some name => .error ⟨.missingUrlParameter, "Falta el parametro de URL " ++ name⟩
  | none =>
    match params.find? (fun x => x.1 ∉ pattern.parameterNames) with
    | some (name, _) => .error ⟨.unexpectedUrlParameter, "Parametro de URL inesperado: " ++ name⟩
    | none =>
      if pattern.segments.isEmpty then .ok "/"
      else do
        let out ← buildSegments collected pattern.segments
        .ok (String.join (out.map ("/" ++ ·)))

/-- The URL of a named route. -/
def Router.urlFor (name : String) (params : List (String × String)) : Except RouteError String :=
  match r.routes.find? (fun route => route.name == some name) with
  | none => .error ⟨.missingUrlParameter, "No existe una ruta con nombre " ++ name⟩
  | some route => buildUrl route.pattern params

end RustRest
