import RustRest.Router.Host
import RustRest.Router.Index

/-!
# Routers and registration

`Route`, `Router`, `RouteHandle` and every operation that changes a router. Handlers, middlewares and WebSocket
configurations are opaque to the router, so they are type parameters `H`, `M` and `C`. An operation on `&mut self`
that can fail returns the router it leaves behind next to its result, so that a failure leaves a state to reason
about. The lazily built index is the field `index`; a mutation that drops it sets it to `none`.
-/

namespace RustRest

/-- HTTP or WebSocket. -/
inductive RouteKind (C : Type) where
  | http
  | webSocket (config : C)
  deriving DecidableEq, Repr

/-- `RouteKind::WebSocket(_)` matches. -/
def RouteKind.isWebSocket {C : Type} : RouteKind C → Bool
  | .http => false
  | .webSocket _ => true

/-- Documentation of a route, and its body limit. -/
structure RouteMeta where
  summary : Option String := none
  description : Option String := none
  tags : List String := []
  bodyLimit : Option Nat := none
  deriving DecidableEq, Repr

/-- `Route`. The last `routeLayers` middlewares were added with `RouteHandle::layer`. -/
structure Route (H M C : Type) where
  method : String
  pattern : RoutePattern
  handler : H
  middlewares : List M
  routeLayers : Nat
  kind : RouteKind C
  routeMeta : RouteMeta
  name : Option String
  host : Option HostPattern
  deriving DecidableEq

/-- `Router`: the routes, their index and the middlewares. -/
structure Router (H M C : Type) where
  routes : List (Route H M C)
  middlewares : List M
  index : Option RouteIndex

/-- `RouteHandle`: the position of a route just registered. The router it borrows is passed along with it. -/
structure RouteHandle where
  index : Nat
  deriving DecidableEq, Repr

variable {H M C D : Type}

def Router.new : Router H M C where
  routes := []
  middlewares := []
  index := none

/-! ## Conflicts -/

def conflictError (method : String) (pattern other : RoutePattern) : RouteError where
  kind := if other.rendered = pattern.rendered then .duplicateRoute else .conflictingPattern
  message := "La ruta " ++ method ++ " " ++ pattern.rendered ++ " entra en conflicto con " ++ other.rendered

def Route.conflicts (route : Route H M C) (method : String) (pattern : RoutePattern) (host : Option HostPattern) :
    Bool :=
  route.method == method && route.pattern.conflictKey == pattern.conflictKey && hostsOverlap route.host host

def validateAgainst (routes : List (Route H M C)) (method : String) (pattern : RoutePattern)
    (host : Option HostPattern) (name : Option String) : Except RouteError Unit :=
  if name.isSome && routes.any (fun route => route.name == name) then
    .error ⟨.duplicateName, "Nombre de ruta duplicado: " ++ name.getD ""⟩
  else match routes.find? (fun route => route.conflicts method pattern host) with
    | some route => .error (conflictError method pattern route.pattern)
    | none => .ok ()

/-- No clash of patterns or names with the routes there. -/
def Router.validateRouteInsert (r : Router H M C) (method : String) (pattern : RoutePattern)
    (host : Option HostPattern) (name : Option String) : Except RouteError Unit :=
  validateAgainst r.routes method pattern host name

/-- The same check, against the routes of a batch. -/
def validateRouteBatchInsert (routes : List (Route H M C)) (method : String) (pattern : RoutePattern)
    (host : Option HostPattern) (name : Option String) : Except RouteError Unit :=
  validateAgainst routes method pattern host name

/-- `Router::validate_route_host_update`. A handle always points at a route. -/
def Router.validateRouteHostUpdate (r : Router H M C) (index : Nat) (host : HostPattern) : Except RouteError Unit :=
  match r.routes[index]? with
  | none => .ok ()
  | some route =>
    match r.routes.zipIdx.find? (fun x => x.2 != index && x.1.conflicts route.method route.pattern (some host)) with
    | some (other, _) => .error (conflictError route.method route.pattern other.pattern)
    | none => .ok ()

/-! ## Adding routes -/

def isConnect (method : String) : Bool := method.toList.map Char.toLower == "connect".toList

/-- The checks and the insertion of a route. -/
def Router.addWithKind (r : Router H M C) (method path : String) (handler : H) (kind : RouteKind C) :
    Router H M C × Except RouteError RouteHandle :=
  if isConnect method then
    (r, .error ⟨.unsupportedMethod,
      "CONNECT requiere una API de tunel dedicada y no se puede registrar como ruta HTTP"⟩)
  else
    let checked := do
      let pattern ← RoutePattern.parse path
      r.validateRouteInsert method pattern none none
      .ok pattern
    match checked with
    | .error e => (r, .error e)
    | .ok pattern =>
      let route : Route H M C :=
        { method, pattern, handler, middlewares := [], routeLayers := 0, kind, routeMeta := {}, name := none,
          host := none }
      ({ r with routes := r.routes ++ [route], index := none }, .ok ⟨r.routes.length⟩)

/-- An HTTP method, `hyper::Method`: a token. -/
structure Method where
  name : String
  nonempty : name ≠ ""
  token : name.toList.all isTokenChar = true

def Method.get : Method := ⟨"GET", by decide, by decide⟩

def Method.post : Method := ⟨"POST", by decide, by decide⟩

def Method.put : Method := ⟨"PUT", by decide, by decide⟩

def Method.delete : Method := ⟨"DELETE", by decide, by decide⟩

def Method.patch : Method := ⟨"PATCH", by decide, by decide⟩

def Method.options : Method := ⟨"OPTIONS", by decide, by decide⟩

def Method.head : Method := ⟨"HEAD", by decide, by decide⟩

/-- The method under which `all` registers. -/
def Method.all : Method := ⟨methodAll, by decide, by decide⟩

def Router.add (r : Router H M C) (method path : String) (handler : H) :
    Router H M C × Except RouteError RouteHandle := r.addWithKind method path handler .http

/-- `Router::route`; `add` checks and inserts. -/
def Router.route (r : Router H M C) (method : Method) (path : String) (handler : H) :
    Router H M C × Except RouteError RouteHandle := r.add method.name path handler

/-- `Router::get`; the other methods differ in the name only. -/
def Router.get (r : Router H M C) (path : String) (handler : H) : Router H M C × Except RouteError RouteHandle :=
  r.add "GET" path handler

def Router.post (r : Router H M C) (path : String) (handler : H) : Router H M C × Except RouteError RouteHandle :=
  r.add "POST" path handler

def Router.put (r : Router H M C) (path : String) (handler : H) : Router H M C × Except RouteError RouteHandle :=
  r.add "PUT" path handler

def Router.delete (r : Router H M C) (path : String) (handler : H) : Router H M C × Except RouteError RouteHandle :=
  r.add "DELETE" path handler

def Router.patch (r : Router H M C) (path : String) (handler : H) : Router H M C × Except RouteError RouteHandle :=
  r.add "PATCH" path handler

def Router.options (r : Router H M C) (path : String) (handler : H) : Router H M C × Except RouteError RouteHandle :=
  r.add "OPTIONS" path handler

def Router.head (r : Router H M C) (path : String) (handler : H) : Router H M C × Except RouteError RouteHandle :=
  r.add "HEAD" path handler

def Router.all (r : Router H M C) (path : String) (handler : H) : Router H M C × Except RouteError RouteHandle :=
  r.add methodAll path handler

/-- Every method, every path. -/
def Router.fallback (r : Router H M C) (handler : H) : Router H M C × Except RouteError RouteHandle :=
  r.add methodAll "/*path" handler

/-- `Router::websocket_with`; `handler` is the closure that upgrades the request. -/
def Router.websocketWith (r : Router H M C) (path : String) (config : C) (handler : H) :
    Router H M C × Except RouteError RouteHandle := r.addWithKind "GET" path handler (.webSocket config)

/-- `Router::layer`; `Router::guard` adds the middleware made of its predicate. -/
def Router.layer (r : Router H M C) (middleware : M) : Router H M C :=
  { r with middlewares := r.middlewares ++ [middleware] }

/-! ## Static files -/

inductive Dotfiles where
  | deny
  | allow
  deriving DecidableEq, Repr

/-- `StaticFilesOptions`, with durations in nanoseconds. -/
structure StaticFilesOptions where
  dotfiles : Dotfiles := .deny
  streamStartTimeout : Option Nat := some 60000000000
  streamStallTimeout : Option Nat := some 15000000000
  streamMaxDuration : Option Nat := some 300000000000
  deriving DecidableEq, Repr

structure StaticEnv (D H : Type) where
  representable : Nat → Bool
  openAmbientDir : String → Except String D
  serveStaticFile : D → StaticFilesOptions → H

def validateStaticOptions (representable : Nat → Bool) (options : StaticFilesOptions) : Except RouteError Unit :=
  let timeouts := [("stream_start_timeout", options.streamStartTimeout),
    ("stream_stall_timeout", options.streamStallTimeout), ("stream_max_duration", options.streamMaxDuration)]
  match timeouts.find? (fun x => x.2.any (fun timeout => timeout == 0 || !representable timeout)) with
  | some (name, _) => .error ⟨.invalidStaticOptions, name ++ " debe ser positivo y representable"⟩
  | none => .ok ()

/-- A prefix and a path, with one slash between. -/
def joinPaths (pre suf : String) : String :=
  let pre := (pre.toList.reverse.dropWhile (· == '/')).reverse
  let suf := suf.toList.dropWhile (· == '/')
  match pre, suf with
  | [], [] => "/"
  | [], suf => String.ofList ('/' :: suf)
  | pre, [] => String.ofList pre
  | pre, suf => String.ofList (pre ++ '/' :: suf)

def staticRoute (method : String) (pattern : RoutePattern) (handler : H) : Route H M C :=
  { method, pattern, handler, middlewares := [], routeLayers := 0, kind := .http, routeMeta := {}, name := none,
    host := none }

/-- `GET` and `HEAD` for the files below a directory. -/
def Router.staticFilesWithOptions (env : StaticEnv D H) (r : Router H M C) (pre root : String)
    (options : StaticFilesOptions) : Router H M C × Except RouteError Unit :=
  let checked := do
    validateStaticOptions env.representable options
    let dir ← (env.openAmbientDir root).mapError (fun error => RouteError.mk .invalidStaticRoot
      ("No se pudo abrir la raiz de archivos estaticos " ++ root ++ ": " ++ error))
    let pattern ← RoutePattern.parse (joinPaths pre "/*path")
    r.validateRouteInsert "GET" pattern none none
    r.validateRouteInsert "HEAD" pattern none none
    .ok (dir, pattern)
  match checked with
  | .error e => (r, .error e)
  | .ok (dir, pattern) =>
    let handler := env.serveStaticFile dir options
    ({ r with routes := r.routes ++ [staticRoute "GET" pattern handler, staticRoute "HEAD" pattern handler]
              index := none }, .ok ())

/-! ## Mounting -/

def Route.mounted (route : Route H M C) (pattern : RoutePattern) (scopedMws : List M) : Route H M C :=
  { route with pattern, middlewares := scopedMws ++ route.middlewares }

def Router.mountRoutes (r : Router H M C) (pre : RoutePattern) (scopedMws : List M) :
    List (Route H M C) → List (Route H M C) → Except RouteError (List (Route H M C))
  | [], mounted => .ok mounted
  | route :: rest, mounted => do
    let pattern ← RoutePattern.join pre route.pattern
    r.validateRouteInsert route.method pattern route.host route.name
    validateRouteBatchInsert mounted route.method pattern route.host route.name
    r.mountRoutes pre scopedMws rest (mounted ++ [route.mounted pattern scopedMws])

/-- All routes of another router under a prefix, or none. -/
def Router.mount (r : Router H M C) (pre : String) (other : Router H M C) : Router H M C × Except RouteError Unit :=
  match RoutePattern.parse pre >>= fun pre => r.mountRoutes pre other.middlewares other.routes [] with
  | .error e => (r, .error e)
  | .ok mounted => ({ r with routes := r.routes ++ mounted, index := none }, .ok ())

/-! ## Route handles -/

/-- Changes the route a handle points at. -/
def Router.modifyRoute (r : Router H M C) (h : RouteHandle) (f : Route H M C → Route H M C) : Router H M C :=
  { r with routes := r.routes.modify h.index f }

/-- The route that failed is taken back. -/
def RouteHandle.failAndRemove (h : RouteHandle) (r : Router H M C) (error : RouteError) :
    Router H M C × Except RouteError RouteHandle :=
  ({ r with routes := r.routes.eraseIdx h.index, index := none }, .error error)

/-- A middleware for the route only. -/
def RouteHandle.layer (h : RouteHandle) (r : Router H M C) (middleware : M) : Router H M C :=
  r.modifyRoute h (fun route =>
    { route with middlewares := route.middlewares ++ [middleware], routeLayers := route.routeLayers + 1 })

/-- `RouteHandle::timeout`; `middleware` is what `middleware::timeout` makes of the duration. -/
def RouteHandle.timeout (h : RouteHandle) (r : Router H M C) (middleware : M) : Router H M C :=
  r.modifyRoute h (fun route => { route with middlewares := route.middlewares ++ [middleware] })

def RouteHandle.setMeta (h : RouteHandle) (r : Router H M C) (f : RouteMeta → RouteMeta) : Router H M C :=
  r.modifyRoute h (fun route => { route with routeMeta := f route.routeMeta })

def RouteHandle.bodyLimit (h : RouteHandle) (r : Router H M C) (bytes : Nat) : Router H M C :=
  h.setMeta r (fun m => { m with bodyLimit := some bytes })

def RouteHandle.summary (h : RouteHandle) (r : Router H M C) (text : String) : Router H M C :=
  h.setMeta r (fun m => { m with summary := some text })

def RouteHandle.description (h : RouteHandle) (r : Router H M C) (text : String) : Router H M C :=
  h.setMeta r (fun m => { m with description := some text })

def RouteHandle.tag (h : RouteHandle) (r : Router H M C) (text : String) : Router H M C :=
  h.setMeta r (fun m => { m with tags := m.tags ++ [text] })

/-- A name, unless it is taken. -/
def RouteHandle.name (h : RouteHandle) (r : Router H M C) (name : String) :
    Router H M C × Except RouteError RouteHandle :=
  if r.routes.zipIdx.any (fun x => x.2 != h.index && x.1.name == some name) then
    h.failAndRemove r ⟨.duplicateName, "Nombre de ruta duplicado: " ++ name⟩
  else (r.modifyRoute h (fun route => { route with name := some name }), .ok h)

/-- A host, unless routes clash then. -/
def RouteHandle.host (h : RouteHandle) (r : Router H M C) (host : String) :
    Router H M C × Except RouteError RouteHandle :=
  match HostPattern.parse host with
  | .error e => h.failAndRemove r e
  | .ok host =>
    match r.validateRouteHostUpdate h.index host with
    | .error e => h.failAndRemove r e
    | .ok () => ({ r.modifyRoute h (fun route => { route with host := some host }) with index := none }, .ok h)

end RustRest
