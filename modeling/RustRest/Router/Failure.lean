import RustRest.Router.Built

/-!
# Failed registrations

Two routers are `Same` when they differ at most in whether the index has been built. Every lookup gives the same result
on them (`Router.Same.agree`), every action keeps them so (`Router.Same.actions`), and a failed registration leaves the
router `Same` as it was: **`failed_registration_invisible`**.
-/

namespace RustRest

variable {H M C D : Type}

/-! ## Routers that cannot be told apart -/

structure Router.Same (r r' : Router H M C) : Prop where
  routes : r.routes = r'.routes
  middlewares : r.middlewares = r'.middlewares
  fresh : r.Fresh
  fresh' : r'.Fresh

structure Router.Agree (r r' : Router H M C) : Prop where
  resolveMethod : ∀ method path host, r.resolveMethod method path host = r'.resolveMethod method path host
  resolveHttpMethod : ∀ method path host, r.resolveHttpMethod method path host = r'.resolveHttpMethod method path host
  allowedMethods : ∀ path host, r.allowedMethods path host = r'.allowedMethods path host
  scopedMiddlewares : ∀ path host, r.scopedMiddlewares path host = r'.scopedMiddlewares path host
  urlFor : ∀ name params, r.urlFor name params = r'.urlFor name params

variable {r r' : Router H M C}

theorem Router.Same.getIndex (h : r.Same r') : r.getIndex.1 = r'.getIndex.1 := by
  rw [h.fresh.getIndex, h.fresh'.getIndex, Router.patterns, Router.patterns, h.routes]

theorem Router.Same.resolveSegments (h : r.Same r') : r.resolveSegments = r'.resolveSegments := by
  have htry : r.tryCandidate = r'.tryCandidate := by unfold Router.tryCandidate; rw [h.routes]
  unfold Router.resolveSegments
  rw [h.getIndex, htry]

theorem Router.Same.agree (h : r.Same r') : r.Agree r' := by
  have hix := h.getIndex
  have hhttp : r.tryHttpCandidate = r'.tryHttpCandidate := by unfold Router.tryHttpCandidate; rw [h.routes]
  have hallow : r.allowStep = r'.allowStep := by unfold Router.allowStep; rw [h.routes]
  have hscoped : r.scopedStep = r'.scopedStep := by
    unfold Router.scopedStep Router.scopedCandidate
    rw [h.routes]
  refine ⟨fun m path host => ?_, fun m path host => ?_, fun path host => ?_, fun path host => ?_, fun n ps => ?_⟩
  · unfold Router.resolveMethod; rw [h.resolveSegments]
  · unfold Router.resolveHttpMethod Router.resolveHttpSegments; rw [hix, hhttp]
  · unfold Router.allowedMethods Router.allowedSegments; rw [hix, hallow]
  · unfold Router.scopedMiddlewares Router.scopedRoute; rw [hix, hscoped, h.routes]
  · unfold Router.urlFor; rw [h.routes]

/-! ## Operations on such routers -/

def SameRun {α : Type} (x y : Router H M C × Except RouteError α) : Prop :=
  x.2 = y.2 ∧ x.1.routes = y.1.routes ∧ x.1.middlewares = y.1.middlewares

section SameRun

variable {r r' : Router H M C} (hr : r.routes = r'.routes) (hm : r.middlewares = r'.middlewares)

include hr hm

theorem sameRun_failAndRemove (h : RouteHandle) (e : RouteError) :
    SameRun (h.failAndRemove r e) (h.failAndRemove r' e) :=
  ⟨rfl, by simp only [RouteHandle.failAndRemove, hr], hm⟩

theorem sameRun_modifyRoute (h : RouteHandle) (f : Route H M C → Route H M C) :
    SameRun (r.modifyRoute h f, .ok h) (r'.modifyRoute h f, .ok h) :=
  ⟨rfl, by simp only [Router.modifyRoute, hr], hm⟩

theorem sameRun_handleCall (h : RouteHandle) (call : HandleCall M) : SameRun (call.run h r) (call.run h r') := by
  cases call with
  | name n =>
    simp only [HandleCall.run, RouteHandle.name, ← hr]
    split
    · exact sameRun_failAndRemove hr hm h _
    · exact sameRun_modifyRoute hr hm h _
  | host s =>
    have hv : r.validateRouteHostUpdate = r'.validateRouteHostUpdate := by
      unfold Router.validateRouteHostUpdate; rw [hr]
    simp only [HandleCall.run, RouteHandle.host, ← hv]
    split
    · exact sameRun_failAndRemove hr hm h _
    · split
      · exact sameRun_failAndRemove hr hm h _
      · exact sameRun_modifyRoute hr hm h _
  | layer m | timeout m | bodyLimit n | summary s | description s | tag s => exact sameRun_modifyRoute hr hm h _

omit hr hm in
theorem sameRun_chain : ∀ (calls : List (HandleCall M)) (h : RouteHandle) {r r' : Router H M C},
    r.routes = r'.routes → r.middlewares = r'.middlewares → SameRun (h.chain r calls) (h.chain r' calls)
  | [], h, r, r', hr, hm => ⟨rfl, hr, hm⟩
  | call :: calls, h, r, r', hr, hm => by
    have hstep := sameRun_handleCall hr hm h call
    unfold RouteHandle.chain
    revert hstep
    rcases call.run h r with ⟨r₁, res₁⟩
    rcases call.run h r' with ⟨r₂, res₂⟩
    rintro ⟨rfl, hr', hm'⟩
    cases res₁ with
    | ok h' => exact sameRun_chain calls h' hr' hm'
    | error e => exact ⟨rfl, hr', hm'⟩

theorem sameRun_addWithKind (method path : String) (handler : H) (kind : RouteKind C) :
    SameRun (r.addWithKind method path handler kind) (r'.addWithKind method path handler kind) := by
  have hv : r.validateRouteInsert = r'.validateRouteInsert := by unfold Router.validateRouteInsert; rw [hr]
  unfold Router.addWithKind
  rw [← hv, ← hr]
  split
  · exact ⟨rfl, hr, hm⟩
  · dsimp only
    split
    · exact ⟨rfl, hr, hm⟩
    · exact ⟨rfl, rfl, hm⟩

theorem sameRun_andChain (method path : String) (handler : H) (kind : RouteKind C) (calls : List (HandleCall M)) :
    SameRun (andChain (r.addWithKind method path handler kind) calls)
      (andChain (r'.addWithKind method path handler kind) calls) := by
  have hstep := sameRun_addWithKind hr hm method path handler kind
  revert hstep
  rcases r.addWithKind method path handler kind with ⟨r₁, res₁⟩
  rcases r'.addWithKind method path handler kind with ⟨r₂, res₂⟩
  rintro ⟨rfl, hr', hm'⟩
  cases res₁ with
  | ok h => exact sameRun_chain calls h hr' hm'
  | error e => exact ⟨rfl, hr', hm'⟩

theorem sameRun_staticFiles (env : StaticEnv D H) (pre root : String) (options : StaticFilesOptions) :
    SameRun (r.staticFilesWithOptions env pre root options) (r'.staticFilesWithOptions env pre root options) := by
  have hv : r.validateRouteInsert = r'.validateRouteInsert := by unfold Router.validateRouteInsert; rw [hr]
  unfold Router.staticFilesWithOptions
  rw [← hv, ← hr]
  dsimp only
  split
  · exact ⟨rfl, hr, hm⟩
  · exact ⟨rfl, rfl, hm⟩

omit hm in
theorem mountRoutes_congr (pre : RoutePattern) (mws : List M) : ∀ routes mounted : List (Route H M C),
    r.mountRoutes pre mws routes mounted = r'.mountRoutes pre mws routes mounted
  | [], mounted => rfl
  | route :: routes, mounted => by
    have hv : r.validateRouteInsert = r'.validateRouteInsert := by unfold Router.validateRouteInsert; rw [hr]
    simp only [Router.mountRoutes, hv, mountRoutes_congr pre mws routes]

theorem sameRun_mount (pre : String) (other : Router H M C) : SameRun (r.mount pre other) (r'.mount pre other) := by
  unfold Router.mount
  simp only [mountRoutes_congr hr, ← hr]
  split
  · exact ⟨rfl, hr, hm⟩
  · exact ⟨rfl, rfl, hm⟩

theorem sameRun_registration (reg : Registration H M C D) : SameRun (reg.run r) (reg.run r') := by
  cases reg with
  | route method path handler calls | websocket path config handler calls => exact sameRun_andChain hr hm _ _ _ _ calls
  | staticFiles env pre root options => exact sameRun_staticFiles hr hm env pre root options
  | mount pre other => exact sameRun_mount hr hm pre other

end SameRun

/-! ## What a registration does to the rest of the router -/

theorem chain_index : ∀ (calls : List (HandleCall M)) (h : RouteHandle) {r : Router H M C}, r.index = none →
    (h.chain r calls).1.index = none
  | [], h, r, hr => hr
  | call :: calls, h, r, hr => by
    have hstep : (call.run h r).1.index = none := by
      cases call with
      | name n =>
        simp only [HandleCall.run, RouteHandle.name]
        split
        · rfl
        · exact hr
      | host s =>
        simp only [HandleCall.run, RouteHandle.host]
        split
        · rfl
        · split <;> rfl
      | layer m | timeout m | bodyLimit n | summary s | description s | tag s => exact hr
    unfold RouteHandle.chain
    revert hstep
    rcases call.run h r with ⟨r₁, h₁ | h₁⟩
    · exact id
    · exact chain_index calls _

theorem andChain_index {method path : String} {handler : H} {kind : RouteKind C}
    {calls : List (HandleCall M)} {res : Except RouteError Unit}
    (h : andChain (r.addWithKind method path handler kind) calls = (r', res)) : r' = r ∨ r'.index = none := by
  rcases hadd : r.addWithKind method path handler kind with ⟨r₁, res₁⟩
  rw [hadd] at h
  rcases addWithKind_cases hadd with ⟨rfl, e, rfl⟩ | ⟨pattern, _, _, rfl, rfl⟩
  · cases h
    exact Or.inl rfl
  · have hix := chain_index calls ⟨r.routes.length⟩ (r := { r with
      routes := r.routes ++ [freshRoute method pattern handler kind], index := none }) rfl
    have hr : (RouteHandle.chain ⟨r.routes.length⟩ _ calls).1 = r' := congrArg Prod.fst h
    exact Or.inr (by rw [← hr]; exact hix)

theorem registration_cases {reg : Registration H M C D} {res : Except RouteError Unit}
    (h : reg.run r = (r', res)) : r'.middlewares = r.middlewares ∧ (r' = r ∨ r'.index = none) ∧
      ((r'.routes = r.routes ∧ ∃ e, res = .error e) ∨ res = .ok ()) := by
  cases reg with
  | route method path handler calls | websocket path config handler calls =>
    obtain ⟨hm, hr | ⟨_, _, hok, _⟩⟩ := andChain_cases h
    · exact ⟨hm, andChain_index h, Or.inl hr⟩
    · exact ⟨hm, andChain_index h, Or.inr hok⟩
  | staticFiles env pre root options =>
    rcases staticFiles_cases h with ⟨rfl, he⟩ | ⟨_, _, _, _, _, _, hok, rfl⟩
    · exact ⟨rfl, Or.inl rfl, Or.inl ⟨rfl, he⟩⟩
    · exact ⟨rfl, Or.inr rfl, Or.inr hok⟩
  | mount pre other =>
    rcases mount_cases h with ⟨rfl, he⟩ | ⟨_, _, _, _, _, _, hok, rfl⟩
    · exact ⟨rfl, Or.inl rfl, Or.inl ⟨rfl, he⟩⟩
    · exact ⟨rfl, Or.inr rfl, Or.inr hok⟩

theorem Router.Fresh.registration {r : Router H M C} (h : r.Fresh) (reg : Registration H M C D) :
    (reg.run r).1.Fresh := by
  rcases hrun : reg.run r with ⟨r', res⟩
  obtain ⟨-, rfl | hix, -⟩ := registration_cases hrun
  · exact h
  · exact Router.fresh_of_index_none hix

/-! ## Runs of actions -/

/-- Something done to a router. -/
inductive Action (H M C D : Type) where
  | register (reg : Registration H M C D)
  | layer (middleware : M)
  | lookup (path : String)

def Action.run (r : Router H M C) : Action H M C D → Router H M C
  | .register reg => (reg.run r).1
  | .layer middleware => r.layer middleware
  | .lookup path => r.afterLookup path

theorem Router.Same.action (h : r.Same r') (a : Action H M C D) : (a.run r).Same (a.run r') := by
  cases a with
  | register reg =>
    obtain ⟨_, hr, hm⟩ := sameRun_registration h.routes h.middlewares reg
    exact ⟨hr, hm, h.fresh.registration reg, h.fresh'.registration reg⟩
  | layer m => exact ⟨h.routes, congrArg (· ++ [m]) h.middlewares, h.fresh, h.fresh'⟩
  | lookup path =>
    obtain ⟨hr, hm⟩ := afterLookup_routes r path
    obtain ⟨hr', hm'⟩ := afterLookup_routes r' path
    exact ⟨by rw [Action.run, Action.run, hr, hr', h.routes], by rw [Action.run, Action.run, hm, hm', h.middlewares],
      h.fresh.afterLookup path, h.fresh'.afterLookup path⟩

theorem Router.Same.actions (h : r.Same r') : ∀ later : List (Action H M C D),
    (later.foldl Action.run r).Same (later.foldl Action.run r') := by
  intro later
  induction later generalizing r r' with
  | nil => exact h
  | cons a later ih => exact ih (h.action a)

/-- **A failed registration is invisible**: the routes are those before it began, and whatever is done to the router
later, every lookup, `Allow` computation and generated URL is what it would have been without the attempt. -/
theorem failed_registration_invisible {r : Router H M C} {os : List (Origin M)} (hb : Built r os)
    (reg : Registration H M C D) {e : RouteError} (hfail : (reg.run r).2 = .error e) :
    (reg.run r).1.routes = r.routes ∧ ∀ later : List (Action H M C D),
      (later.foldl Action.run (reg.run r).1).Agree (later.foldl Action.run r) := by
  have hfresh := hb.inv.fresh.registration reg
  rcases hrun : reg.run r with ⟨r', res⟩
  rw [hrun] at hfail hfresh
  obtain ⟨hm, -, ⟨hr, -⟩ | hok⟩ := registration_cases hrun
  · have hsame : r'.Same r := ⟨hr, hm, hfresh, hb.inv.fresh⟩
    exact ⟨hr, fun later => (hsame.actions later).agree⟩
  · cases hfail.symm.trans hok

def namedRouter : Router Nat Nat Unit :=
  (andChain ((andChain (Router.new.route .get "/users/:id" 1) [.name "user"]).1.route .get "/users/:name" 2) []).1

theorem namedRouter_built : Built namedRouter [⟨[], []⟩] :=
  .route .get "/users/:name" 2 [] (.route .get "/users/:id" 1 [.name "user"] .new)

def takenName : Registration Nat Nat Unit Unit :=
  .route .post "/people" 3 [.host "api.example.com", .name "user"]

theorem takenName_invisible :
    (takenName.run namedRouter).2 = .error ⟨.duplicateName, "Nombre de ruta duplicado: user"⟩ ∧
      (takenName.run namedRouter).1.routes = namedRouter.routes ∧ ∀ later : List (Action Nat Nat Unit Unit),
        (later.foldl Action.run (takenName.run namedRouter).1).Agree (later.foldl Action.run namedRouter) :=
  have hfail : (takenName.run namedRouter).2 = .error ⟨.duplicateName, "Nombre de ruta duplicado: user"⟩ := by
    decide +kernel
  ⟨hfail, failed_registration_invisible namedRouter_built takenName hfail⟩

end RustRest
