import RustRest.Router.Allow
import RustRest.Server.Chain

/-!
# Misses

`resolve_miss` answers a request that matches no route: 404, or 405 and automatic `OPTIONS` with an `Allow` header.
`Allow` is collected from all matching routes, the middlewares from one of them.

Main result: **`guarded_iff`**.
-/

namespace RustRest

variable {H M C : Type}

/-- What answers a request: the handler of a route, or a synthesized one (`not_found_handler`,
`method_not_allowed_handler`, `options_handler`). -/
inductive Answer (H : Type) where
  | route (handler : H)
  | notFound
  | methodNotAllowed (allow : String)
  | options (allow : String)
  deriving DecidableEq

/-- `App`, as far as misses depend on it. -/
structure App (H M C : Type) where
  router : Router H M C
  middlewares : List M

def MatchedRoute.answer (found : MatchedRoute H M C) : MatchedRoute (Answer H) M C where
  handler := .route found.handler
  middlewares := found.middlewares
  params := found.params
  pattern := found.pattern
  kind := found.kind
  bodyLimit := found.bodyLimit

/-- A match that stands for no route. -/
def synthesized (handler : Answer H) (middlewares : List M) : MatchedRoute (Answer H) M C where
  handler := handler
  middlewares := middlewares
  params := ∅
  pattern := ""
  kind := .http
  bodyLimit := none

/-- `resolve_miss`: 404, 405 or the answer to `OPTIONS`. -/
def App.resolveMiss (app : App H M C) (method path : String) (host : Option String) :
    Except RouteMatchError (MatchedRoute (Answer H) M C) := do
  let allowed ← app.router.allowedMethods path host
  let implicitHead ← app.router.resolveHttpMethod "GET" path host
  let allow := allowHeaderValue allowed implicitHead.isSome
  if allowed.isEmpty then
    .ok (synthesized .notFound [])
  else match method == "HEAD", implicitHead with
    | true, some found => .ok found.answer
    | _, _ =>
      if method = "OPTIONS" then do
        let middlewares ← app.router.scopedMiddlewares path host
        .ok (synthesized (.options allow) middlewares)
      else do
        let middlewares ← app.router.scopedMiddlewares path host
        .ok (synthesized (.methodNotAllowed allow) middlewares)

def App.resolve (app : App H M C) (method path : String) (host : Option String) :
    Except RouteMatchError (MatchedRoute (Answer H) M C) := do
  match ← app.router.resolveMethod method path host with
  | some found => .ok found.answer
  | none => app.resolveMiss method path host

/-- The part of `App::dispatch_until` that runs what answers a request. -/
def App.respond {Req Resp : Type} (env : ChainEnv M Req Resp) (app : App H M C) (found : MatchedRoute (Answer H) M C)
    (handle : Answer H → Req → Option Resp) (req : Req) : Resp :=
  executeChain env app.middlewares found.middlewares (handle found.handler) req

def missAnswer (method allow : String) : Answer H :=
  if method = "OPTIONS" then .options allow else .methodNotAllowed allow

def Router.selectedMiddlewares (r : Router H M C) (segments : List String) (host : Option String) : List M :=
  match (r.scopedRoute segments host).bind (fun index => r.routes[index]?) with
  | some route => route.scopedMiddlewares
  | none => []

section Miss

variable {app : App H M C} {os : List (Origin M)} {method path : String} {segments : List String}
  {host : Option String}

theorem resolveMiss_synthesized (hinv : app.router.Inv) (hd : decodePathSegments path = .ok segments)
    (hmiss : app.router.resolveMethod method path host = .ok none)
    (hallowed : app.router.allowedMethods path host ≠ .ok []) :
    app.resolve method path host = .ok (synthesized
      (missAnswer method (allowHeaderValue (app.router.allowedSegments segments host)
        (app.router.resolveHttpSegments "GET" segments host).isSome))
      (app.router.selectedMiddlewares segments host)) := by
  have hmiss' : app.router.resolveSegments method segments host = none := by
    rw [Router.resolveMethod, hd, Except.map, Except.ok.injEq] at hmiss
    exact hmiss
  have hne : app.router.allowedSegments segments host ≠ [] := by
    rw [Router.allowedMethods, hd, Except.map, ne_eq, Except.ok.injEq] at hallowed
    exact hallowed
  have hscoped : app.router.scopedMiddlewares path host = .ok (app.router.selectedMiddlewares segments host) := by
    rw [Router.scopedMiddlewares, hd]
    rfl
  -- a `HEAD` request would have been answered by the `GET` route
  have hhead : method = "HEAD" → app.router.resolveHttpSegments "GET" segments host = none := by
    rintro rfl
    rw [resolveHttpSegments_eq_none hinv.fresh]
    intro a ha
    by_contra hans
    have := (resolveSegments_eq_none hinv).1 hmiss' a ha
    rw [(answers_head_iff hinv ha).2 (Or.inr (by simpa using hans))] at this
    cases this
  have hresolve : app.resolve method path host = app.resolveMiss method path host := by
    unfold App.resolve
    rw [hmiss]
    rfl
  rw [hresolve, App.resolveMiss, hscoped, Router.allowedMethods, Router.resolveHttpMethod, hd]
  simp only [Except.map, bind, Except.bind, List.isEmpty_iff, if_neg hne, missAnswer]
  split
  · rename_i found heq hget
    rw [hhead (by simpa using heq)] at hget
    cases hget
  · split <;> rfl

/-! ## Guards around synthesized answers -/

structure Guarded (app : App H M C) (os : List (Origin M)) (segments : List String) (host : Option String)
    (found : MatchedRoute (Answer H) M C) : Prop where
  run : ∀ x ∈ app.router.disclosed segments host, ∀ o, os[x.2]? = some o → ∀ m ∈ o.through.flatten,
    m ∈ app.middlewares ++ found.middlewares
  hides : ∀ x ∈ app.router.disclosed segments host, ∀ o, os[x.2]? = some o → ∀ m ∈ o.through.flatten,
    ∀ {Req Resp : Type} (env : ChainEnv M Req Resp) (S : Set Req),
      (∀ n ∈ app.middlewares ++ found.middlewares, env.Keeps S n) → env.Denies S m → ∀ req ∈ S,
      ∀ handle handle' : Answer H → Req → Option Resp,
        app.respond env found handle req = app.respond env found handle' req

theorem Guarded.of_run {found : MatchedRoute (Answer H) M C}
    (h : ∀ x ∈ app.router.disclosed segments host, ∀ o, os[x.2]? = some o → ∀ m ∈ o.through.flatten,
      m ∈ app.middlewares ++ found.middlewares) : Guarded app os segments host found where
  run := h
  hides := by
    intro x hx o ho m hm Req Resp env S hkeeps hdeny req hreq handle handle'
    exact executeChain_denied (h x hx o ho m hm) hkeeps hdeny hreq _ _

theorem selectedMiddlewares_eq {r : Router H M C} (hb : Built r os) {x : Route H M C × Nat}
    (hx : x ∈ r.disclosed segments host) (hmax : ∀ y ∈ r.disclosed segments host, specRank x ≤ specRank y)
    {o : Origin M} (ho : os[x.2]? = some o) : r.selectedMiddlewares segments host =
      o.through.flatten ++ (o.attached.map Attached.middleware).take (o.attached.countP (fun t => !t.isLayer)) := by
  have hget := List.mem_zipIdx_iff_getElem?.1 (mem_disclosed.1 hx).1
  obtain ⟨o', ho', horig⟩ := hb.originOf hget
  rw [ho] at ho'
  cases ho'
  rw [Router.selectedMiddlewares, (scopedRoute_eq_some hb.inv.fresh).2 ⟨x, hx, rfl, hmax⟩, Option.bind_some, hget]
  exact horig.scopedMiddlewares

/-- **When guards cannot be probed**: the answer to a request that matches no route is guarded by every disclosed route
exactly if each router that one of them was mounted through has only middlewares that are global, or of a router that
the disclosed route of the greatest specificity (the first registered on ties) was mounted through, or among the first
`k` attached to that route, with `k` the number of its `timeout` calls. -/
theorem guarded_iff (hb : Built app.router os) (hd : decodePathSegments path = .ok segments)
    (hmiss : app.router.resolveMethod method path host = .ok none)
    (hallowed : app.router.allowedMethods path host ≠ .ok []) :
    (∃ found, app.resolve method path host = .ok found ∧
      (∃ allow, found.handler = .options allow ∨ found.handler = .methodNotAllowed allow) ∧
      Guarded app os segments host found) ↔
    ∀ x ∈ app.router.disclosed segments host,
      (∀ y ∈ app.router.disclosed segments host, specRank x ≤ specRank y) → ∀ first, os[x.2]? = some first →
      ∀ z ∈ app.router.disclosed segments host, ∀ o, os[z.2]? = some o → ∀ m ∈ o.through.flatten,
        m ∈ app.middlewares ∨ m ∈ first.through.flatten ∨
          m ∈ (first.attached.map Attached.middleware).take (first.attached.countP (fun t => !t.isLayer)) := by
  have hinv := hb.inv
  have hresolve := resolveMiss_synthesized hinv hd hmiss hallowed
  constructor
  · rintro ⟨found, hfound, -, hguard⟩ x hx hmax first hfirst z hz o ho m hm
    rw [hresolve, Except.ok.injEq] at hfound
    subst hfound
    have hrun := hguard.run z hz o ho m hm
    rw [synthesized, selectedMiddlewares_eq hb hx hmax hfirst, List.mem_append, List.mem_append] at hrun
    exact hrun
  · intro hcond
    refine ⟨_, hresolve, ?_, Guarded.of_run fun z hz o ho m hm => ?_⟩
    · unfold missAnswer
      split
      · exact ⟨_, Or.inl rfl⟩
      · exact ⟨_, Or.inr rfl⟩
    · cases hs : app.router.scopedRoute segments host with
      | none => rw [(scopedRoute_eq_none hinv.fresh).1 hs] at hz; cases hz
      | some i =>
        obtain ⟨x, hx, -, hmax⟩ := (scopedRoute_eq_some hinv.fresh).1 hs
        obtain ⟨first, hfirst, -⟩ := hb.originOf (List.mem_zipIdx_iff_getElem?.1 (mem_disclosed.1 hx).1)
        rw [synthesized, selectedMiddlewares_eq hb hx hmax hfirst, List.mem_append, List.mem_append]
        exact hcond x hx hmax first hfirst z hz o ho m hm

end Miss

/-- One guarded router is enough: its only route is the selected one. -/
theorem timeoutRouter_guarded : ∃ found, (App.mk timeoutRouter []).resolve "DELETE" "/a" none = .ok found ∧
    (∃ allow, found.handler = .options allow ∨ found.handler = .methodNotAllowed allow) ∧
    Guarded (App.mk timeoutRouter []) [⟨[[1]], [.timeout 9]⟩] ["a"] none found := by
  have hd : decodePathSegments "/a" = .ok ["a"] := by decide +kernel
  have hmiss : timeoutRouter.resolveMethod "DELETE" "/a" none = .ok none := by decide +kernel
  have hallowed : timeoutRouter.allowedMethods "/a" none ≠ .ok [] := by decide +kernel
  refine (@guarded_iff _ _ _ (App.mk timeoutRouter []) _ _ _ _ _ timeoutRouter_built hd hmiss hallowed).2 ?_
  have hzero : ∀ z ∈ timeoutRouter.disclosed ["a"] none, z.2 = 0 := by decide +kernel
  intro x hx _ first hfirst z hz o ho m hm
  rw [hzero x hx] at hfirst
  rw [hzero z hz] at ho
  cases hfirst
  cases ho
  exact Or.inr (Or.inl hm)

def probeApp : App Nat Nat Unit where
  router :=
    let visible := (Registration.run (D := Unit) (Router.new.layer 1) (.route .get "/a" 10 [])).1
    let secret := (Registration.run (D := Unit) (Router.new.layer 2) (.route .post "/:x" 20 [])).1
    ((Router.new.mount "/" visible).1.mount "/" secret).1
  middlewares := []

theorem probeApp_built : Built probeApp.router [⟨[[1]], []⟩, ⟨[[2]], []⟩] :=
  .mount "/" (.mount "/" .new (.route .get "/a" 10 [] (.layer 1 .new))) (.route .post "/:x" 20 [] (.layer 2 .new))

def probeEnv : ChainEnv Nat Unit String where
  apply := fun m req next => if m = 2 then some "denied" else some (next req)
  render := id
  panicResponse := "panic"

/-- A response that consists of the `Allow` value. -/
def showAllow : Answer Nat → Unit → Option String
  | .options allow, _ | .methodNotAllowed allow, _ => some allow
  | _, _ => some ""

/-- `DELETE /a` is answered with the `POST` route of the second router in `Allow`, although its guard denies. -/
theorem probeApp_unguarded :
    Built probeApp.router [⟨[[1]], []⟩, ⟨[[2]], []⟩] ∧
    probeApp.resolve "DELETE" "/a" none = .ok (synthesized (.methodNotAllowed "GET, POST, HEAD, OPTIONS") [1]) ∧
    probeApp.respond probeEnv (synthesized (.methodNotAllowed "GET, POST, HEAD, OPTIONS") [1]) showAllow () =
      "GET, POST, HEAD, OPTIONS" ∧
    ¬Guarded probeApp [⟨[[1]], []⟩, ⟨[[2]], []⟩] ["a"] none
      (synthesized (.methodNotAllowed "GET, POST, HEAD, OPTIONS") [1]) := by
  refine ⟨probeApp_built, by decide +kernel, by decide +kernel, fun h => ?_⟩
  have hroute : ∃ x ∈ probeApp.router.disclosed ["a"] none, x.2 = 1 := by decide +kernel
  obtain ⟨x, hx, hx1⟩ := hroute
  have hrun := h.run x hx ⟨[[2]], []⟩ (by rw [hx1]; rfl) 2 (by decide)
  exact absurd hrun (by decide)

end RustRest
