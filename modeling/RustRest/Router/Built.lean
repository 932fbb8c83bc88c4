import RustRest.Router.Invariant

/-!
# Whole registrations and the routers they build

A `RouteHandle` borrows its router, so the calls on it form one chain that ends before anything else happens to the
router. `Registration.run` is such a unit: a route with the chain of handle calls after it, a static mount, or a mount.
`Built` is the relation "some interleaving of registrations (failing ones included), `layer` calls and lookups leads to
this router", with the origin of every route's middlewares as a ghost.

Main result: **`built_wellFormed`**.
-/

namespace RustRest

open SegTrie

variable {H M C D : Type}

/-! ## Registrations -/

inductive HandleCall (M : Type) where
  | layer (middleware : M)
  | timeout (middleware : M)
  | bodyLimit (bytes : Nat)
  | summary (text : String)
  | description (text : String)
  | tag (text : String)
  | name (text : String)
  | host (text : String)

def HandleCall.run (h : RouteHandle) (r : Router H M C) : HandleCall M → Router H M C × Except RouteError RouteHandle
  | .layer middleware => (h.layer r middleware, .ok h)
  | .timeout middleware => (h.timeout r middleware, .ok h)
  | .bodyLimit bytes => (h.bodyLimit r bytes, .ok h)
  | .summary text => (h.summary r text, .ok h)
  | .description text => (h.description r text, .ok h)
  | .tag text => (h.tag r text, .ok h)
  | .name text => h.name r text
  | .host text => h.host r text

/-- A chain of handle calls, with `?` after each. -/
def RouteHandle.chain (h : RouteHandle) (r : Router H M C) : List (HandleCall M) → Router H M C × Except RouteError Unit
  | [] => (r, .ok ())
  | call :: calls =>
    match call.run h r with
    | (r', .ok h') => h'.chain r' calls
    | (r', .error e) => (r', .error e)

def andChain (res : Router H M C × Except RouteError RouteHandle) (calls : List (HandleCall M)) :
    Router H M C × Except RouteError Unit :=
  match res with
  | (r, .ok h) => h.chain r calls
  | (r, .error e) => (r, .error e)

inductive Registration (H M C D : Type) where
  | route (method : Method) (path : String) (handler : H) (calls : List (HandleCall M))
  | websocket (path : String) (config : C) (handler : H) (calls : List (HandleCall M))
  | staticFiles (env : StaticEnv D H) (pre root : String) (options : StaticFilesOptions)
  | mount (pre : String) (other : Router H M C)

def Registration.run (r : Router H M C) : Registration H M C D → Router H M C × Except RouteError Unit
  | .route method path handler calls => andChain (r.route method path handler) calls
  | .websocket path config handler calls => andChain (r.websocketWith path config handler) calls
  | .staticFiles env pre root options => r.staticFilesWithOptions env pre root options
  | .mount pre other => r.mount pre other

/-! ## Origins -/

inductive Attached (M : Type) where
  | layer (middleware : M)
  | timeout (middleware : M)
  deriving DecidableEq

/-- The middleware itself. -/
def Attached.middleware : Attached M → M
  | .layer m => m
  | .timeout m => m

/-- It was attached with `layer`. -/
def Attached.isLayer : Attached M → Bool
  | .layer _ => true
  | .timeout _ => false

def HandleCall.attached? : HandleCall M → Option (Attached M)
  | .layer m => some (.layer m)
  | .timeout m => some (.timeout m)
  | _ => none

structure Origin (M : Type) where
  through : List (List M)
  attached : List (Attached M)
  deriving DecidableEq

def Origin.mounted (mws : List M) (o : Origin M) : Origin M :=
  { o with through := mws :: o.through }

/-- The origin after more handle calls. -/
def Origin.attach (o : Origin M) (xs : List (Attached M)) : Origin M :=
  { o with attached := o.attached ++ xs }

structure OriginOf (o : Origin M) (a : Route H M C) : Prop where
  middlewares : a.middlewares = o.through.flatten ++ o.attached.map Attached.middleware
  routeLayers : a.routeLayers = o.attached.countP Attached.isLayer

def originsAfter {α : Type} (os new : List (Origin M)) : Except RouteError α → List (Origin M)
  | .ok _ => os ++ new
  | .error _ => os

inductive Built : Router H M C → List (Origin M) → Prop where
  | new : Built .new []
  | layer {r : Router H M C} {os : List (Origin M)} (middleware : M) : Built r os → Built (r.layer middleware) os
  | lookup {r : Router H M C} {os : List (Origin M)} (path : String) : Built r os → Built (r.afterLookup path) os
  | route {r : Router H M C} {os : List (Origin M)} (method : Method) (path : String) (handler : H)
      (calls : List (HandleCall M)) : Built r os → Built (andChain (r.route method path handler) calls).1
        (originsAfter os [⟨[], calls.filterMap HandleCall.attached?⟩] (andChain (r.route method path handler) calls).2)
  | websocket {r : Router H M C} {os : List (Origin M)} (path : String) (config : C) (handler : H)
      (calls : List (HandleCall M)) : Built r os → Built (andChain (r.websocketWith path config handler) calls).1
        (originsAfter os [⟨[], calls.filterMap HandleCall.attached?⟩]
          (andChain (r.websocketWith path config handler) calls).2)
  | staticFiles {r : Router H M C} {os : List (Origin M)} {D : Type} (env : StaticEnv D H) (pre root : String)
      (options : StaticFilesOptions) : Built r os → Built (r.staticFilesWithOptions env pre root options).1
        (originsAfter os [⟨[], []⟩, ⟨[], []⟩] (r.staticFilesWithOptions env pre root options).2)
  | mount {r other : Router H M C} {os inner : List (Origin M)} (pre : String) : Built r os → Built other inner →
      Built (r.mount pre other).1
        (originsAfter os (inner.map (Origin.mounted other.middlewares)) (r.mount pre other).2)

/-! ## Chains of handle calls -/

section Chain

variable {h : RouteHandle} {init : List (Route H M C)}

@[simp] theorem Origin.attach_nil (o : Origin M) : o.attach [] = o := by simp [Origin.attach]

theorem Origin.attach_attach (o : Origin M) (xs ys : List (Attached M)) :
    (o.attach xs).attach ys = o.attach (xs ++ ys) := by simp [Origin.attach]

theorem OriginOf.attach {o : Origin M} {a b : Route H M C} (ho : OriginOf o a) (x : Attached M)
    (hm : b.middlewares = a.middlewares ++ [x.middleware])
    (hl : b.routeLayers = a.routeLayers + if x.isLayer then 1 else 0) : OriginOf (o.attach [x]) b where
  middlewares := by rw [hm, ho.middlewares]; simp [Origin.attach]
  routeLayers := by rw [hl, ho.routeLayers]; simp [Origin.attach]

theorem OriginOf.congr {o : Origin M} {a b : Route H M C} (ho : OriginOf o a) (hm : b.middlewares = a.middlewares)
    (hl : b.routeLayers = a.routeLayers) : OriginOf (o.attach []) b := by
  rw [Origin.attach_nil]
  exact ⟨hm.trans ho.middlewares, hl.trans ho.routeLayers⟩

theorem HandleCall.run_cases {r r' : Router H M C} {a : Route H M C} (ha : h.At r init a) (call : HandleCall M)
    {res : Except RouteError RouteHandle} (hrun : call.run h r = (r', res)) : r'.middlewares = r.middlewares ∧
      ((r'.routes = init ∧ ∃ e, res = .error e) ∨ ∃ b, h.At r' init b ∧ res = .ok h ∧ b.pattern = a.pattern ∧
        ∀ o, OriginOf o a → OriginOf (o.attach call.attached?.toList) b) := by
  -- the calls that cannot fail
  have hmod : ∀ f : Route H M C → Route H M C, (r.modifyRoute h f, .ok h) = (r', res) → (f a).pattern = a.pattern →
      (∀ o, OriginOf o a → OriginOf (o.attach call.attached?.toList) (f a)) →
      r'.middlewares = r.middlewares ∧ ((r'.routes = init ∧ ∃ e, res = .error e) ∨ ∃ b, h.At r' init b ∧ res = .ok h ∧
        b.pattern = a.pattern ∧ ∀ o, OriginOf o a → OriginOf (o.attach call.attached?.toList) b) := by
    intro f hf hpattern ho
    cases hf
    exact ⟨rfl, Or.inr ⟨f a, ⟨ha.modifyRoute f, ha.2⟩, rfl, hpattern, ho⟩⟩
  cases call with
  | layer m => exact hmod _ hrun rfl fun o ho => ho.attach (.layer m) rfl rfl
  | timeout m => exact hmod _ hrun rfl fun o ho => ho.attach (.timeout m) rfl rfl
  | bodyLimit _ | summary _ | description _ | tag _ => exact hmod _ hrun rfl fun o ho => ho.congr rfl rfl
  | name n =>
    rcases ha.name_cases hrun with ⟨rfl, he⟩ | ⟨rfl, hres, _⟩
    · exact ⟨rfl, Or.inl ⟨rfl, he⟩⟩
    · exact hmod _ (by rw [hres]) rfl fun o ho => ho.congr rfl rfl
  | host s =>
    rcases ha.host_cases hrun with ⟨rfl, he⟩ | ⟨p, rfl, hres, _⟩
    · exact ⟨rfl, Or.inl ⟨rfl, he⟩⟩
    · refine ⟨rfl, Or.inr ⟨{ a with host := some p }, ⟨ha.modifyRoute _, ha.2⟩, hres, rfl, fun o ho => ?_⟩⟩
      exact ho.congr rfl rfl

theorem Router.Inv.handleCall {r : Router H M C} {a : Route H M C} (hinv : r.Inv) (ha : h.At r init a)
    (call : HandleCall M) : (call.run h r).1.Inv := by
  cases call with
  | name n => exact hinv.name ha n
  | host s => exact hinv.host ha s
  | _ => exact hinv.modifyRoute ha rfl rfl rfl rfl rfl

theorem chain_cases : ∀ (calls : List (HandleCall M)) {r r' : Router H M C} {a : Route H M C}
    {res : Except RouteError Unit}, h.At r init a → h.chain r calls = (r', res) → r'.middlewares = r.middlewares ∧
      ((r'.routes = init ∧ ∃ e, res = .error e) ∨ ∃ b, r'.routes = init ++ [b] ∧ res = .ok () ∧ b.pattern = a.pattern ∧
        ∀ o, OriginOf o a → OriginOf (o.attach (calls.filterMap HandleCall.attached?)) b)
  | [], r, r', a, res, ha, hrun => by
    cases hrun
    exact ⟨rfl, Or.inr ⟨a, ha.1, rfl, rfl, fun o ho => by simpa using ho⟩⟩
  | call :: calls, r, r', a, res, ha, hrun => by
    rcases hcall : call.run h r with ⟨r₁, res₁⟩
    simp only [RouteHandle.chain, hcall] at hrun
    obtain ⟨hmws, ⟨hr, e, rfl⟩ | ⟨b, hb, rfl, hpattern, hob⟩⟩ := call.run_cases ha hcall
    · cases hrun
      exact ⟨hmws, Or.inl ⟨hr, e, rfl⟩⟩
    · obtain ⟨hmws', ⟨hr, e, he⟩ | ⟨d, hd, hok, hpattern', hod⟩⟩ := chain_cases calls hb hrun
      · exact ⟨hmws'.trans hmws, Or.inl ⟨hr, e, he⟩⟩
      · refine ⟨hmws'.trans hmws, Or.inr ⟨d, hd, hok, hpattern'.trans hpattern, fun o ho => ?_⟩⟩
        have hd := hod _ (hob o ho)
        rw [Origin.attach_attach] at hd
        cases hc : call.attached? <;> simpa [hc] using hd

theorem Router.Inv.chain : ∀ (calls : List (HandleCall M)) {r : Router H M C} {a : Route H M C}, r.Inv →
    h.At r init a → (h.chain r calls).1.Inv
  | [], r, a, hinv, _ => hinv
  | call :: calls, r, a, hinv, ha => by
    have hnext := hinv.handleCall ha call
    rcases hcall : call.run h r with ⟨r₁, res₁⟩
    rw [hcall] at hnext
    simp only [RouteHandle.chain, hcall]
    obtain ⟨-, ⟨_, e, rfl⟩ | ⟨b, hb, rfl, -⟩⟩ := call.run_cases ha hcall
    · exact hnext
    · exact Router.Inv.chain calls hnext hb

end Chain

/-! ## What a registration can do -/

theorem andChain_cases {r r' : Router H M C} {method path : String} {handler : H} {kind : RouteKind C}
    {calls : List (HandleCall M)} {res : Except RouteError Unit}
    (h : andChain (r.addWithKind method path handler kind) calls = (r', res)) : r'.middlewares = r.middlewares ∧
      ((r'.routes = r.routes ∧ ∃ e, res = .error e) ∨ ∃ b, r'.routes = r.routes ++ [b] ∧ res = .ok () ∧
        RoutePattern.parse path = .ok b.pattern ∧ OriginOf ⟨[], calls.filterMap HandleCall.attached?⟩ b) := by
  rcases hadd : r.addWithKind method path handler kind with ⟨r₁, res₁⟩
  rw [hadd] at h
  rcases addWithKind_cases hadd with ⟨rfl, e, rfl⟩ | ⟨pattern, hparse, _, rfl, rfl⟩
  · cases h
    exact ⟨rfl, Or.inl ⟨rfl, e, rfl⟩⟩
  · have hat : RouteHandle.At ⟨r.routes.length⟩ { r with
        routes := r.routes ++ [freshRoute method pattern handler kind], index := none } r.routes _ := ⟨rfl, rfl⟩
    obtain ⟨hmws, hr | ⟨b, hb, hok, hpattern, hob⟩⟩ := chain_cases calls hat h
    · exact ⟨hmws, Or.inl hr⟩
    · refine ⟨hmws, Or.inr ⟨b, hb, hok, hpattern ▸ hparse, ?_⟩⟩
      simpa [Origin.attach] using hob ⟨[], []⟩ ⟨rfl, rfl⟩

variable {r : Router H M C}

theorem Router.Inv.andChain (hinv : r.Inv) {method path : String} {handler : H}
    {kind : RouteKind C} (calls : List (HandleCall M)) (hws : kind.isWebSocket = true → method = "GET")
    (hne : method ≠ "") (htok : method.toList.all isTokenChar = true) :
    (andChain (r.addWithKind method path handler kind) calls).1.Inv := by
  have hnext : (r.addWithKind method path handler kind).1.Inv := hinv.addWithKind hws hne htok
  rcases hadd : r.addWithKind method path handler kind with ⟨r₁, res₁⟩
  rw [hadd] at hnext
  rcases addWithKind_cases hadd with ⟨rfl, e, rfl⟩ | ⟨pattern, _, _, rfl, rfl⟩
  · exact hnext
  · have hat : RouteHandle.At ⟨r.routes.length⟩ { r with
        routes := r.routes ++ [freshRoute method pattern handler kind], index := none } r.routes _ := ⟨rfl, rfl⟩
    exact Router.Inv.chain calls hnext hat

variable {os : List (Origin M)}

/-- What holds of every router that can be built. -/
theorem Built.inv (h : Built r os) : r.Inv := by
  induction h with
  | new => exact inv_new
  | layer m _ ih => exact ih.layer m
  | lookup path _ ih => exact ih.afterLookup path
  | route method path handler calls _ ih =>
    exact ih.andChain calls (by simp [RouteKind.isWebSocket]) method.nonempty method.token
  | websocket path config handler calls _ ih => exact ih.andChain calls (fun _ => rfl) (by decide) (by decide)
  | staticFiles env pre root options _ ih => exact ih.staticFiles env pre root options
  | mount pre _ _ ih ih' => exact ih.mount ih' pre

theorem MountedAs.originOf {pre : RoutePattern} {mws : List M} {a b : Route H M C} {o : Origin M}
    (h : MountedAs pre mws a b) (ho : OriginOf o a) : OriginOf (o.mounted mws) b := by
  obtain ⟨p, _, rfl⟩ := h
  exact ⟨by simp [Route.mounted, Origin.mounted, ho.middlewares], ho.routeLayers⟩

theorem forall₂_mounted {pre : RoutePattern} {mws : List M} {routes new : List (Route H M C)}
    (h : List.Forall₂ (MountedAs pre mws) routes new) : ∀ {os : List (Origin M)}, List.Forall₂ OriginOf os routes →
      List.Forall₂ OriginOf (os.map (Origin.mounted mws)) new := by
  induction h with
  | nil => intro os hos; cases hos; exact .nil
  | cons hab _ ih =>
    intro os hos
    cases hos with
    | cons ho hos => exact .cons (hab.originOf ho) (ih hos)

theorem originsAfter_append {os new : List (Origin M)} {routes routes' added : List (Route H M C)}
    (hos : List.Forall₂ OriginOf os routes) (hnew : List.Forall₂ OriginOf new added) (hr : routes' = routes ++ added) :
    List.Forall₂ OriginOf (originsAfter os new (.ok () : Except RouteError Unit)) routes' := by
  rw [hr]
  exact List.rel_append hos hnew

theorem Built.origins (h : Built r os) :
    List.Forall₂ OriginOf os r.routes := by
  induction h with
  | new => exact .nil
  | layer m _ ih => exact ih
  | @lookup r os path _ ih => rw [(afterLookup_routes r path).1]; exact ih
  | @route r os method path handler calls _ ih =>
    rcases hrun : RustRest.andChain (r.route method path handler) calls with ⟨r', res⟩
    obtain ⟨-, ⟨hr, e, rfl⟩ | ⟨b, hr, rfl, -, hob⟩⟩ := andChain_cases hrun
    · rw [hr]; exact ih
    · exact originsAfter_append ih (.cons hob .nil) hr
  | @websocket r os path config handler calls _ ih =>
    rcases hrun : RustRest.andChain (r.websocketWith path config handler) calls with ⟨r', res⟩
    obtain ⟨-, ⟨hr, e, rfl⟩ | ⟨b, hr, rfl, -, hob⟩⟩ := andChain_cases hrun
    · rw [hr]; exact ih
    · exact originsAfter_append ih (.cons hob .nil) hr
  | @staticFiles r os D env pre root options _ ih =>
    rcases hrun : r.staticFilesWithOptions env pre root options with ⟨r', res⟩
    rcases staticFiles_cases hrun with ⟨rfl, e, rfl⟩ | ⟨_, _, _, _, _, _, rfl, rfl⟩
    · exact ih
    · exact originsAfter_append ih (.cons ⟨rfl, rfl⟩ (.cons ⟨rfl, rfl⟩ .nil)) rfl
  | @mount r other os inner pre _ _ ih ih' =>
    rcases hrun : r.mount pre other with ⟨r', res⟩
    rcases mount_cases hrun with ⟨rfl, e, rfl⟩ | ⟨p, new, _, hf, _, _, rfl, rfl⟩
    · exact ih
    · exact originsAfter_append ih (forall₂_mounted hf ih') rfl

theorem Built.originOf (h : Built r os) {i : Nat} {a : Route H M C}
    (ha : r.routes[i]? = some a) : ∃ o, os[i]? = some o ∧ OriginOf o a := forall₂_getElem? h.origins ha

theorem Apart.separated {a b : Route H M C} (ha : RouteOk a) (hb : RouteOk b) (h : Apart a b)
    (hm : a.method = b.method) (hs : a.pattern.segments.map Seg.shape = b.pattern.segments.map Seg.shape) :
    hostsOverlap a.host b.host = false ∧
      ∀ host, ¬(hostMatches a.host host = true ∧ hostMatches b.host host = true) := by
  have hk : a.pattern.conflictKey = b.pattern.conflictKey := by
    rw [ha.canonical, hb.canonical]
    exact hs
  have hno : hostsOverlap a.host b.host ≠ true := fun ho => h.1 ⟨hm, hk, ho⟩
  exact ⟨by simpa using hno, fun host hh => hno (hostsOverlap_of_matches hh.1 hh.2)⟩

/-- **Whatever was registered, with success or not**: two routes with the same method and pattern shape have host
constraints that do not overlap, no two routes share a name, and every pattern is within the segment limit, has a
wildcard in last position only and distinct parameter names. -/
theorem built_wellFormed {r : Router H M C} {os : List (Origin M)} (h : Built r os) :
    r.routes.Pairwise (fun a b =>
      (a.method = b.method → a.pattern.segments.map Seg.shape = b.pattern.segments.map Seg.shape →
        hostsOverlap a.host b.host = false ∧
          ∀ host, ¬(hostMatches a.host host = true ∧ hostMatches b.host host = true)) ∧
      (a.name = b.name → a.name = none)) ∧
    ∀ a ∈ r.routes, a.pattern.segments.length ≤ 256 ∧ (∀ s ∈ a.pattern.segments.dropLast, s.isWildcard = false) ∧
      (paramNames a.pattern.segments).Nodup := by
  have hinv := h.inv
  constructor
  · refine (List.pairwise_iff_forall_sublist.2 fun {a b} hab => ?_)
    have hap := List.pairwise_iff_forall_sublist.1 hinv.apart hab
    have ha := hinv.routes_ok a (hab.subset (by simp))
    have hb := hinv.routes_ok b (hab.subset (by simp))
    exact ⟨fun hm hs => hap.separated ha hb hm hs, hap.2⟩
  · intro a ha
    obtain ⟨hlen, hwild, hnames⟩ := (hinv.routes_ok a ha).valid
    exact ⟨hlen, hwild, hnames⟩

/-- A route without a host overlaps with every other, so the second route brings its host along when it is mounted. -/
def hostRouter : Router Nat Nat Unit :=
  ((andChain (Router.new.route .get "/api/users/:id" 1) [.host "a.example"]).1.mount "/api"
    (andChain (Router.new.route .get "/users/:name" 2) [.host "b.example"]).1).1

/-- Two routes of one shape, on two hosts. -/
theorem hostRouter_wellFormed : ∃ a b, hostRouter.routes = [a, b] ∧
    a.pattern.segments.map Seg.shape = b.pattern.segments.map Seg.shape ∧ hostsOverlap a.host b.host = false ∧
    (∀ host, ¬(hostMatches a.host host = true ∧ hostMatches b.host host = true)) ∧
    (paramNames a.pattern.segments).Nodup := by
  have hlength : hostRouter.routes.length = 2 := by decide +kernel
  have hsame : ∀ a ∈ hostRouter.routes, ∀ b ∈ hostRouter.routes,
      a.method = b.method ∧ a.pattern.segments.map Seg.shape = b.pattern.segments.map Seg.shape := by decide +kernel
  have hbuilt : ∃ os, Built hostRouter os :=
    ⟨_, .mount "/api" (.route .get "/api/users/:id" 1 [.host "a.example"] .new)
      (.route .get "/users/:name" 2 [.host "b.example"] .new)⟩
  obtain ⟨os, hbuilt⟩ := hbuilt
  obtain ⟨hapart, hvalid⟩ := built_wellFormed hbuilt
  obtain ⟨a, b, hroutes⟩ := List.length_eq_two.1 hlength
  rw [hroutes] at hapart hsame hvalid
  obtain ⟨hmethod, hshape⟩ := hsame a (by simp) b (by simp)
  obtain ⟨hoverlap, hmatches⟩ := (List.pairwise_pair.1 hapart).1 hmethod hshape
  exact ⟨a, b, hroutes, hshape, hoverlap, hmatches, (hvalid a (by simp)).2.2⟩

end RustRest
