import RustRest.Router.Lookup

/-!
# The invariant of registration

`Router.Inv`: every route is valid (`RouteOk`), any two routes are `Apart` (they do not clash and do not share a name),
and a cached index is the index of the routes. One lemma per operation says what it does to the routes, and one that
it keeps the invariant.
-/

namespace RustRest

open SegTrie List

variable {H M C D : Type}

/-! ## Routes -/

structure RouteOk (a : Route H M C) : Prop where
  valid : ValidSegments a.pattern.segments
  canonical : a.pattern = .fromValidatedSegments a.pattern.segments (paramNames a.pattern.segments)
  webSocket_get : a.kind.isWebSocket = true → a.method = "GET"
  method_nonempty : a.method ≠ ""
  method_token : a.method.toList.all isTokenChar = true

def Clash (a b : Route H M C) : Prop :=
  a.method = b.method ∧ a.pattern.conflictKey = b.pattern.conflictKey ∧ hostsOverlap a.host b.host = true

def Apart (a b : Route H M C) : Prop := ¬Clash a b ∧ (a.name = b.name → a.name = none)

theorem Apart.symm {a b : Route H M C} (h : Apart a b) : Apart b a := by
  refine ⟨fun ⟨hm, hk, ho⟩ => h.1 ⟨hm.symm, hk.symm, ?_⟩, fun hn => ?_⟩
  · rw [hostsOverlap_comm]; exact ho
  · rw [hn]; exact h.2 hn.symm

instance : Std.Symm (Apart (H := H) (M := M) (C := C)) := ⟨fun _ _ h => h.symm⟩

theorem conflicts_iff {a : Route H M C} {method : String} {pattern : RoutePattern} {host : Option HostPattern} :
    a.conflicts method pattern host = true ↔ a.method = method ∧ a.pattern.conflictKey = pattern.conflictKey ∧
      hostsOverlap a.host host = true := by
  simp [Route.conflicts, and_assoc]

theorem validateAgainst_ok {routes : List (Route H M C)} {b : Route H M C} :
    validateAgainst routes b.method b.pattern b.host b.name = .ok () ↔ ∀ a ∈ routes, Apart a b := by
  unfold validateAgainst
  split
  · rename_i hname
    simp only [Bool.and_eq_true, any_eq_true, beq_iff_eq] at hname
    obtain ⟨hs, a, ha, hab⟩ := hname
    constructor
    · intro h; cases h
    · intro h
      rw [← hab, (h a ha).2 hab] at hs
      cases hs
  · rename_i hname
    have hnames : ∀ a ∈ routes, a.name = b.name → a.name = none := by
      intro a ha hab
      by_contra hn
      apply hname
      simp only [Bool.and_eq_true, any_eq_true, beq_iff_eq]
      exact ⟨by rw [← hab]; exact Option.isSome_iff_ne_none.2 hn, a, ha, hab⟩
    split
    · rename_i a hfind
      constructor
      · intro h; cases h
      · intro h
        have hc := List.find?_some hfind
        exact absurd (conflicts_iff.1 hc) (h a (mem_of_find?_eq_some hfind)).1
    · rename_i hfind
      simp only [true_iff]
      intro a ha
      refine ⟨fun hc => ?_, hnames a ha⟩
      exact List.find?_eq_none.1 hfind a ha (conflicts_iff.2 hc)

/-! ## The invariant -/

def Router.Fresh (r : Router H M C) : Prop := ∀ ix, r.index = some ix → ix = .build r.patterns

structure Router.Inv (r : Router H M C) : Prop where
  routes_ok : ∀ a ∈ r.routes, RouteOk a
  apart : r.routes.Pairwise Apart
  fresh : r.Fresh

variable {r : Router H M C}

theorem Router.fresh_of_index_none (h : r.index = none) : r.Fresh := by
  intro ix hix
  rw [h] at hix
  cases hix

theorem inv_new : (Router.new : Router H M C).Inv where
  routes_ok := by intro a ha; cases ha
  apart := List.Pairwise.nil
  fresh := Router.fresh_of_index_none rfl

theorem Router.Fresh.getIndex (h : r.Fresh) : r.getIndex.1 = .build r.patterns := by
  unfold Router.getIndex
  split
  · rename_i ix hix; exact h ix hix
  · rfl

theorem getIndex_routes (r : Router H M C) : r.getIndex.2.routes = r.routes ∧ r.getIndex.2.middlewares = r.middlewares := by
  unfold Router.getIndex
  split <;> exact ⟨rfl, rfl⟩

theorem afterLookup_routes (r : Router H M C) (path : String) :
    (r.afterLookup path).routes = r.routes ∧ (r.afterLookup path).middlewares = r.middlewares := by
  unfold Router.afterLookup
  split
  · exact ⟨rfl, rfl⟩
  · exact getIndex_routes r

theorem Router.Fresh.afterLookup (h : r.Fresh) (path : String) : (r.afterLookup path).Fresh := by
  unfold Router.afterLookup Router.getIndex
  split
  · exact h
  · split
    · exact h
    · intro ix hix; cases hix; rfl

theorem Router.Inv.afterLookup (h : r.Inv) (path : String) : (r.afterLookup path).Inv := by
  have hr := (afterLookup_routes r path).1
  exact ⟨by rw [hr]; exact h.routes_ok, by rw [hr]; exact h.apart, h.fresh.afterLookup path⟩

theorem Router.Inv.layer (h : r.Inv) (m : M) : (r.layer m).Inv :=
  ⟨h.routes_ok, h.apart, h.fresh⟩

theorem Router.Inv.append {r r' : Router H M C} (h : r.Inv) {new : List (Route H M C)}
    (hr : r'.routes = r.routes ++ new) (hi : r'.index = none) (hok : ∀ b ∈ new, RouteOk b)
    (hnew : new.Pairwise Apart) (hold : ∀ b ∈ new, ∀ a ∈ r.routes, Apart a b) : r'.Inv where
  routes_ok := by
    rw [hr]
    intro a ha
    rcases mem_append.1 ha with ha | ha
    · exact h.routes_ok a ha
    · exact hok a ha
  apart := by
    rw [hr]
    exact pairwise_append.2 ⟨h.apart, hnew, fun a ha b hb => hold b hb a ha⟩
  fresh := Router.fresh_of_index_none hi

/-! ## Adding routes -/

def freshRoute (method : String) (pattern : RoutePattern) (handler : H) (kind : RouteKind C) : Route H M C :=
  { method, pattern, handler, middlewares := [], routeLayers := 0, kind, routeMeta := {}, name := none, host := none }

variable {method path : String}

theorem addWithKind_cases {r r' : Router H M C} {handler : H} {kind : RouteKind C}
    {res : Except RouteError RouteHandle} (h : r.addWithKind method path handler kind = (r', res)) :
    (r' = r ∧ ∃ e, res = .error e) ∨ ∃ pattern, RoutePattern.parse path = .ok pattern ∧
      (∀ a ∈ r.routes, Apart a (freshRoute method pattern handler kind)) ∧ res = .ok ⟨r.routes.length⟩ ∧
      r' = { r with routes := r.routes ++ [freshRoute method pattern handler kind], index := none } := by
  unfold Router.addWithKind at h
  split at h
  · cases h; exact Or.inl ⟨rfl, _, rfl⟩
  · dsimp only at h
    split at h
    · cases h; exact Or.inl ⟨rfl, _, rfl⟩
    · rename_i pattern hc
      cases h
      obtain ⟨p, hp, hc⟩ := bind_eq_ok.1 hc
      obtain ⟨_, hv, hc⟩ := bind_eq_ok.1 hc
      cases hc
      refine Or.inr ⟨pattern, hp, ?_, rfl, rfl⟩
      exact validateAgainst_ok (b := freshRoute method pattern handler kind) |>.1 hv

theorem routeOk_fresh {pattern : RoutePattern} {handler : H} {kind : RouteKind C}
    (hp : RoutePattern.parse path = .ok pattern) (hws : kind.isWebSocket = true → method = "GET")
    (hne : method ≠ "") (htok : method.toList.all isTokenChar = true) :
    RouteOk (freshRoute method pattern handler kind : Route H M C) :=
  ⟨(parse_valid hp).1, (parse_valid hp).2, hws, hne, htok⟩

theorem Router.Inv.addWithKind (h : r.Inv) {handler : H}
    {kind : RouteKind C} (hws : kind.isWebSocket = true → method = "GET") (hne : method ≠ "")
    (htok : method.toList.all isTokenChar = true) : (r.addWithKind method path handler kind).1.Inv := by
  rcases addWithKind_cases (Prod.mk.eta (p := r.addWithKind method path handler kind)).symm with
    ⟨hr, _⟩ | ⟨pattern, hp, hap, _, hr⟩
  · rw [hr]; exact h
  · rw [hr]
    refine h.append rfl rfl ?_ (pairwise_singleton _ _) ?_
    · intro b hb
      rw [mem_singleton.1 hb]
      exact routeOk_fresh hp hws hne htok
    · intro b hb
      rw [mem_singleton.1 hb]
      exact hap

theorem staticFiles_cases {env : StaticEnv D H} {r r' : Router H M C} {pre root : String}
    {options : StaticFilesOptions} {res : Except RouteError Unit}
    (h : r.staticFilesWithOptions env pre root options = (r', res)) :
    (r' = r ∧ ∃ e, res = .error e) ∨ ∃ path pattern handler, RoutePattern.parse path = .ok pattern ∧
      (∀ a ∈ r.routes, Apart a (freshRoute "GET" pattern handler .http)) ∧
      (∀ a ∈ r.routes, Apart a (freshRoute "HEAD" pattern handler .http)) ∧ res = .ok () ∧
      r' = { r with routes := r.routes ++ [freshRoute "GET" pattern handler .http,
                                           freshRoute "HEAD" pattern handler .http]
                    index := none } := by
  unfold Router.staticFilesWithOptions at h
  dsimp only at h
  split at h
  · cases h; exact Or.inl ⟨rfl, _, rfl⟩
  · rename_i dir pattern hc
    cases h
    obtain ⟨_, _, hc⟩ := bind_eq_ok.1 hc
    obtain ⟨_, _, hc⟩ := bind_eq_ok.1 hc
    obtain ⟨p, hp, hc⟩ := bind_eq_ok.1 hc
    obtain ⟨_, hg, hc⟩ := bind_eq_ok.1 hc
    obtain ⟨_, hh, hc⟩ := bind_eq_ok.1 hc
    cases hc
    refine Or.inr ⟨_, pattern, env.serveStaticFile dir options, hp, ?_, ?_, rfl, rfl⟩
    · exact validateAgainst_ok (b := freshRoute "GET" pattern (env.serveStaticFile dir options) .http) |>.1 hg
    · exact validateAgainst_ok (b := freshRoute "HEAD" pattern (env.serveStaticFile dir options) .http) |>.1 hh

theorem Router.Inv.staticFiles (h : r.Inv) (env : StaticEnv D H) (pre root : String)
    (options : StaticFilesOptions) : (r.staticFilesWithOptions env pre root options).1.Inv := by
  rcases staticFiles_cases (Prod.mk.eta (p := r.staticFilesWithOptions env pre root options)).symm with
    ⟨hr, _⟩ | ⟨path, pattern, handler, hp, hg, hh, _, hr⟩
  · rw [hr]; exact h
  · rw [hr]
    refine h.append rfl rfl ?_ ?_ ?_
    · intro b hb
      rcases mem_pair.1 hb with rfl | rfl
      · exact routeOk_fresh hp (by simp [RouteKind.isWebSocket]) (by decide) (by decide)
      · exact routeOk_fresh hp (by simp [RouteKind.isWebSocket]) (by decide) (by decide)
    · -- the two differ in their method, and have no name
      refine pairwise_pair.2 ⟨fun hc => absurd hc.1 (by simp [freshRoute]), fun _ => rfl⟩
    · intro b hb
      rcases mem_pair.1 hb with rfl | rfl
      · exact hg
      · exact hh

/-! ## Mounting -/

/-- `b` is the route that mounting makes of `a`. -/
def MountedAs (pre : RoutePattern) (mws : List M) (a b : Route H M C) : Prop :=
  ∃ pattern, RoutePattern.join pre a.pattern = .ok pattern ∧ b = a.mounted pattern mws

theorem mountRoutes_ok {pre : RoutePattern} {mws : List M} :
    ∀ {routes mounted out : List (Route H M C)}, r.mountRoutes pre mws routes mounted = .ok out ↔
      ∃ new, out = mounted ++ new ∧ List.Forall₂ (MountedAs pre mws) routes new ∧ new.Pairwise Apart ∧
        ∀ b ∈ new, (∀ a ∈ r.routes, Apart a b) ∧ ∀ a ∈ mounted, Apart a b
  | [], mounted, out => by
    simp only [Router.mountRoutes, Except.ok.injEq]
    constructor
    · rintro rfl
      exact ⟨[], by simp, .nil, .nil, by simp⟩
    · rintro ⟨new, rfl, hf, _, _⟩
      cases hf
      simp
  | route :: routes, mounted, out => by
    have ih := fun mounted => @mountRoutes_ok pre mws routes mounted out
    simp only [Router.mountRoutes, bind_eq_ok, ih]
    constructor
    · rintro ⟨p, hp, _, hv, _, hb, new, rfl, hf, hnew, hall⟩
      have hv' := validateAgainst_ok (b := route.mounted p mws) |>.1 hv
      have hb' := validateAgainst_ok (b := route.mounted p mws) |>.1 hb
      refine ⟨route.mounted p mws :: new, by simp, .cons ⟨p, hp, rfl⟩ hf, pairwise_cons.2 ⟨?_, hnew⟩, ?_⟩
      · exact fun b hbn => (hall b hbn).2 _ (by simp)
      · intro b hbn
        rcases mem_cons.1 hbn with rfl | hbn
        · exact ⟨hv', hb'⟩
        · exact ⟨(hall b hbn).1, fun a ha => (hall b hbn).2 a (by simp [ha])⟩
    · rintro ⟨new, rfl, hf, hnew, hall⟩
      cases hf with
      | @cons _ b _ new hroute hf =>
        obtain ⟨p, hp, rfl⟩ := hroute
        rw [pairwise_cons] at hnew
        refine ⟨p, hp, (), ?_, (), ?_, new, by simp, hf, hnew.2, ?_⟩
        · exact validateAgainst_ok (b := route.mounted p mws) |>.2 (hall _ mem_cons_self).1
        · exact validateAgainst_ok (b := route.mounted p mws) |>.2 (hall _ mem_cons_self).2
        · intro b hbn
          refine ⟨(hall b (mem_cons_of_mem _ hbn)).1, fun a ha => ?_⟩
          rcases mem_append.1 ha with ha | ha
          · exact (hall b (mem_cons_of_mem _ hbn)).2 a ha
          · rw [mem_singleton.1 ha]; exact hnew.1 b hbn

theorem mount_cases {r r' other : Router H M C} {pre : String} {res : Except RouteError Unit}
    (h : r.mount pre other = (r', res)) : (r' = r ∧ ∃ e, res = .error e) ∨ ∃ p new, RoutePattern.parse pre = .ok p ∧
      List.Forall₂ (MountedAs p other.middlewares) other.routes new ∧ new.Pairwise Apart ∧
      (∀ b ∈ new, ∀ a ∈ r.routes, Apart a b) ∧ res = .ok () ∧
      r' = { r with routes := r.routes ++ new, index := none } := by
  unfold Router.mount at h
  split at h
  · cases h; exact Or.inl ⟨rfl, _, rfl⟩
  · rename_i out hc
    cases h
    obtain ⟨p, hp, hm⟩ := bind_eq_ok.1 hc
    obtain ⟨new, hout, hf, hnew, hall⟩ := mountRoutes_ok.1 hm
    rw [nil_append] at hout
    subst hout
    exact Or.inr ⟨p, out, hp, hf, hnew, fun b hb => (hall b hb).1, rfl, rfl⟩

theorem forall₂_getElem? {α β : Type} {R : α → β → Prop} : ∀ {l : List α} {m : List β}, List.Forall₂ R l m →
    ∀ {i : Nat} {b : β}, m[i]? = some b → ∃ a, l[i]? = some a ∧ R a b
  | _, _, .nil, i, b, h => by simp at h
  | _, _, .cons hab _, 0, b, h => by
    cases h
    exact ⟨_, rfl, hab⟩
  | _, _, .cons _ hf, i + 1, b, h => forall₂_getElem? hf h

theorem MountedAs.routeOk {pre : RoutePattern} {mws : List M} {a b : Route H M C} (h : MountedAs pre mws a b)
    (ha : RouteOk a) : RouteOk b := by
  obtain ⟨p, hp, rfl⟩ := h
  obtain ⟨hv, _, rfl⟩ := validateSegments_ok.1 hp
  exact ⟨hv, rfl, ha.webSocket_get, ha.method_nonempty, ha.method_token⟩

theorem Router.Inv.mount {r other : Router H M C} (h : r.Inv) (ho : other.Inv) (pre : String) :
    (r.mount pre other).1.Inv := by
  rcases mount_cases (Prod.mk.eta (p := r.mount pre other)).symm with ⟨hr, _⟩ | ⟨p, new, _, hf, hnew, hall, _, hr⟩
  · rw [hr]; exact h
  · rw [hr]
    refine h.append rfl rfl ?_ hnew hall
    intro b hb
    obtain ⟨i, hi⟩ := List.getElem?_of_mem hb
    obtain ⟨a, ha, hab⟩ := forall₂_getElem? hf hi
    exact hab.routeOk (ho.routes_ok a (mem_of_getElem? ha))

/-! ## Route handles -/

def RouteHandle.At (h : RouteHandle) (r : Router H M C) (init : List (Route H M C)) (a : Route H M C) : Prop :=
  r.routes = init ++ [a] ∧ h.index = init.length

theorem modify_concat {α : Type} (f : α → α) (a : α) : ∀ init : List α,
    (init ++ [a]).modify init.length f = init ++ [f a]
  | [] => rfl
  | b :: init => by simp [modify_concat f a init]

theorem eraseIdx_concat {α : Type} (a : α) (init : List α) : (init ++ [a]).eraseIdx init.length = init := by
  rw [eraseIdx_append_of_length_le (Nat.le_refl _)]
  simp

section Handle

variable {h : RouteHandle} {r : Router H M C} {init : List (Route H M C)} {a : Route H M C}

theorem RouteHandle.At.modifyRoute (ha : h.At r init a) (f : Route H M C → Route H M C) :
    (r.modifyRoute h f).routes = init ++ [f a] := by
  simp only [Router.modifyRoute, ha.1, ha.2]
  exact modify_concat f a init

theorem RouteHandle.At.failAndRemove (ha : h.At r init a) (e : RouteError) :
    h.failAndRemove r e = ({ r with routes := init, index := none }, .error e) := by
  simp only [RouteHandle.failAndRemove, ha.1, ha.2]
  rw [eraseIdx_concat]

variable {r' : Router H M C}

theorem RouteHandle.At.name_cases (ha : h.At r init a) {n : String}
    {res : Except RouteError RouteHandle} (hn : h.name r n = (r', res)) :
    (r' = { r with routes := init, index := none } ∧ ∃ e, res = .error e) ∨
      (r' = r.modifyRoute h (fun b => { b with name := some n }) ∧ res = .ok h ∧ ∀ b ∈ init, b.name ≠ some n) := by
  unfold RouteHandle.name at hn
  split at hn
  · rw [ha.failAndRemove] at hn
    cases hn
    exact Or.inl ⟨rfl, _, rfl⟩
  · rename_i hany
    cases hn
    refine Or.inr ⟨rfl, rfl, fun b hb hbn => hany ?_⟩
    obtain ⟨j, hj, hget⟩ := getElem_of_mem hb
    rw [any_eq_true]
    refine ⟨(b, j), ?_, ?_⟩
    · rw [mem_zipIdx_iff_getElem?, ha.1, List.getElem?_append_left hj, List.getElem?_eq_getElem hj, hget]
    · have hne : j ≠ h.index := by rw [ha.2]; omega
      simp [hne, hbn]

theorem RouteHandle.At.hostUpdate_ok (ha : h.At r init a) {p : HostPattern}
    (hv : r.validateRouteHostUpdate h.index p = .ok ()) :
    ∀ b ∈ init, ¬Clash b { a with host := some p } := by
  intro b hb hc
  obtain ⟨j, hj, hget⟩ := getElem_of_mem hb
  unfold Router.validateRouteHostUpdate at hv
  have hlast : r.routes[h.index]? = some a := by rw [ha.1, ha.2]; simp
  rw [hlast] at hv
  dsimp only at hv
  split at hv
  · cases hv
  · rename_i hfind
    rw [List.find?_eq_none] at hfind
    refine hfind (b, j) ?_ ?_
    · rw [mem_zipIdx_iff_getElem?, ha.1, List.getElem?_append_left hj, List.getElem?_eq_getElem hj, hget]
    · have hne : j ≠ h.index := by rw [ha.2]; omega
      simp only [bne_iff_ne, ne_eq, hne, not_false_eq_true, Bool.and_eq_true, true_and]
      exact conflicts_iff.2 hc

theorem RouteHandle.At.host_cases (ha : h.At r init a) {s : String}
    {res : Except RouteError RouteHandle} (hn : h.host r s = (r', res)) :
    (r' = { r with routes := init, index := none } ∧ ∃ e, res = .error e) ∨
      ∃ p, r' = { r.modifyRoute h (fun b => { b with host := some p }) with index := none } ∧ res = .ok h ∧
        ∀ b ∈ init, ¬Clash b { a with host := some p } := by
  unfold RouteHandle.host at hn
  split at hn
  · rw [ha.failAndRemove] at hn
    cases hn
    exact Or.inl ⟨rfl, _, rfl⟩
  · rename_i p _
    split at hn
    · rw [ha.failAndRemove] at hn
      cases hn
      exact Or.inl ⟨rfl, _, rfl⟩
    · rename_i hv
      cases hn
      exact Or.inr ⟨p, rfl, rfl, ha.hostUpdate_ok hv⟩

theorem Router.Inv.removeLast (hinv : r.Inv) (ha : h.At r init a) (hr : r'.routes = init)
    (hi : r'.index = none) : r'.Inv where
  routes_ok := by
    rw [hr]
    exact fun b hb => hinv.routes_ok b (by rw [ha.1]; exact mem_append_left _ hb)
  apart := by
    have := hinv.apart
    rw [ha.1] at this
    rw [hr]
    exact (pairwise_append.1 this).1
  fresh := Router.fresh_of_index_none hi

theorem Router.Inv.replaceLast {b : Route H M C} (hinv : r.Inv) (ha : h.At r init a)
    (hr : r'.routes = init ++ [b]) (hok : RouteOk b) (hap : ∀ c ∈ init, Apart c b)
    (hi : r'.index = none ∨ (r'.index = r.index ∧ b.method = a.method ∧ b.pattern = a.pattern)) : r'.Inv where
  routes_ok := by
    rw [hr]
    intro c hc
    rcases mem_append.1 hc with hc | hc
    · exact hinv.routes_ok c (by rw [ha.1]; exact mem_append_left _ hc)
    · rw [mem_singleton.1 hc]; exact hok
  apart := by
    have := hinv.apart
    rw [ha.1] at this
    rw [hr]
    refine pairwise_append.2 ⟨(pairwise_append.1 this).1, pairwise_singleton _ _, ?_⟩
    intro c hc d hd
    rw [mem_singleton.1 hd]
    exact hap c hc
  fresh := by
    intro ix hix
    rcases hi with hi | ⟨hi, hm, hp⟩
    · rw [hi] at hix; cases hix
    · rw [hi] at hix
      rw [hinv.fresh ix hix]
      simp [Router.patterns, hr, ha.1, hm, hp]

theorem RouteHandle.At.apart (hinv : r.Inv) (ha : h.At r init a) : ∀ c ∈ init, Apart c a := by
  have := hinv.apart
  rw [ha.1] at this
  exact fun c hc => (pairwise_append.1 this).2.2 c hc a (by simp)

theorem RouteHandle.At.routeOk (hinv : r.Inv) (ha : h.At r init a) : RouteOk a :=
  hinv.routes_ok a (by rw [ha.1]; simp)

theorem Router.Inv.modifyRoute (hinv : r.Inv) (ha : h.At r init a) {f : Route H M C → Route H M C}
    (hm : (f a).method = a.method) (hp : (f a).pattern = a.pattern) (hk : (f a).kind = a.kind)
    (hn : (f a).name = a.name) (hh : (f a).host = a.host) : (r.modifyRoute h f).Inv := by
  have hok := ha.routeOk hinv
  refine hinv.replaceLast ha (ha.modifyRoute f) ?_ ?_ (Or.inr ⟨rfl, hm, hp⟩)
  · exact ⟨by rw [hp]; exact hok.valid, by rw [hp]; exact hok.canonical, by rw [hk, hm]; exact hok.webSocket_get,
      by rw [hm]; exact hok.method_nonempty, by rw [hm]; exact hok.method_token⟩
  · intro c hc
    have := ha.apart hinv c hc
    simpa only [Apart, Clash, hm, hp, hn, hh] using this

theorem Router.Inv.name (hinv : r.Inv) (ha : h.At r init a) (n : String) : (h.name r n).1.Inv := by
  rcases ha.name_cases (Prod.mk.eta (p := h.name r n)).symm with ⟨hr, _⟩ | ⟨hr, _, hnew⟩
  · exact hinv.removeLast ha (by rw [hr]) (by rw [hr])
  · have hok := ha.routeOk hinv
    refine hinv.replaceLast (b := { a with name := some n }) ha (by rw [hr]; exact ha.modifyRoute _)
      ⟨hok.valid, hok.canonical, hok.webSocket_get, hok.method_nonempty, hok.method_token⟩ ?_
      (Or.inr ⟨by rw [hr]; rfl, rfl, rfl⟩)
    exact fun c hc => ⟨(ha.apart hinv c hc).1, fun he => absurd he (hnew c hc)⟩

theorem Router.Inv.host (hinv : r.Inv) (ha : h.At r init a) (s : String) : (h.host r s).1.Inv := by
  rcases ha.host_cases (Prod.mk.eta (p := h.host r s)).symm with ⟨hr, _⟩ | ⟨p, hr, _, hnew⟩
  · exact hinv.removeLast ha (by rw [hr]) (by rw [hr])
  · have hok := ha.routeOk hinv
    refine hinv.replaceLast (b := { a with host := some p }) ha (by rw [hr]; exact ha.modifyRoute _)
      ⟨hok.valid, hok.canonical, hok.webSocket_get, hok.method_nonempty, hok.method_token⟩ ?_
      (Or.inl (by rw [hr]))
    exact fun c hc => ⟨hnew c hc, (ha.apart hinv c hc).2⟩

end Handle

end RustRest
