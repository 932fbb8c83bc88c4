import RustRest.Router.Precedence

/-!
# The middlewares of synthesized responses

`scoped_middlewares` picks one of the matching routes by `pattern_specificity` and returns its middlewares without the
last `route_layers`.

Main results: **`scopedRoute_first_iff`**, **`scopedMiddlewares_through_iff`**.
-/

namespace RustRest

open SegTrie Priority List

variable {H M C : Type}

/-! ## Specificity and precedence -/

theorem patternSpecificity_cons (s : Segment) (p : List Segment) : patternSpecificity (s :: p) =
    (match s with | .static _ => 2 | .param _ => 1 | .wildcard _ => 0) :: patternSpecificity p := rfl

theorem patternSpecificity_congr : ∀ {p q : List Segment}, p.map Seg.shape = q.map Seg.shape →
    patternSpecificity p = patternSpecificity q
  | [], [], _ => rfl
  | [], _ :: _, h => by simp at h
  | _ :: _, [], h => by simp at h
  | s :: p, t :: q, h => by
    rw [map_cons, map_cons, List.cons.injEq] at h
    rw [patternSpecificity_cons, patternSpecificity_cons, patternSpecificity_congr h.2]
    cases s <;> cases t <;> simp [Seg.shape] at h ⊢

theorem patternSpecificity_lt_of_extends : ∀ {p q : List Segment},
    q.map Seg.shape = p.map Seg.shape ++ [.wildcard ()] → patternSpecificity p < patternSpecificity q
  | [], [], h => by simp at h
  | [], _ :: _, _ => nil_lt_cons _ _
  | _ :: _, [], h => by simp at h
  | s :: p, t :: q, h => by
    rw [map_cons, map_cons, cons_append, List.cons.injEq] at h
    have ih := patternSpecificity_lt_of_extends h.2
    rw [patternSpecificity_cons, patternSpecificity_cons]
    cases s <;> cases t <;> simp [Seg.shape] at h <;> exact cons_lt_cons_iff.2 (Or.inr ⟨rfl, ih⟩)

theorem specificity_of_order_lt : ∀ {p q : List Segment} {segs : List String}, Fits p segs = true →
    Fits q segs = true → order p < order q → patternSpecificity q < patternSpecificity p ∨
      q.map Seg.shape = p.map Seg.shape ++ [.wildcard ()]
  | [], [], _, _, _, ho => absurd ho (lt_irrefl _)
  | [], .wildcard n :: q, segs, _, hq, _ => by
    rw [fits_wildcard, List.isEmpty_iff] at hq
    exact Or.inr (by simp [hq, Seg.shape])
  | [], .static _ :: _, segs, hp, hq, _ | [], .param _ :: _, segs, hp, hq, _ => by
    rw [fits_nil, List.isEmpty_iff] at hp
    subst hp
    cases hq
  | _ :: _, [], segs, _, _, _ => by
    left
    exact nil_lt_cons _ _
  | .static k :: p, .static l :: q, s :: segs, hp, hq, ho => by
    simp only [fits_static_cons, Bool.and_eq_true, decide_eq_true_eq] at hp hq
    have ho' : order p < order q := by simpa [order, cons_lt_cons_iff] using ho
    rcases specificity_of_order_lt hp.2 hq.2 ho' with h | h
    · exact Or.inl (cons_lt_cons_iff.2 (Or.inr ⟨rfl, h⟩))
    · exact Or.inr (by simp [h, Seg.shape, hp.1, hq.1])
  | .param m :: p, .param n :: q, s :: segs, hp, hq, ho => by
    have ho' : order p < order q := by simpa [order, cons_lt_cons_iff] using ho
    rcases specificity_of_order_lt (show Fits p segs = true from hp) (show Fits q segs = true from hq) ho' with h | h
    · exact Or.inl (cons_lt_cons_iff.2 (Or.inr ⟨rfl, h⟩))
    · exact Or.inr (by simp [h, Seg.shape])
  | .wildcard m :: p, .wildcard n :: q, segs, hp, hq, ho => by
    rw [fits_wildcard, List.isEmpty_iff] at hp hq
    subst hp hq
    exact absurd ho (lt_irrefl _)
  | .static _ :: p, .param _ :: q, _, _, _, _ | .static _ :: p, .wildcard _ :: q, _, _, _, _
  | .param _ :: p, .wildcard _ :: q, _, _, _, _ => by
    left
    exact cons_lt_cons_iff.2 (Or.inl (by simp))
  | .param _ :: p, .static _ :: q, _, _, _, ho | .wildcard _ :: p, .static _ :: q, _, _, _, ho
  | .wildcard _ :: p, .param _ :: q, _, _, _, ho => by
    simp [order, cons_lt_cons_iff] at ho
  | .static _ :: _, .static _ :: _, [], hp, _, _ | .param _ :: _, .param _ :: _, [], hp, _, _ => by cases hp

/-! ## The selected route -/

def Router.disclosed (r : Router H M C) (segments : List String) (host : Option String) : List (Route H M C × Nat) :=
  r.routes.zipIdx.filter (fun x => x.1.method != methodAll && x.1.matches segments host)

def specRank (x : Route H M C × Nat) : (List ℕ)ᵒᵈ ×ₗ ℕ :=
  toLex (OrderDual.toDual (patternSpecificity x.1.pattern.segments), x.2)

def scopeRank (x : Route H M C × Nat) : List ℕ ×ₗ ℕ := toLex (order x.1.pattern.segments, x.2)

variable {r : Router H M C} {segments : List String} {host : Option String}

theorem mem_disclosed {x : Route H M C × Nat} :
    x ∈ r.disclosed segments host ↔
      x ∈ r.routes.zipIdx ∧ x.1.method ≠ methodAll ∧ x.1.matches segments host = true := by
  simp [Router.disclosed]

theorem disclosed_inj {x y : Route H M C × Nat}
    (hx : x ∈ r.disclosed segments host) (hy : y ∈ r.disclosed segments host) (h : x.2 = y.2) : x = y := by
  have hx' := mem_zipIdx_iff_getElem?.1 (mem_disclosed.1 hx).1
  rw [h, mem_zipIdx_iff_getElem?.1 (mem_disclosed.1 hy).1] at hx'
  exact Prod.ext (Option.some.inj hx').symm h

theorem specRank_lt_iff {x y : Route H M C × Nat} : specRank x < specRank y ↔
    patternSpecificity y.1.pattern.segments < patternSpecificity x.1.pattern.segments ∨
      (patternSpecificity x.1.pattern.segments = patternSpecificity y.1.pattern.segments ∧ x.2 < y.2) := by
  rw [specRank, specRank, Prod.Lex.toLex_lt_toLex, OrderDual.toDual_lt_toDual]
  exact Iff.rfl

theorem matchingMethods_eq (hfresh : r.Fresh) (segments : List String) :
    r.getIndex.1.matchingMethods segments =
      (r.routes.zipIdx.filter (fun x => Fits x.1.pattern.segments segments)).map (fun x => (x.2, x.1.method)) := by
  rw [hfresh.getIndex, matchingMethods_build, fittingMethods, Router.patterns, zipIdx_map, filter_map,
    map_map]
  rfl

theorem scopedCandidate_of_mem {x : Route H M C × Nat} (hx : x ∈ r.routes.zipIdx) :
    (r.scopedCandidate segments host x.2 x.1.method).map (·, x.2) =
      Option.guard (fun x => x.1.method != methodAll && x.1.matches segments host) x := by
  rw [mem_zipIdx_iff_getElem?] at hx
  have hcond : (x.1.method != methodAll && hostMatches x.1.host host &&
      (matchDecodedPattern x.1.pattern.segments segments).isSome) =
        (x.1.method != methodAll && x.1.matches segments host) := by
    rw [Route.matches, Bool.and_assoc]
  rw [Router.scopedCandidate, hx, Option.filter_some, hcond, Option.guard]
  split <;> rfl

theorem matchingMethods_filterMap (hfresh : r.Fresh) (segments : List String)
    (host : Option String) : (r.getIndex.1.matchingMethods segments).filterMap
      (fun x => (r.scopedCandidate segments host x.1 x.2).map (·, x.1)) = r.disclosed segments host := by
  rw [matchingMethods_eq hfresh, filterMap_map]
  rw [filterMap_congr (g := Option.guard (fun x => x.1.method != methodAll && x.1.matches segments host))
    (fun x hx => scopedCandidate_of_mem (mem_filter.1 hx).1)]
  rw [filterMap_eq_filter, filter_filter, Router.disclosed]
  refine filter_congr fun x _ => ?_
  -- a route that matches fits
  cases hm : x.1.matches segments host with
  | false => simp
  | true => simp [(matches_iff.1 hm).2]

theorem scopedRoute_eq (hfresh : r.Fresh) (segments : List String) (host : Option String) :
    r.scopedRoute segments host = ((r.disclosed segments host).argmin specRank).map Prod.snd := by
  have hloop : (r.getIndex.1.matchingMethods segments).foldl (r.scopedStep segments host) none =
      ((r.disclosed segments host).argmin specRank).map
        (fun x => (patternSpecificity x.1.pattern.segments, x.2)) := by
    rw [← matchingMethods_filterMap hfresh]
    refine foldl_eq_argmin ?_ ?_ ?_ _
    · intro best c hc
      rw [Option.map_eq_none_iff] at hc
      rw [Router.scopedStep, hc]
    · intro c x hc
      obtain ⟨a, ha, rfl⟩ := Option.map_eq_some_iff.1 hc
      rw [Router.scopedStep, ha]
    · intro c x y hc
      obtain ⟨a, ha, rfl⟩ := Option.map_eq_some_iff.1 hc
      rw [Router.scopedStep, ha]
      dsimp only
      by_cases h : specRank (a, c.1) < specRank y
      · rw [if_pos h, if_pos (specRank_lt_iff.1 h)]
      · rw [if_neg h, if_neg (fun h' => h (specRank_lt_iff.2 h'))]
  rw [Router.scopedRoute, hloop, Option.map_map]
  rfl

theorem scopedRoute_eq_some (hfresh : r.Fresh)
    {i : Nat} : r.scopedRoute segments host = some i ↔ ∃ x ∈ r.disclosed segments host, x.2 = i ∧
      ∀ y ∈ r.disclosed segments host, specRank x ≤ specRank y := by
  rw [scopedRoute_eq hfresh, Option.map_eq_some_iff]
  constructor
  · rintro ⟨x, hx, rfl⟩
    exact ⟨x, argmin_mem hx, rfl, fun y hy => le_of_mem_argmin hy hx⟩
  · rintro ⟨x, hx, rfl, hmin⟩
    refine ⟨x, argmin_eq_some_of_least hx hmin fun y hy h => disclosed_inj hy hx ?_, rfl⟩
    exact congrArg (fun k => (ofLex k).2) h

theorem scopedRoute_eq_none (hfresh : r.Fresh) :
    r.scopedRoute segments host = none ↔ r.disclosed segments host = [] := by
  rw [scopedRoute_eq hfresh, Option.map_eq_none_iff, argmin_eq_none]

/-! ## The selected route and routing precedence -/

/-- **When the selected route is the first in precedence**: exactly if no matching route of the first pattern shape
has another beside it of the same shape followed by a wildcard. -/
theorem scopedRoute_first_iff {r : Router H M C} {os : List (Origin M)} (hb : Built r os) (segments : List String)
    (host : Option String) :
    r.scopedRoute segments host = ((r.disclosed segments host).argmin scopeRank).map Prod.snd ↔
      ∀ x ∈ r.disclosed segments host, ∀ y ∈ r.disclosed segments host,
        y.1.pattern.segments.map Seg.shape = x.1.pattern.segments.map Seg.shape ++ [.wildcard ()] →
        ∃ z ∈ r.disclosed segments host, order z.1.pattern.segments < order x.1.pattern.segments := by
  have hfresh := hb.inv.fresh
  have hfits : ∀ x ∈ r.disclosed segments host, Fits x.1.pattern.segments segments = true :=
    fun x hx => (matches_iff.1 (mem_disclosed.1 hx).2.2).2
  constructor
  · intro heq x hx y hy hshape
    by_contra hno
    cases hfirst : (r.disclosed segments host).argmin scopeRank with
    | none => rw [argmin_eq_none] at hfirst; rw [hfirst] at hx; cases hx
    | some b =>
      rw [hfirst] at heq
      obtain ⟨a, ha, hab, hmax⟩ := (scopedRoute_eq_some hfresh).1 heq
      have hb := argmin_mem hfirst
      have hab := disclosed_inj ha hb hab
      subst hab
      -- the first route has the shape of `x`, so `y` is more specific than it
      have hax : order a.1.pattern.segments = order x.1.pattern.segments := by
        have hle := le_of_mem_argmin hx hfirst
        rw [scopeRank, scopeRank, Prod.Lex.toLex_le_toLex] at hle
        rcases hle with h | ⟨h, _⟩
        · exact absurd ⟨a, ha, h⟩ hno
        · exact h
      rw [← shape_eq_of_order_eq (hfits a ha) (hfits x hx) hax] at hshape
      exact absurd (specRank_lt_iff.2 (Or.inl (patternSpecificity_lt_of_extends hshape))) (not_lt.2 (hmax y hy))
  · intro hcond
    cases hfirst : (r.disclosed segments host).argmin scopeRank with
    | none => rw [argmin_eq_none] at hfirst; exact (scopedRoute_eq_none hfresh).2 hfirst
    | some b =>
      have hb := argmin_mem hfirst
      refine (scopedRoute_eq_some hfresh).2 ⟨b, hb, rfl, fun y hy => ?_⟩
      have hle := le_of_mem_argmin hy hfirst
      rw [scopeRank, scopeRank, Prod.Lex.toLex_le_toLex] at hle
      rw [← not_lt, specRank_lt_iff]
      rcases hle with h | ⟨h, hidx⟩
      · rcases specificity_of_order_lt (hfits b hb) (hfits y hy) h with h' | h'
        · rintro (h'' | ⟨h'', _⟩)
          · exact lt_asymm h' h''
          · exact absurd h'' h'.ne
        · obtain ⟨z, hz, hzb⟩ := hcond b hb y hy h'
          have hbz := le_of_mem_argmin hz hfirst
          rw [scopeRank, scopeRank, Prod.Lex.toLex_le_toLex] at hbz
          rcases hbz with h'' | ⟨h'', _⟩
          · exact absurd h'' (lt_asymm hzb)
          · exact absurd h'' hzb.ne'
      · rw [patternSpecificity_congr (shape_eq_of_order_eq (hfits b hb) (hfits y hy) h)]
        rintro (h'' | ⟨_, h''⟩)
        · exact lt_irrefl _ h''
        · exact absurd h'' (not_lt.2 hidx)

def shadowRouter : Router Nat Nat Unit :=
  let plain := (Registration.run (D := Unit) (Router.new.layer 1) (.route .get "/a" 10 [])).1
  let wild := (Registration.run (D := Unit) (Router.new.layer 2) (.route .post "/a/*rest" 20 [])).1
  ((Router.new.mount "/" plain).1.mount "/" wild).1

theorem shadowRouter_built : Built shadowRouter [⟨[[1]], []⟩, ⟨[[2]], []⟩] :=
  .mount "/" (.mount "/" .new (.route .get "/a" 10 [] (.layer 1 .new))) (.route .post "/a/*rest" 20 [] (.layer 2 .new))

/-- A request for `/a` is routed to the first route of `shadowRouter`, but synthesized responses get the middleware of
the second. -/
theorem shadowRouter_scoped : Built shadowRouter [⟨[[1]], []⟩, ⟨[[2]], []⟩] ∧
    decodePathSegments "/a" = .ok ["a"] ∧ ((shadowRouter.disclosed ["a"] none).argmin scopeRank).map Prod.snd = some 0 ∧
    shadowRouter.scopedRoute ["a"] none = some 1 ∧ shadowRouter.scopedMiddlewares "/a" none = .ok [2] ∧
    ¬shadowRouter.scopedRoute ["a"] none = ((shadowRouter.disclosed ["a"] none).argmin scopeRank).map Prod.snd :=
  ⟨shadowRouter_built, by decide +kernel⟩

theorem overlapRouter_scoped_first : overlapRouter.scopedRoute ["a", "b"] none = some 1 ∧
    overlapRouter.scopedRoute ["a", "b"] none =
      ((overlapRouter.disclosed ["a", "b"] none).argmin scopeRank).map Prod.snd :=
  ⟨by decide +kernel, (scopedRoute_first_iff overlapRouter_built ["a", "b"] none).2 (by decide +kernel)⟩

/-! ## Router-level middlewares -/

theorem OriginOf.scopedMiddlewares {o : Origin M} {a : Route H M C} (h : OriginOf o a) : a.scopedMiddlewares =
    o.through.flatten ++ (o.attached.map Attached.middleware).take (o.attached.countP (fun t => !t.isLayer)) := by
  have hcount : o.attached.length = o.attached.countP Attached.isLayer +
      o.attached.countP (fun t => !t.isLayer) := by
    rw [length_eq_countP_add_countP Attached.isLayer]
    simp
  have hlen : a.middlewares.length - a.routeLayers =
      o.through.flatten.length + o.attached.countP (fun t => !t.isLayer) := by
    rw [h.middlewares, h.routeLayers, length_append, length_map, hcount]
    omega
  rw [Route.scopedMiddlewares, hlen, h.middlewares, take_length_add_append]

theorem OriginOf.scopedMiddlewares_eq_iff {o : Origin M} {a : Route H M C} (h : OriginOf o a) :
    a.scopedMiddlewares = o.through.flatten ↔ ∀ t ∈ o.attached, t.isLayer = true := by
  rw [h.scopedMiddlewares, append_right_eq_self, take_eq_nil_iff, countP_eq_zero, map_eq_nil_iff]
  constructor
  · rintro (h | h)
    · simpa using h
    · simp [h]
  · intro h
    exact Or.inl (by simpa using h)

/-- **When synthesized responses run exactly the router-level middlewares**, outermost first, of the routers the
selected route was mounted through: exactly if `RouteHandle::timeout` was not used on that route. -/
theorem scopedMiddlewares_through_iff {r : Router H M C} {os : List (Origin M)} (hb : Built r os) {path : String}
    {segments : List String} (hd : decodePathSegments path = .ok segments) (host : Option String) :
    r.scopedMiddlewares path host = .ok (((r.scopedRoute segments host).bind (fun i => os[i]?)).elim []
        (fun o => o.through.flatten)) ↔
      ∀ x ∈ r.disclosed segments host, (∀ y ∈ r.disclosed segments host, specRank x ≤ specRank y) →
        ∀ o, os[x.2]? = some o → ∀ t ∈ o.attached, t.isLayer = true := by
  have hfresh := hb.inv.fresh
  rw [Router.scopedMiddlewares, hd, Except.map, Except.ok.injEq]
  cases hs : r.scopedRoute segments host with
  | none =>
    rw [(scopedRoute_eq_none hfresh).1 hs]
    simp
  | some i =>
    obtain ⟨x, hx, rfl, hmax⟩ := (scopedRoute_eq_some hfresh).1 hs
    have hget := mem_zipIdx_iff_getElem?.1 (mem_disclosed.1 hx).1
    obtain ⟨o, ho, horig⟩ := hb.originOf hget
    simp only [Option.bind_some, hget, ho, Option.elim_some, horig.scopedMiddlewares_eq_iff]
    constructor
    · intro h y hy hymax o' ho'
      have hyx : y.2 = x.2 := congrArg (fun k => (ofLex k).2) (le_antisymm (hymax x hx) (hmax y hy))
      rw [hyx, ho] at ho'
      cases ho'
      exact h
    · exact fun h => h x hx hmax o ho

def timeoutRouter : Router Nat Nat Unit :=
  (Router.new.mount "/" (Registration.run (D := Unit) (Router.new.layer 1) (.route .get "/a" 10 [.timeout 9])).1).1

theorem timeoutRouter_built : Built timeoutRouter [⟨[[1]], [.timeout 9]⟩] :=
  .mount "/" .new (.route .get "/a" 10 [.timeout 9] (.layer 1 .new))

/-- The timeout of the `GET` route is run around the responses to other methods. -/
theorem timeoutRouter_scoped : Built timeoutRouter [⟨[[1]], [.timeout 9]⟩] ∧
    timeoutRouter.scopedRoute ["a"] none = some 0 ∧ timeoutRouter.scopedMiddlewares "/a" none = .ok [1, 9] ∧
    ¬timeoutRouter.scopedMiddlewares "/a" none = .ok (([⟨[[1]], [.timeout 9]⟩] : List (Origin Nat))[0]?.elim []
      (fun o => o.through.flatten)) :=
  ⟨timeoutRouter_built, by decide +kernel⟩

theorem shadowRouter_through : shadowRouter.scopedMiddlewares "/a" none = .ok [2] ∧
    ∀ x ∈ shadowRouter.disclosed ["a"] none, (∀ y ∈ shadowRouter.disclosed ["a"] none, specRank x ≤ specRank y) →
      ∀ o, ([⟨[[1]], []⟩, ⟨[[2]], []⟩] : List (Origin Nat))[x.2]? = some o → ∀ t ∈ o.attached, t.isLayer = true :=
  have hd : decodePathSegments "/a" = .ok ["a"] := by decide +kernel
  ⟨by decide +kernel, (scopedMiddlewares_through_iff shadowRouter_built hd none).1 (by decide +kernel)⟩

end RustRest
