import RustRest.Router.Failure
import RustRest.Router.Precedence
import RustRest.Router.Segments

/-!
# Mounting

Mounting a router under a prefix pattern into an empty one: what `mount` makes of each route is `Route.under`, and a
lookup in the mounted router is a match of the prefix followed by a lookup in the original one.

Main result: **`mount_resolves`**.
-/

namespace RustRest

open SegTrie List

variable {H M C : Type}

/-! ## Matching a joined pattern -/

theorem matchSegments_union : ∀ (p : List Segment) (segs : List String) (params : Params),
    matchSegments p segs params = (matchSegments p segs ∅).map (· ∪ params)
  | [], segs, params => by
    cases segs <;> simp [matchSegments]
  | .wildcard n :: p, segs, params => by
    cases p with
    | nil => simp [matchSegments, ← Finmap.insert_union]
    | cons s p => simp [matchSegments]
  | .static s :: p, [], params | .param s :: p, [], params => rfl
  | .static s :: p, a :: segs, params => by
    by_cases h : s = a
    · simp only [matchSegments, if_pos h]
      exact matchSegments_union p segs params
    · simp [matchSegments, h]
  | .param n :: p, a :: segs, params => by
    simp only [matchSegments]
    rw [matchSegments_union p segs (params.insert n a), matchSegments_union p segs (Finmap.insert n a ∅),
      Option.map_map]
    congr 1
    funext found
    simp only [Function.comp_apply, Finmap.union_assoc, ← Finmap.insert_union, Finmap.empty_union]

theorem matchSegments_append : ∀ {p : List Segment}, (∀ s ∈ p, s.isWildcard = false) →
    ∀ (q : List Segment) (segs : List String) (params : Params), matchSegments (p ++ q) segs params =
      (matchSegments p (segs.take p.length) params).bind (matchSegments q (segs.drop p.length))
  | [], _, q, segs, params => by simp [matchSegments]
  | .wildcard n :: p, hp, q, segs, params => absurd (hp (.wildcard n) mem_cons_self) (by simp [Seg.isWildcard])
  | .static s :: p, _, q, [], params | .param s :: p, _, q, [], params => rfl
  | .static s :: p, hp, q, a :: segs, params => by
    have ih := matchSegments_append (fun t ht => hp t (mem_cons_of_mem _ ht)) q segs params
    by_cases h : s = a
    · simp only [cons_append, length_cons, take_succ_cons, drop_succ_cons, matchSegments, if_pos h]
      exact ih
    · simp [matchSegments, h]
  | .param n :: p, hp, q, a :: segs, params => by
    simp only [cons_append, length_cons, take_succ_cons, drop_succ_cons, matchSegments]
    exact matchSegments_append (fun t ht => hp t (mem_cons_of_mem _ ht)) q segs _

theorem matchDecodedPattern_append {p : List Segment} (hp : ∀ s ∈ p, s.isWildcard = false) (q : List Segment)
    (segs : List String) : matchDecodedPattern (p ++ q) segs =
      (matchDecodedPattern p (segs.take p.length)).bind (fun captured =>
        (matchDecodedPattern q (segs.drop p.length)).map (· ∪ captured)) := by
  rw [matchDecodedPattern, matchSegments_append hp]
  congr 1
  funext captured
  exact matchSegments_union q _ captured

/-! ## Mounting into an empty router -/

def Route.under (p : List Segment) (mws : List M) (a : Route H M C) : Route H M C :=
  a.mounted (.fromValidatedSegments (p ++ a.pattern.segments) (paramNames (p ++ a.pattern.segments))) mws

/-- The joined pattern is accepted. -/
def Joinable (segments : List Segment) : Prop := ValidSegments segments ∧ ∀ n ∈ paramNames segments, NameOk n

variable {p : RoutePattern} {mws : List M}

theorem mountedAs_iff {a b : Route H M C} :
    MountedAs p mws a b ↔ Joinable (p.segments ++ a.pattern.segments) ∧ b = a.under p.segments mws := by
  constructor
  · rintro ⟨pattern, hjoin, rfl⟩
    obtain ⟨hv, hn, rfl⟩ := validateSegments_ok.1 hjoin
    exact ⟨⟨hv, hn⟩, rfl⟩
  · rintro ⟨⟨hv, hn⟩, rfl⟩
    exact ⟨_, validateSegments_ok.2 ⟨hv, hn, rfl⟩, rfl⟩

theorem forall₂_mountedAs_iff : ∀ {routes new : List (Route H M C)},
    List.Forall₂ (MountedAs p mws) routes new ↔
      (∀ a ∈ routes, Joinable (p.segments ++ a.pattern.segments)) ∧ new = routes.map (Route.under p.segments mws)
  | [], new => by simp
  | a :: routes, [] => by simp
  | a :: routes, b :: new => by
    rw [forall₂_cons, mountedAs_iff, forall₂_mountedAs_iff, forall_mem_cons, map_cons, List.cons.injEq]
    tauto

theorem Apart.under {a b : Route H M C} (ha : RouteOk a) (hb : RouteOk b) (h : Apart a b) (p : List Segment)
    (mws : List M) : Apart (a.under p mws) (b.under p mws) := by
  refine ⟨fun ⟨hm, hk, hh⟩ => h.1 ⟨hm, ?_, hh⟩, h.2⟩
  rw [ha.canonical, hb.canonical]
  simpa [Route.under, Route.mounted, RoutePattern.fromValidatedSegments] using hk

theorem pairwise_under {r : Router H M C} (hinv : r.Inv) (p : List Segment) (mws : List M) :
    (r.routes.map (Route.under p mws)).Pairwise Apart := by
  rw [pairwise_map]
  exact hinv.apart.imp_of_mem fun {a b} ha hb h => h.under (hinv.routes_ok a ha) (hinv.routes_ok b hb) p mws

theorem mount_empty_ok {r e : Router H M C} (hinv : r.Inv) (he : e.routes = []) {pre : String}
    (hp : RoutePattern.parse pre = .ok p) (hjoin : ∀ a ∈ r.routes, Joinable (p.segments ++ a.pattern.segments)) :
    e.mount pre r = ({ e with routes := r.routes.map (Route.under p.segments r.middlewares), index := none }, .ok ())
    := by
  have hok : e.mountRoutes p r.middlewares r.routes [] = .ok (r.routes.map (Route.under p.segments r.middlewares)) := by
    rw [mountRoutes_ok]
    refine ⟨_, by simp, forall₂_mountedAs_iff.2 ⟨hjoin, rfl⟩, pairwise_under hinv _ _, ?_⟩
    simp [he]
  unfold Router.mount
  rw [hp]
  simp only [bind, Except.bind, hok, he, nil_append]

theorem mount_empty_cases {r e r' : Router H M C} (he : e.routes = []) {pre : String} {res : Except RouteError Unit}
    (h : e.mount pre r = (r', res)) : (r' = e ∧ ∃ err, res = .error err) ∨ ∃ p, RoutePattern.parse pre = .ok p ∧
      (∀ a ∈ r.routes, Joinable (p.segments ++ a.pattern.segments)) ∧ res = .ok () ∧
      r' = { e with routes := r.routes.map (Route.under p.segments r.middlewares), index := none } := by
  rcases mount_cases h with h | ⟨p, new, hp, hf, _, _, hres, rfl⟩
  · exact Or.inl h
  · obtain ⟨hjoin, rfl⟩ := forall₂_mountedAs_iff.1 hf
    exact Or.inr ⟨p, hp, hjoin, hres, by simp [he]⟩

/-! ## Resolution under a prefix -/

section Under

variable {p : List Segment} {mws : List M} {a : Route H M C}

@[simp] theorem under_method : (a.under p mws).method = a.method := rfl

@[simp] theorem under_segments : (a.under p mws).pattern.segments = p ++ a.pattern.segments := rfl

theorem answers_under (hp : ∀ s ∈ p, s.isWildcard = false) {method : String} {segments : List String}
    {host : Option String} : (a.under p mws).answers method segments host = true ↔
      Fits p (segments.take p.length) = true ∧ a.answers method (segments.drop p.length) host = true := by
  have helig : (a.under p mws).eligible method = a.eligible method := rfl
  have hhost : (a.under p mws).host = a.host := rfl
  rw [answers_iff, answers_iff, matches_iff, matches_iff, helig, hhost, under_segments, fits_append hp,
    Bool.and_eq_true]
  tauto

theorem rank_under_le {b : Route H M C} {i j : Nat} {method : String} :
    rank method (a.under p mws, i) ≤ rank method (b.under p mws, j) ↔ rank method (a, i) ≤ rank method (b, j) := by
  rw [rank_le_iff, rank_le_iff]
  simp only [under_method, under_segments, order_append_lt, order_append_inj]

end Under

theorem scan_under {r r' : Router H M C} {p : List Segment} (hp : ∀ s ∈ p, s.isWildcard = false)
    (hr : r'.routes = r.routes.map (Route.under p mws)) (method : String) (segments : List String)
    (host : Option String) : r'.scan method (Route.answers method segments host) =
      if Fits p (segments.take p.length) = true then
        (r.scan method (Route.answers method (segments.drop p.length) host)).map (fun x => (x.1.under p mws, x.2))
      else none := by
  have hmem : ∀ y, y ∈ r'.routes.zipIdx ↔ ∃ x ∈ r.routes.zipIdx, (x.1.under p mws, x.2) = y := by
    intro y
    rw [hr, zipIdx_map, mem_map]
    rfl
  split
  · rename_i hfits
    cases h : r.scan method (Route.answers method (segments.drop p.length) host) with
    | none =>
      rw [Option.map_none, scan_eq_none]
      intro b hb
      rw [hr, mem_map] at hb
      obtain ⟨a, ha, rfl⟩ := hb
      rw [← Bool.not_eq_true, answers_under hp, scan_eq_none.1 h a ha]
      simp
    | some x =>
      obtain ⟨hx, hxa, hmin⟩ := scan_some h
      refine scan_eq_some ((hmem _).2 ⟨x, hx, rfl⟩) ((answers_under hp).2 ⟨hfits, hxa⟩) ?_
      intro y hy hya
      obtain ⟨z, hz, rfl⟩ := (hmem y).1 hy
      exact rank_under_le.2 (hmin z hz ((answers_under hp).1 hya).2)
  · rename_i hfits
    rw [scan_eq_none]
    intro b hb
    rw [hr, mem_map] at hb
    obtain ⟨a, _, rfl⟩ := hb
    rw [← Bool.not_eq_true, answers_under hp]
    exact fun h => hfits h.1

theorem resolveSegments_under {r r' : Router H M C} (hinv' : r'.Inv) {p : List Segment}
    (hp : ∀ s ∈ p, s.isWildcard = false) (hr : r'.routes = r.routes.map (Route.under p mws)) (method : String)
    (segments : List String) (host : Option String) : r'.resolveSegments method segments host =
      (matchDecodedPattern p (segments.take p.length)).bind (fun captured =>
        (r.scan method (Route.answers method (segments.drop p.length) host)).bind (fun x =>
          (matchDecodedPattern x.1.pattern.segments (segments.drop p.length)).map (fun params =>
            (x.1.under p mws).matched (params ∪ captured)))) := by
  rw [resolveSegments_eq_scan hinv', scan_under hp hr]
  cases hm : matchDecodedPattern p (segments.take p.length) with
  | none =>
    rw [if_neg (by simp [matchDecodedPattern_eq_none.1 hm])]
    rfl
  | some captured =>
    have hfits : Fits p (segments.take p.length) = true := by rw [← matchDecodedPattern_isSome, hm]; rfl
    rw [if_pos hfits, Option.bind_some, Option.bind_map]
    congr 1
    funext x
    simp only [Function.comp_apply, under_segments, matchDecodedPattern_append hp, hm, Option.bind_some, Option.map_map]
    rfl

theorem mounted_routes {r e r' : Router H M C} (hinv : r.Inv) (hinv' : e.Inv) (he : e.routes = []) {pre : String}
    (hp : RoutePattern.parse pre = .ok p) (hok : e.mount pre r = (r', .ok ())) :
    r'.Inv ∧ r'.routes = r.routes.map (Route.under p.segments r.middlewares) := by
  constructor
  · have hmount := hinv'.mount hinv pre
    rwa [hok] at hmount
  · rcases mount_empty_cases he hok with ⟨_, err, hres⟩ | ⟨p', hp', _, _, rfl⟩
    · cases hres
    · rw [hp] at hp'
      cases hp'
      rfl

/-! ## Nested mounts -/

theorem Joinable.right {p q : List Segment} (h : Joinable (p ++ q)) : Joinable q := by
  obtain ⟨⟨hlen, hwild, hnodup⟩, hnames⟩ := h
  rw [paramNames_append] at hnodup hnames
  refine ⟨⟨?_, fun s hs => ?_, (nodup_append.1 hnodup).2.1⟩, fun n hn => hnames n (mem_append_right _ hn)⟩
  · rw [length_append] at hlen
    omega
  · have hq : q ≠ [] := by
      rintro rfl
      cases hs
    exact hwild s (by rw [dropLast_append_of_ne_nil hq]; exact mem_append_right _ hs)

theorem Joinable.left {p q : List Segment} (h : Joinable (p ++ q)) : Joinable p := by
  obtain ⟨⟨hlen, hwild, hnodup⟩, hnames⟩ := h
  rw [paramNames_append] at hnodup hnames
  refine ⟨⟨?_, fun s hs => ?_, (nodup_append.1 hnodup).1⟩, fun n hn => hnames n (mem_append_left _ hn)⟩
  · rw [length_append] at hlen
    omega
  · cases q with
    | nil => exact hwild s (by rwa [append_nil])
    | cons t q =>
      refine hwild s ?_
      rw [dropLast_append_of_ne_nil (by simp)]
      exact mem_append_left _ (mem_of_mem_dropLast hs)

theorem under_under (p q : List Segment) (mws : List M) (a : Route H M C) :
    (a.under q mws).under p [] = a.under (p ++ q) mws := by
  simp [Route.under, Route.mounted, RoutePattern.fromValidatedSegments, append_assoc]

theorem parse_append {pre suf : String} {p q : RoutePattern} (hp : RoutePattern.parse pre = .ok p)
    (hq : RoutePattern.parse suf = .ok q) {pattern : RoutePattern} :
    RoutePattern.parse (pre ++ suf) = .ok pattern ↔ validateSegments (p.segments ++ q.segments) = .ok pattern := by
  obtain ⟨hhead, ps, hps, hvp⟩ := parse_ok.1 hp
  obtain ⟨hhead', qs, hqs, hvq⟩ := parse_ok.1 hq
  obtain ⟨-, -, rfl⟩ := validateSegments_ok.1 hvp
  obtain ⟨-, -, rfl⟩ := validateSegments_ok.1 hvq
  have hmap : (pathSegments (pre ++ suf)).mapM segmentOf = .ok (ps ++ qs) := by
    rw [pathSegments_append hhead', mapM_append, hps, hqs]
    rfl
  have hhead'' : (pre ++ suf).toList.head? = some '/' := by
    rw [String.toList_append, List.head?_append, hhead]
    rfl
  rw [parse_ok, hmap]
  constructor
  · rintro ⟨-, segments, h, hv⟩
    cases h
    exact hv
  · exact fun hv => ⟨hhead'', _, rfl, hv⟩

theorem mount_middlewares (e r : Router H M C) (pre : String) : (e.mount pre r).1.middlewares = e.middlewares := by
  rcases hm : e.mount pre r with ⟨r', res⟩
  rcases mount_cases hm with ⟨rfl, _⟩ | ⟨_, _, _, _, _, _, _, rfl⟩ <;> rfl

theorem mount_empty_nil {r e : Router H M C} (he : e.routes = []) (hr : r.routes = []) (pre : String) :
    (e.mount pre r).1.routes = [] := by
  rcases hm : e.mount pre r with ⟨r', res⟩
  rcases mount_empty_cases he hm with ⟨rfl, _⟩ | ⟨p, _, _, _, rfl⟩
  · exact he
  · simp [hr]

theorem nested_routes {r e inner : Router H M C} (hinv : r.Inv) (hinner : inner.Inv) (he : e.routes = [])
    (hi : inner.routes = []) (him : inner.middlewares = []) {pre suf : String} {p q : RoutePattern}
    (hp : RoutePattern.parse pre = .ok p) (hq : RoutePattern.parse suf = .ok q) :
    (e.mount pre (inner.mount suf r).1).1.routes = (e.mount (pre ++ suf) r).1.routes := by
  by_cases hnil : r.routes = []
  · rw [mount_empty_nil he hnil, mount_empty_nil he (mount_empty_nil hi hnil _)]
  by_cases hjoin : ∀ a ∈ r.routes, Joinable (p.segments ++ (q.segments ++ a.pattern.segments))
  · have hmid := mount_empty_ok hinv hi hq (fun a ha => (hjoin a ha).right)
    have hmidInv : (inner.mount suf r).1.Inv := hinner.mount hinv suf
    have hboth : Joinable (p.segments ++ q.segments) := by
      obtain ⟨a, ha⟩ := exists_mem_of_ne_nil _ hnil
      have := hjoin a ha
      rw [← append_assoc] at this
      exact this.left
    have hparse := (parse_append hp hq).2 (validateSegments_ok.2 ⟨hboth.1, hboth.2, rfl⟩)
    rw [mount_empty_ok hinv he hparse (fun a ha => by
      have := hjoin a ha
      rwa [← append_assoc] at this)]
    rw [mount_empty_ok hmidInv he hp (by
      rw [hmid]
      intro b hb
      obtain ⟨a, ha, rfl⟩ := mem_map.1 hb
      exact hjoin a ha)]
    rw [hmid]
    simp only [him, map_map]
    exact map_congr_left fun a _ => under_under p.segments q.segments r.middlewares a
  · -- the join that fails makes both ways fail
    have hdirect : (e.mount (pre ++ suf) r).1.routes = [] := by
      rcases hm : e.mount (pre ++ suf) r with ⟨r', res⟩
      rcases mount_empty_cases he hm with ⟨rfl, _⟩ | ⟨pq, hpq, hall, _, rfl⟩
      · exact he
      · obtain ⟨-, -, rfl⟩ := validateSegments_ok.1 ((parse_append hp hq).1 hpq)
        exact absurd (fun a ha => by rw [← append_assoc]; exact hall a ha) hjoin
    have hnested : (e.mount pre (inner.mount suf r).1).1.routes = [] := by
      rcases hmid : inner.mount suf r with ⟨mid, res⟩
      rcases mount_empty_cases hi hmid with ⟨rfl, _⟩ | ⟨q', hq', _, _, rfl⟩
      · exact mount_empty_nil he hi pre
      · rw [hq] at hq'
        cases hq'
        rcases hm : e.mount pre { inner with
            routes := r.routes.map (Route.under q.segments r.middlewares), index := none } with ⟨r', res'⟩
        rcases mount_empty_cases he hm with ⟨rfl, _⟩ | ⟨p', hp', hall, _, _⟩
        · exact he
        · rw [hp] at hp'
          cases hp'
          exact absurd (fun a ha => hall _ (mem_map.2 ⟨a, ha, rfl⟩)) hjoin
    rw [hdirect, hnested]

/-- **Mounting and resolution commute.** Under a prefix `p` without wildcard, the mounted router finds a route exactly if
the first segments match `p` and the original router finds one for the rest; it is the same route, with the captures of
both and the original router's middlewares in front. Nested mounts resolve like one mount under both prefixes. -/
theorem mount_resolves {r e : Router H M C} {os oe : List (Origin M)} (hb : Built r os) (he : Built e oe)
    (hempty : e.routes = []) {pre : String} {p : RoutePattern} (hp : RoutePattern.parse pre = .ok p)
    (hwild : ∀ s ∈ p.segments, s.isWildcard = false) :
    (∀ r', e.mount pre r = (r', .ok ()) → ∀ method segments host,
      ((r'.resolveSegments method segments host).isSome = true ↔
        (matchDecodedPattern p.segments (segments.take p.segments.length)).isSome = true ∧
          (r.resolveSegments method (segments.drop p.segments.length) host).isSome = true) ∧
      ∀ captured found, matchDecodedPattern p.segments (segments.take p.segments.length) = some captured →
        r.resolveSegments method (segments.drop p.segments.length) host = some found →
        ∃ i a, r.pickIndex method (segments.drop p.segments.length) host = some i ∧
          r'.pickIndex method segments host = some i ∧ r.routes[i]? = some a ∧
          r'.routes[i]? = some (a.under p.segments r.middlewares) ∧
          r'.resolveSegments method segments host = some { found with
            params := found.params ∪ captured
            middlewares := r.middlewares ++ found.middlewares
            pattern := renderPattern (p.segments ++ a.pattern.segments) }) ∧
    ∀ (inner : Router H M C) (oi : List (Origin M)) (suf : String) (q : RoutePattern), Built inner oi →
      inner.routes = [] → inner.middlewares = [] → RoutePattern.parse suf = .ok q → ∀ method segments host,
        (e.mount pre (inner.mount suf r).1).1.resolveSegments method segments host =
          (e.mount (pre ++ suf) r).1.resolveSegments method segments host := by
  constructor
  · intro r' hok method segments host
    obtain ⟨hinv, hroutes⟩ := mounted_routes hb.inv he.inv hempty hp hok
    have hunder := resolveSegments_under hinv hwild hroutes method segments host
    have hscan := resolveSegments_eq_scan hb.inv method (segments.drop p.segments.length) host
    constructor
    · rw [hunder, hscan]
      cases matchDecodedPattern p.segments (segments.take p.segments.length) with
      | none => simp
      | some captured =>
        cases r.scan method (Route.answers method (segments.drop p.segments.length) host) with
        | none | some x => simp
    · intro captured found hcap hfound
      rw [hscan] at hfound
      obtain ⟨x, hx, hmatch⟩ := Option.bind_eq_some_iff.1 hfound
      obtain ⟨params, hparams, rfl⟩ := Option.map_eq_some_iff.1 hmatch
      have hget := mem_zipIdx_iff_getElem?.1 (scan_some hx).1
      have hfits : Fits p.segments (segments.take p.segments.length) = true := by
        rw [← matchDecodedPattern_isSome, hcap]
        rfl
      refine ⟨x.2, x.1, ?_, ?_, hget, ?_, ?_⟩
      · rw [pickIndex_eq_scan hb.inv, hx]
        rfl
      · rw [pickIndex_eq_scan hinv, scan_under hwild hroutes, if_pos hfits, hx]
        rfl
      · rw [hroutes, List.getElem?_map, hget]
        rfl
      · rw [hunder, hcap, hx, Option.bind_some, Option.bind_some, hparams]
        rfl
  · intro inner oi suf q hi hie him hq method segments host
    have hsame : (e.mount pre (inner.mount suf r).1).1.Same (e.mount (pre ++ suf) r).1 := by
      refine ⟨nested_routes hb.inv hi.inv hempty hie him hp hq, ?_, ?_, ?_⟩
      · rw [mount_middlewares, mount_middlewares]
      · exact (he.inv.mount (hi.inv.mount hb.inv suf) pre).fresh
      · exact (he.inv.mount hb.inv (pre ++ suf)).fresh
    rw [hsame.resolveSegments]

theorem overlapRouter_mounted : (Router.new.mount "/api/:v" overlapRouter).2 = .ok () ∧
    ∀ method segments host, ((Router.new.mount "/api/:v" overlapRouter).1.resolveSegments method segments host).isSome
        = true ↔ (matchDecodedPattern [.static "api", .param "v"] (segments.take 2)).isSome = true ∧
          (overlapRouter.resolveSegments method (segments.drop 2) host).isSome = true :=
  have hok : (Router.new.mount "/api/:v" overlapRouter).2 = .ok () := by decide +kernel
  have hp : RoutePattern.parse "/api/:v" = .ok (.fromValidatedSegments [.static "api", .param "v"] ["v"]) := by
    decide +kernel
  ⟨hok, fun method segments host =>
    ((mount_resolves overlapRouter_built .new rfl hp (by decide)).1 _ (Prod.ext rfl hok) method segments host).1⟩

end RustRest
