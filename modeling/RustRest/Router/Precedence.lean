import RustRest.Lib.Priority
import RustRest.Router.Built

/-!
# Routing precedence

The specification of a lookup is a scan of all routes for the first one, in order of precedence, that answers the
request: `Route.answers` says which routes do, `rank` is the order. The lookup walks the trie instead.

Main results: **`resolveMethod_eq_scan`**, **`resolveMethod_perm`**, **`head_follows_get`**.
-/

namespace RustRest

open SegTrie Priority List

variable {H M C : Type}

/-! ## The specification -/

def Route.eligible (a : Route H M C) (method : String) : Bool :=
  a.method == method || (method == "HEAD" && a.method == "GET" && !a.kind.isWebSocket) || a.method == methodAll

def Route.matches (a : Route H M C) (segments : List String) (host : Option String) : Bool :=
  hostMatches a.host host && (matchDecodedPattern a.pattern.segments segments).isSome

/-- The routes among which a lookup chooses. -/
def Route.answers (method : String) (segments : List String) (host : Option String) (a : Route H M C) : Bool :=
  a.eligible method && a.matches segments host

def Route.answersHttp (method : String) (segments : List String) (host : Option String) (a : Route H M C) : Bool :=
  a.eligible method && !a.kind.isWebSocket && a.matches segments host

def methodRank (method routeMethod : String) : Nat :=
  if routeMethod = method then 0 else if routeMethod = "GET" then 1 else 2

def rank (method : String) (x : Route H M C × Nat) : List ℕ ×ₗ ℕ ×ₗ ℕ :=
  toLex (order x.1.pattern.segments, toLex (methodRank method x.1.method, x.2))

def Router.scan (r : Router H M C) (method : String) (accept : Route H M C → Bool) : Option (Route H M C × Nat) :=
  (r.routes.zipIdx.filter (fun x => accept x.1)).argmin (rank method)

section Answers

variable {a : Route H M C} {method : String} {segments : List String} {host : Option String}

theorem eligible_iff : a.eligible method = true ↔ a.method = method ∨
    (method = "HEAD" ∧ a.method = "GET" ∧ a.kind.isWebSocket = false) ∨ a.method = methodAll := by
  simp [Route.eligible, or_assoc, and_assoc]

theorem matches_iff : a.matches segments host = true ↔
    hostMatches a.host host = true ∧ Fits a.pattern.segments segments = true := by
  rw [Route.matches, Bool.and_eq_true, matchDecodedPattern_isSome]

theorem answers_iff : a.answers method segments host = true ↔
    a.eligible method = true ∧ a.matches segments host = true := by
  rw [Route.answers, Bool.and_eq_true]

theorem answersHttp_iff : a.answersHttp method segments host = true ↔
    a.eligible method = true ∧ a.kind.isWebSocket = false ∧ a.matches segments host = true := by
  simp [Route.answersHttp, and_assoc]

theorem exists_match (h : a.matches segments host = true) :
    ∃ params, matchDecodedPattern a.pattern.segments segments = some params := by
  rw [Route.matches, Bool.and_eq_true] at h
  exact Option.isSome_iff_exists.1 h.2

end Answers

/-! ## Candidates -/

def Router.pickIndex (r : Router H M C) (method : String) (segments : List String) (host : Option String) :
    Option Nat :=
  (r.getIndex.1.findCandidates method segments).find? (fun i => (r.tryCandidate method segments host i).isSome)

def Router.pickHttpIndex (r : Router H M C) (method : String) (segments : List String) (host : Option String) :
    Option Nat :=
  (r.getIndex.1.findCandidates method segments).find? (fun i => (r.tryHttpCandidate segments host i).isSome)

theorem resolveSegments_eq_pick (r : Router H M C) (method : String) (segments : List String) (host : Option String) :
    r.resolveSegments method segments host =
      (r.pickIndex method segments host).bind (r.tryCandidate method segments host) :=
  findSome?_eq_bind_find? _

theorem resolveHttpSegments_eq_pick (r : Router H M C) (method : String) (segments : List String)
    (host : Option String) : r.resolveHttpSegments method segments host =
      (r.pickHttpIndex method segments host).bind (r.tryHttpCandidate segments host) :=
  findSome?_eq_bind_find? _

def Router.classPairs (r : Router H M C) (segments : List String) (k : List Nat) : List (Route H M C × Nat) :=
  r.routes.zipIdx.filter (fun x => Fits x.1.pattern.segments segments && decide (order x.1.pattern.segments = k))

def ofMethod (method : String) (l : List (Route H M C × Nat)) : List (Route H M C × Nat) :=
  l.filter (fun x => x.1.method == method)

def pushPairs (method : String) (l : List (Route H M C × Nat)) : List (Route H M C × Nat) :=
  ofMethod method l ++ (if method = "HEAD" then ofMethod "GET" l else []) ++ ofMethod methodAll l

/-- The candidates, as routes with their indices. -/
def Router.candidates (r : Router H M C) (method : String) (segments : List String) : List (Route H M C × Nat) :=
  (orders segments.length).flatMap (fun k => pushPairs method (r.classPairs segments k))

theorem classOf_entries (r : Router H M C) (segments : List String) (k : List Nat) :
    classOf (entriesOf r.patterns) segments k = (r.classPairs segments k).map (fun x => (x.1.method, x.2)) := by
  simp only [classOf, entriesOf, Router.patterns, Router.classPairs, zipIdx_map, filter_map, map_map]
  rfl

theorem indicesFor_pairs (method : String) (l : List (Route H M C × Nat)) :
    indicesFor method (l.map (fun x => (x.1.method, x.2))) = (ofMethod method l).map Prod.snd := by
  simp only [indicesFor, ofMethod, filter_map, map_map]
  rfl

theorem findCandidates_eq (r : Router H M C) (method : String) (segments : List String) :
    (RouteIndex.build r.patterns).findCandidates method segments = (r.candidates method segments).map Prod.snd := by
  rw [findCandidates_build, Router.candidates, map_flatMap]
  congr 1
  funext k
  rw [classOf_entries, pushMatching, pushPairs, indicesFor_pairs, indicesFor_pairs, indicesFor_pairs]
  split <;> simp

variable {r : Router H M C} {segments : List String} {method : String} {x : Route H M C × Nat}

theorem mem_candidates :
    x ∈ r.candidates method segments ↔ x ∈ r.routes.zipIdx ∧ Fits x.1.pattern.segments segments = true ∧
      (x.1.method = method ∨ (method = "HEAD" ∧ x.1.method = "GET") ∨ x.1.method = methodAll) := by
  have hite : x ∈ (if method = "HEAD" then ofMethod "GET" (r.classPairs segments (order x.1.pattern.segments)) else [])
      ↔ method = "HEAD" ∧ x ∈ ofMethod "GET" (r.classPairs segments (order x.1.pattern.segments)) := by
    split <;> simp [*]
  simp only [Router.candidates, mem_flatMap]
  constructor
  · rintro ⟨k, _, hx⟩
    simp only [pushPairs, mem_append] at hx
    have hk : ∀ m, x ∈ ofMethod m (r.classPairs segments k) →
        x ∈ r.routes.zipIdx ∧ Fits x.1.pattern.segments segments = true ∧ x.1.method = m := by
      intro m hm
      simp only [ofMethod, Router.classPairs, mem_filter, Bool.and_eq_true, beq_iff_eq] at hm
      exact ⟨hm.1.1, hm.1.2.1, hm.2⟩
    rcases hx with (hx | hx) | hx
    · obtain ⟨h1, h2, h3⟩ := hk _ hx; exact ⟨h1, h2, Or.inl h3⟩
    · split at hx
      · rename_i hhead
        obtain ⟨h1, h2, h3⟩ := hk _ hx
        exact ⟨h1, h2, Or.inr (Or.inl ⟨hhead, h3⟩)⟩
      · cases hx
    · obtain ⟨h1, h2, h3⟩ := hk _ hx; exact ⟨h1, h2, Or.inr (Or.inr h3)⟩
  · rintro ⟨hx, hfits, hm⟩
    refine ⟨order x.1.pattern.segments, order_mem_orders hfits, ?_⟩
    simp only [pushPairs, mem_append, hite]
    simp only [ofMethod, Router.classPairs, mem_filter, Bool.and_eq_true, beq_iff_eq, decide_eq_true_eq]
    tauto

/-! ## Candidates come in order of precedence -/

theorem rank_le_iff {x y : Route H M C × Nat} : rank method x ≤ rank method y ↔
    order x.1.pattern.segments < order y.1.pattern.segments ∨
      (order x.1.pattern.segments = order y.1.pattern.segments ∧
        (methodRank method x.1.method < methodRank method y.1.method ∨
          (methodRank method x.1.method = methodRank method y.1.method ∧ x.2 ≤ y.2))) := by
  rw [rank, rank, Prod.Lex.toLex_le_toLex, Prod.Lex.toLex_le_toLex]

theorem rank_inj {x y : Route H M C × Nat} (hx : x ∈ r.routes.zipIdx)
    (hy : y ∈ r.routes.zipIdx) (h : rank method x = rank method y) : x = y := by
  have hidx : x.2 = y.2 := congrArg (fun k => (ofLex (ofLex k).2).2) h
  rw [mem_zipIdx_iff_getElem?] at hx hy
  rw [hidx, hy] at hx
  exact Prod.ext (Option.some.inj hx).symm hidx

theorem mem_ofMethod_class {k : List Nat}
    (h : x ∈ ofMethod method (r.classPairs segments k)) :
    x.1.method = method ∧ order x.1.pattern.segments = k := by
  simp only [ofMethod, Router.classPairs, mem_filter, Bool.and_eq_true, beq_iff_eq, decide_eq_true_eq] at h
  exact ⟨h.2, h.1.2.2⟩

theorem prioritized_ofMethod (r : Router H M C) (method m : String) (segments : List String) (k : List Nat) :
    Prioritized (fun x y => rank method x ≤ rank method y) (ofMethod m (r.classPairs segments k)) := by
  refine prioritized_of_pairwise (fun x _ => le_refl _) ?_
  have hidx : (ofMethod m (r.classPairs segments k)).Pairwise (fun x y => x.2 < y.2) :=
    ((pairwise_zipIdx r.routes 0).filter _).filter _
  refine hidx.imp_of_mem fun {x y} hx hy hxy => ?_
  obtain ⟨hmx, hkx⟩ := mem_ofMethod_class hx
  obtain ⟨hmy, hky⟩ := mem_ofMethod_class hy
  exact rank_le_iff.2 (Or.inr ⟨hkx.trans hky.symm, Or.inr ⟨by rw [hmx, hmy], hxy.le⟩⟩)

theorem rank_le_of_methodRank_lt {method m n : String} {k : List Nat}
    (hm : methodRank method m < methodRank method n) :
    ∀ x ∈ ofMethod m (r.classPairs segments k), ∀ y ∈ ofMethod n (r.classPairs segments k),
      rank method x ≤ rank method y := by
  intro x hx y hy
  obtain ⟨hmx, hkx⟩ := mem_ofMethod_class hx
  obtain ⟨hmy, hky⟩ := mem_ofMethod_class hy
  exact rank_le_iff.2 (Or.inr ⟨hkx.trans hky.symm, Or.inl (by rw [hmx, hmy]; exact hm)⟩)

theorem prioritized_pushPairs (r : Router H M C) (method : String) (segments : List String) (k : List Nat) :
    Prioritized (fun x y => rank method x ≤ rank method y) (pushPairs method (r.classPairs segments k)) := by
  have hof := fun m => prioritized_ofMethod r method m segments k
  unfold pushPairs
  by_cases hhead : method = "HEAD"
  · subst hhead
    rw [if_pos rfl]
    refine ((hof _).append (hof _) (rank_le_of_methodRank_lt (by decide))).append (hof _) ?_
    intro x hx y hy
    rcases mem_append.1 hx with hx | hx
    · exact rank_le_of_methodRank_lt (m := "HEAD") (n := methodAll) (by decide) x hx y hy
    · exact rank_le_of_methodRank_lt (m := "GET") (n := methodAll) (by decide) x hx y hy
  · rw [if_neg hhead, append_nil]
    by_cases hall : method = methodAll
    · -- a request for `*` finds the same routes again
      subst hall
      exact (hof _).append_subset fun _ h => h
    · refine (hof _).append (hof _) (rank_le_of_methodRank_lt ?_)
      rw [methodRank, if_pos rfl, methodRank, if_neg (Ne.symm hall), if_neg (by decide)]
      decide

theorem mem_pushPairs_class {k : List Nat}
    (h : x ∈ pushPairs method (r.classPairs segments k)) : order x.1.pattern.segments = k := by
  simp only [pushPairs, mem_append] at h
  rcases h with (h | h) | h
  · exact (mem_ofMethod_class h).2
  · split at h
    · exact (mem_ofMethod_class h).2
    · cases h
  · exact (mem_ofMethod_class h).2

theorem prioritized_candidates (r : Router H M C) (method : String) (segments : List String) :
    Prioritized (fun x y => rank method x ≤ rank method y) (r.candidates method segments) := by
  refine prioritized_flatMap (fun k _ => prioritized_pushPairs r method segments k) ?_
  refine (orders_pairwise segments.length).imp fun {k k'} hk x hx y hy => ?_
  rw [rank_le_iff, mem_pushPairs_class hx, mem_pushPairs_class hy]
  exact Or.inl hk

/-! ## The walk and the scan -/

variable {host : Option String}

theorem tryCandidate_isSome (hx : x ∈ r.routes.zipIdx) : (r.tryCandidate method segments host x.2).isSome = true ↔
      x.1.matches segments host = true ∧
        ¬(method = "HEAD" ∧ x.1.method ≠ method ∧ x.1.kind.isWebSocket = true) := by
  rw [mem_zipIdx_iff_getElem?] at hx
  rw [Router.tryCandidate, hx, Option.bind_some, Route.matches]
  by_cases hhost : hostMatches x.1.host host = true
  · rw [if_neg (by simp [hhost])]
    by_cases hws : method = "HEAD" ∧ x.1.method ≠ method ∧ x.1.kind.isWebSocket = true
    · rw [if_pos (by simpa [and_assoc] using hws)]
      simp only [Option.isSome_none, Bool.false_eq_true, false_iff]
      exact fun h => h.2 hws
    · rw [if_neg (by simpa [and_assoc] using hws), Option.isSome_map, hhost, Bool.true_and]
      exact (and_iff_left hws).symm
  · rw [if_pos (by simpa using hhost)]
    simp [hhost]

theorem tryHttpCandidate_isSome (hx : x ∈ r.routes.zipIdx) : (r.tryHttpCandidate segments host x.2).isSome = true ↔
      x.1.kind.isWebSocket = false ∧ x.1.matches segments host = true := by
  rw [mem_zipIdx_iff_getElem?] at hx
  rw [Router.tryHttpCandidate, hx, Option.bind_some, Route.matches]
  cases x.1.kind.isWebSocket <;> cases hostMatches x.1.host host <;> simp

theorem find?_candidates_eq_scan (hfresh : r.Fresh)
    {test : Nat → Bool} {accept : Route H M C → Bool}
    (h : ∀ x ∈ r.routes.zipIdx, accept x.1 = true ↔ Fits x.1.pattern.segments segments = true ∧
      (x.1.method = method ∨ (method = "HEAD" ∧ x.1.method = "GET") ∨ x.1.method = methodAll) ∧ test x.2 = true) :
    (r.getIndex.1.findCandidates method segments).find? test = (r.scan method accept).map Prod.snd := by
  rw [hfresh.getIndex, findCandidates_eq, List.find?_map]
  congr 1
  refine (prioritized_candidates r method segments).find?_argmin (fun x => ?_) ?_
  · rw [mem_filter, mem_candidates]
    constructor
    · rintro ⟨hx, hacc⟩
      obtain ⟨hfits, hm, htest⟩ := (h x hx).1 hacc
      exact ⟨⟨hx, hfits, hm⟩, htest⟩
    · rintro ⟨⟨hx, hfits, hm⟩, htest⟩
      exact ⟨hx, (h x hx).2 ⟨hfits, hm, htest⟩⟩
  · exact fun x hx y hy h => rank_inj (mem_filter.1 hx).1 (mem_filter.1 hy).1 h

theorem pickIndex_eq_scan (hinv : r.Inv) (method : String) (segments : List String)
    (host : Option String) :
    r.pickIndex method segments host = (r.scan method (Route.answers method segments host)).map Prod.snd := by
  refine find?_candidates_eq_scan hinv.fresh fun x hx => ?_
  rw [answers_iff, eligible_iff, tryCandidate_isSome hx]
  constructor
  · rintro ⟨helig, hmatch⟩
    refine ⟨(matches_iff.1 hmatch).2, helig.imp_right (Or.imp_left fun h => ⟨h.1, h.2.1⟩), hmatch, ?_⟩
    -- a WebSocket route is a `GET` route, so it was not eligible
    rintro ⟨_, hne, hws⟩
    have hget := (hinv.routes_ok x.1 (fst_mem_of_mem_zipIdx hx)).webSocket_get hws
    rcases helig with h | ⟨_, _, h⟩ | h
    · exact hne h
    · rw [hws] at h; cases h
    · rw [hget] at h; exact absurd h (by decide)
  · rintro ⟨_, hm, hmatch, hws⟩
    refine ⟨?_, hmatch⟩
    rcases hm with h | ⟨hhead, hget⟩ | h
    · exact Or.inl h
    · refine Or.inr (Or.inl ⟨hhead, hget, ?_⟩)
      by_contra hk
      exact hws ⟨hhead, by rw [hget, hhead]; decide, by simpa using hk⟩
    · exact Or.inr (Or.inr h)

theorem pickHttpIndex_eq_scan (hfresh : r.Fresh) (method : String) (segments : List String)
    (host : Option String) :
    r.pickHttpIndex method segments host = (r.scan method (Route.answersHttp method segments host)).map Prod.snd := by
  refine find?_candidates_eq_scan hfresh fun x hx => ?_
  rw [answersHttp_iff, eligible_iff, tryHttpCandidate_isSome hx]
  constructor
  · rintro ⟨helig, hws, hmatch⟩
    exact ⟨(matches_iff.1 hmatch).2, helig.imp_right (Or.imp_left fun h => ⟨h.1, h.2.1⟩), hws, hmatch⟩
  · rintro ⟨_, hm, hws, hmatch⟩
    exact ⟨hm.imp_right (Or.imp_left fun h => ⟨h.1, h.2, hws⟩), hws, hmatch⟩

section Scan

variable {r : Router H M C} {method : String} {accept : Route H M C → Bool}

theorem scan_some {x : Route H M C × Nat} (h : r.scan method accept = some x) :
    x ∈ r.routes.zipIdx ∧ accept x.1 = true ∧
      ∀ y ∈ r.routes.zipIdx, accept y.1 = true → rank method x ≤ rank method y := by
  obtain ⟨hx, ha⟩ := mem_filter.1 (argmin_mem h)
  exact ⟨hx, ha, fun y hy hya => le_of_mem_argmin (mem_filter.2 ⟨hy, hya⟩) h⟩

theorem scan_eq_none : r.scan method accept = none ↔ ∀ a ∈ r.routes, accept a = false := by
  rw [Router.scan, argmin_eq_none, filter_eq_nil_iff]
  constructor
  · intro h a ha
    obtain ⟨i, hi, rfl⟩ := getElem_of_mem ha
    simpa using h (r.routes[i], i) (by simp [mem_zipIdx_iff_getElem?])
  · intro h x hx
    simp [h x.1 (fst_mem_of_mem_zipIdx hx)]

theorem scan_eq_some {x : Route H M C × Nat} (hx : x ∈ r.routes.zipIdx) (ha : accept x.1 = true)
    (hmin : ∀ y ∈ r.routes.zipIdx, accept y.1 = true → rank method x ≤ rank method y) :
    r.scan method accept = some x := by
  refine argmin_eq_some_of_least (mem_filter.2 ⟨hx, ha⟩) ?_ ?_
  · intro y hy
    obtain ⟨hy, hya⟩ := mem_filter.1 hy
    exact hmin y hy hya
  · exact fun y hy h => rank_inj (mem_filter.1 hy).1 hx h

end Scan

theorem resolveSegments_eq_scan (hinv : r.Inv) (method : String) (segments : List String)
    (host : Option String) : r.resolveSegments method segments host =
      (r.scan method (Route.answers method segments host)).bind (fun x =>
        (matchDecodedPattern x.1.pattern.segments segments).map x.1.matched) := by
  rw [resolveSegments_eq_pick, pickIndex_eq_scan hinv]
  cases h : r.scan method (Route.answers method segments host) with
  | none => rfl
  | some x =>
    have hpick : r.pickIndex method segments host = some x.2 := by rw [pickIndex_eq_scan hinv, h]; rfl
    obtain ⟨hx, -, -⟩ := scan_some h
    have htry := List.find?_some hpick
    obtain ⟨hmatch, hws⟩ := (tryCandidate_isSome hx).1 htry
    rw [mem_zipIdx_iff_getElem?] at hx
    simp only [Option.map_some, Option.bind_some, Router.tryCandidate, hx]
    rw [if_neg (by simp [(matches_iff.1 hmatch).1]), if_neg (by simpa [and_assoc] using hws)]

theorem resolveSegments_eq_none (hinv : r.Inv) : r.resolveSegments method segments host = none ↔
      ∀ a ∈ r.routes, a.answers method segments host = false := by
  have hnone : r.scan method (Route.answers method segments host) = none ↔ _ := scan_eq_none
  rw [resolveSegments_eq_scan hinv, ← hnone]
  cases h : r.scan method (Route.answers method segments host) with
  | none => simp
  | some x =>
    obtain ⟨-, hx, -⟩ := scan_some h
    obtain ⟨params, hparams⟩ := exists_match (answers_iff.1 hx).2
    simp [hparams]

theorem resolveHttpSegments_eq_none (hfresh : r.Fresh) : r.resolveHttpSegments method segments host = none ↔
      ∀ a ∈ r.routes, a.answersHttp method segments host = false := by
  have hnone : r.scan method (Route.answersHttp method segments host) = none ↔ _ := scan_eq_none
  rw [resolveHttpSegments_eq_pick, ← hnone, ← Option.map_eq_none_iff (f := Prod.snd),
    ← pickHttpIndex_eq_scan hfresh]
  cases hpick : r.pickHttpIndex method segments host with
  | none => simp
  | some i =>
    have htry := List.find?_some hpick
    rw [Option.isSome_iff_ne_none] at htry
    simp [htry]

/-- **Resolution is a scan in order of precedence**: `resolve_method` gives the match of the first route, by pattern,
then method, then registration, among those that answer the request, and nothing exactly when none answers. -/
theorem resolveMethod_eq_scan {r : Router H M C} {os : List (Origin M)} (hb : Built r os) (method path : String)
    (host : Option String) :
    r.resolveMethod method path host = (decodePathSegments path).map (fun segments =>
      (r.scan method (Route.answers method segments host)).bind (fun x =>
        (matchDecodedPattern x.1.pattern.segments segments).map x.1.matched)) ∧
    ∀ segments, decodePathSegments path = .ok segments →
      (r.resolveMethod method path host = .ok none ↔ ∀ a ∈ r.routes, a.answers method segments host = false) := by
  have hres := fun segments => resolveSegments_eq_scan hb.inv method segments host
  constructor
  · unfold Router.resolveMethod
    congr 1
    funext segments
    exact hres segments
  · intro segments hd
    rw [Router.resolveMethod, hd, Except.map, Except.ok.injEq]
    exact resolveSegments_eq_none hb.inv

def overlapRouter : Router Nat Nat Unit :=
  [Registration.route (D := Unit) .get "/a/:x" 1 [], .route .get "/a/b" 2 [], .route .all "/*rest" 3 []].foldl
    (fun r reg => (reg.run r).1) .new

theorem overlapRouter_built : Built overlapRouter [⟨[], []⟩, ⟨[], []⟩, ⟨[], []⟩] :=
  .route .all "/*rest" 3 [] (.route .get "/a/b" 2 [] (.route .get "/a/:x" 1 [] .new))

theorem overlapRouter_resolves :
    overlapRouter.resolveMethod "GET" "/a/b" none = .ok (some ⟨2, [], ∅, "/a/b", .http, none⟩) ∧
      overlapRouter.resolveMethod "GET" "/a/b" none = (decodePathSegments "/a/b").map (fun segments =>
        (overlapRouter.scan "GET" (Route.answers "GET" segments none)).bind (fun x =>
          (matchDecodedPattern x.1.pattern.segments segments).map x.1.matched)) :=
  ⟨by decide +kernel, (resolveMethod_eq_scan overlapRouter_built "GET" "/a/b" none).1⟩

/-! ## Independence of the registration order -/

/-- The precedence of a route without its index. -/
def kindRank (method : String) (a : Route H M C) : List ℕ ×ₗ ℕ :=
  toLex (order a.pattern.segments, methodRank method a.method)

theorem kindRank_le_of_rank_le {x y : Route H M C × Nat} (h : rank method x ≤ rank method y) :
    kindRank method x.1 ≤ kindRank method y.1 := by
  rw [kindRank, kindRank, Prod.Lex.toLex_le_toLex]
  rcases rank_le_iff.1 h with h | ⟨h, h' | ⟨h', _⟩⟩
  · exact Or.inl h
  · exact Or.inr ⟨h, h'.le⟩
  · exact Or.inr ⟨h, h'.le⟩

theorem methodRank_cases {a : Route H M C} (ha : a.eligible method = true) :
    (methodRank method a.method = 0 ∧ a.method = method) ∨
      (methodRank method a.method = 1 ∧ a.method = "GET") ∨
      (methodRank method a.method = 2 ∧ a.method = methodAll) := by
  by_cases hm : a.method = method
  · exact Or.inl ⟨if_pos hm, hm⟩
  · refine Or.inr ?_
    rw [methodRank, if_neg hm]
    rcases eligible_iff.1 ha with h | ⟨_, h, _⟩ | h
    · exact absurd h hm
    · exact Or.inl ⟨if_pos h, h⟩
    · exact Or.inr ⟨if_neg (by rw [h]; decide), h⟩

theorem method_eq_of_methodRank_eq {a b : Route H M C} (ha : a.eligible method = true)
    (hb : b.eligible method = true) (h : methodRank method a.method = methodRank method b.method) :
    a.method = b.method := by
  rcases methodRank_cases ha with ⟨ha, hma⟩ | ⟨ha, hma⟩ | ⟨ha, hma⟩ <;>
    rcases methodRank_cases hb with ⟨hb, hmb⟩ | ⟨hb, hmb⟩ | ⟨hb, hmb⟩ <;>
    first | exact hma.trans hmb.symm | (rw [ha, hb] at h; cases h)

theorem kindRank_inj (hinv : r.Inv)
    {a b : Route H M C} (ha : a ∈ r.routes) (hb : b ∈ r.routes)
    (haa : a.answers method segments host = true) (hba : b.answers method segments host = true)
    (h : kindRank method a = kindRank method b) : a = b := by
  by_contra hne
  have hap : Apart a b := hinv.apart.forall ha hb hne
  obtain ⟨hea, hma⟩ := answers_iff.1 haa
  obtain ⟨heb, hmb⟩ := answers_iff.1 hba
  obtain ⟨hhosta, hfa⟩ := matches_iff.1 hma
  obtain ⟨hhostb, hfb⟩ := matches_iff.1 hmb
  have horder : order a.pattern.segments = order b.pattern.segments := congrArg (fun k => (ofLex k).1) h
  have hrank : methodRank method a.method = methodRank method b.method := congrArg (fun k => (ofLex k).2) h
  have hsep := hap.separated (hinv.routes_ok a ha) (hinv.routes_ok b hb)
    (method_eq_of_methodRank_eq hea heb hrank) (shape_eq_of_order_eq hfa hfb horder)
  exact hsep.2 host ⟨hhosta, hhostb⟩

theorem scan_eq_argmin (hinv : r.Inv) (method : String) (segments : List String)
    (host : Option String) : (r.scan method (Route.answers method segments host)).map Prod.fst =
      (r.routes.filter (Route.answers method segments host)).argmin (kindRank method) := by
  cases h : r.scan method (Route.answers method segments host) with
  | none =>
    have : r.routes.filter (Route.answers method segments host) = [] := by
      rw [filter_eq_nil_iff]
      intro a ha
      simp [scan_eq_none.1 h a ha]
    simp [this]
  | some x =>
    obtain ⟨hx, hxa, hmin⟩ := scan_some h
    have hxr := fst_mem_of_mem_zipIdx hx
    refine (argmin_eq_some_of_least (mem_filter.2 ⟨hxr, hxa⟩) ?_ ?_).symm
    · intro b hb
      obtain ⟨hb, hba⟩ := mem_filter.1 hb
      obtain ⟨j, hj, rfl⟩ := getElem_of_mem hb
      exact kindRank_le_of_rank_le (hmin (r.routes[j], j) (by simp [mem_zipIdx_iff_getElem?]) hba)
    · intro b hb hk
      obtain ⟨hb, hba⟩ := mem_filter.1 hb
      exact kindRank_inj hinv hb hxr hba hxa hk

/-- **The order of registration does not matter**: routers with the same routes in any order resolve alike. -/
theorem resolveMethod_perm {r r' : Router H M C} {os os' : List (Origin M)} (hb : Built r os) (hb' : Built r' os')
    (hperm : r.routes.Perm r'.routes) (method path : String) (host : Option String) :
    r.resolveMethod method path host = r'.resolveMethod method path host := by
  unfold Router.resolveMethod
  congr 1
  funext segments
  have hbind : ∀ {s : Router H M C}, s.Inv → s.resolveSegments method segments host =
      ((s.routes.filter (Route.answers method segments host)).argmin (kindRank method)).bind (fun a =>
        (matchDecodedPattern a.pattern.segments segments).map a.matched) := by
    intro s hs
    rw [resolveSegments_eq_scan hs, ← scan_eq_argmin hs, Option.bind_map]
    rfl
  rw [hbind hb.inv, hbind hb'.inv, argmin_perm (hperm.filter _)]
  intro a ha b hbm hk
  obtain ⟨ha, haa⟩ := mem_filter.1 ha
  obtain ⟨hbm, hba⟩ := mem_filter.1 hbm
  exact kindRank_inj hb.inv ha hbm haa hba hk

def overlapRouterReversed : Router Nat Nat Unit :=
  [Registration.route (D := Unit) .all "/*rest" 3 [], .route .get "/a/b" 2 [], .route .get "/a/:x" 1 []].foldl
    (fun r reg => (reg.run r).1) .new

theorem overlapRouterReversed_built : Built overlapRouterReversed [⟨[], []⟩, ⟨[], []⟩, ⟨[], []⟩] :=
  .route .get "/a/:x" 1 [] (.route .get "/a/b" 2 [] (.route .all "/*rest" 3 [] .new))

theorem overlapRouter_order_irrelevant : overlapRouter.routes.Perm overlapRouterReversed.routes ∧
    overlapRouter.resolveMethod "GET" "/a/c" none = overlapRouterReversed.resolveMethod "GET" "/a/c" none :=
  have hperm : overlapRouter.routes.Perm overlapRouterReversed.routes := by decide +kernel
  ⟨hperm, resolveMethod_perm overlapRouter_built overlapRouterReversed_built hperm "GET" "/a/c" none⟩

/-! ## `HEAD` and `GET` -/

theorem rank_head_iff {x y : Route H M C × Nat} (hx : x.1.method = "GET" ∨ x.1.method = methodAll)
    (hy : y.1.method = "GET" ∨ y.1.method = methodAll) :
    rank "HEAD" x ≤ rank "HEAD" y ↔ rank "GET" x ≤ rank "GET" y := by
  rw [rank_le_iff, rank_le_iff]
  rcases hx with hx | hx <;> rcases hy with hy | hy <;> simp [hx, hy, methodRank, methodAll]

theorem answers_head_iff (hinv : r.Inv) {a : Route H M C} (ha : a ∈ r.routes) : a.answers "HEAD" segments host = true ↔
      (a.method = "HEAD" ∧ a.matches segments host = true) ∨ a.answersHttp "GET" segments host = true := by
  have hws : a.kind.isWebSocket = true → a.method = "GET" := (hinv.routes_ok a ha).webSocket_get
  have hhttp : a.method ≠ "GET" → a.kind.isWebSocket = false := by
    intro h
    by_contra hk
    exact h (hws (by simpa using hk))
  rw [answers_iff, answersHttp_iff, eligible_iff, eligible_iff]
  constructor
  · rintro ⟨h | ⟨_, hget, hk⟩ | h, hmatch⟩
    · exact Or.inl ⟨h, hmatch⟩
    · exact Or.inr ⟨Or.inl hget, hk, hmatch⟩
    · exact Or.inr ⟨Or.inr (Or.inr h), hhttp (by rw [h]; decide), hmatch⟩
  · rintro (⟨h, hmatch⟩ | ⟨h | ⟨hhead, _⟩ | h, hk, hmatch⟩)
    · exact ⟨Or.inl h, hmatch⟩
    · exact ⟨Or.inr (Or.inl ⟨rfl, h, hk⟩), hmatch⟩
    · exact absurd hhead (by decide)
    · exact ⟨Or.inr (Or.inr h), hmatch⟩

theorem method_of_answersHttp_get {a : Route H M C}
    (h : a.answersHttp "GET" segments host = true) : a.method = "GET" ∨ a.method = methodAll := by
  rcases eligible_iff.1 (answersHttp_iff.1 h).1 with h | ⟨hhead, _⟩ | h
  · exact Or.inl h
  · exact absurd hhead (by decide)
  · exact Or.inr h

theorem scan_head_of_get (hinv : r.Inv)
    (hx : r.scan "GET" (Route.answersHttp "GET" segments host) = some x) :
    ∃ y, r.scan "HEAD" (Route.answers "HEAD" segments host) = some y ∧
      (y = x ∨ (y.1.method = "HEAD" ∧ order y.1.pattern.segments ≤ order x.1.pattern.segments)) := by
  obtain ⟨hxr, hxa, hxmin⟩ := scan_some hx
  have hxhead : x.1.answers "HEAD" segments host = true :=
    (answers_head_iff hinv (fst_mem_of_mem_zipIdx hxr)).2 (Or.inr hxa)
  cases hy : r.scan "HEAD" (Route.answers "HEAD" segments host) with
  | none => rw [scan_eq_none.1 hy x.1 (fst_mem_of_mem_zipIdx hxr)] at hxhead; cases hxhead
  | some y =>
    refine ⟨y, rfl, ?_⟩
    obtain ⟨hyr, hya, hymin⟩ := scan_some hy
    have hyx := hymin x hxr hxhead
    rcases (answers_head_iff hinv (fst_mem_of_mem_zipIdx hyr)).1 hya with ⟨hhead, _⟩ | hyhttp
    · refine Or.inr ⟨hhead, ?_⟩
      rcases rank_le_iff.1 hyx with h | ⟨h, _⟩
      · exact h.le
      · exact h.le
    · have hle := (rank_head_iff (method_of_answersHttp_get hyhttp) (method_of_answersHttp_get hxa)).1 hyx
      exact Or.inl (rank_inj hyr hxr (le_antisymm hle (hxmin y hyr hyhttp)))

/-- **`HEAD` follows `GET`**: if a plain `GET` resolves to a route, `HEAD` resolves to the same route or to one that is
registered for `HEAD` and whose pattern is at least as specific; if no plain `GET` and no `HEAD` route matches, `HEAD`
resolves to nothing; and `HEAD` never resolves to a WebSocket route. The lookups return what the picked routes give. -/
theorem head_follows_get {r : Router H M C} {os : List (Origin M)} (hb : Built r os) {path : String}
    {segments : List String} (hd : decodePathSegments path = .ok segments) (host : Option String) :
    r.resolveHttpMethod "GET" path host =
      .ok ((r.pickHttpIndex "GET" segments host).bind (r.tryHttpCandidate segments host)) ∧
    r.resolveMethod "HEAD" path host =
      .ok ((r.pickIndex "HEAD" segments host).bind (r.tryCandidate "HEAD" segments host)) ∧
    (∀ i a, r.pickHttpIndex "GET" segments host = some i → r.routes[i]? = some a →
      ∃ j b, r.pickIndex "HEAD" segments host = some j ∧ r.routes[j]? = some b ∧
        (j = i ∨ (b.method = "HEAD" ∧ order b.pattern.segments ≤ order a.pattern.segments))) ∧
    (r.pickHttpIndex "GET" segments host = none →
      (∀ a ∈ r.routes, a.method = "HEAD" → a.matches segments host = false) →
      r.pickIndex "HEAD" segments host = none) ∧
    ∀ j b, r.pickIndex "HEAD" segments host = some j → r.routes[j]? = some b → b.kind.isWebSocket = false := by
  have hinv := hb.inv
  have hget := pickHttpIndex_eq_scan hinv.fresh "GET" segments host
  have hhead := pickIndex_eq_scan hinv "HEAD" segments host
  refine ⟨?_, ?_, ?_, ?_, ?_⟩
  · rw [Router.resolveHttpMethod, hd, Except.map, resolveHttpSegments_eq_pick]
  · rw [Router.resolveMethod, hd, Except.map, resolveSegments_eq_pick]
  · intro i a hi ha
    rw [hget, Option.map_eq_some_iff] at hi
    obtain ⟨x, hx, rfl⟩ := hi
    obtain ⟨y, hy, hyx⟩ := scan_head_of_get hinv hx
    have hxr := mem_zipIdx_iff_getElem?.1 (scan_some hx).1
    have hyr := mem_zipIdx_iff_getElem?.1 (scan_some hy).1
    refine ⟨y.2, y.1, by rw [hhead, hy]; rfl, hyr, ?_⟩
    rw [hxr] at ha
    cases ha
    exact hyx.imp_left (congrArg Prod.snd)
  · intro hnone hno
    rw [hget, Option.map_eq_none_iff, scan_eq_none] at hnone
    rw [hhead, Option.map_eq_none_iff, scan_eq_none]
    intro a ha
    rw [← Bool.not_eq_true, answers_head_iff hinv ha, hnone a ha]
    rintro (⟨hm, hmatch⟩ | h)
    · rw [hno a ha hm] at hmatch; cases hmatch
    · cases h
  · intro j b hj hb'
    rw [hhead, Option.map_eq_some_iff] at hj
    obtain ⟨y, hy, rfl⟩ := hj
    obtain ⟨hyr, hya, -⟩ := scan_some hy
    rw [mem_zipIdx_iff_getElem?.1 hyr] at hb'
    cases hb'
    have hmem := fst_mem_of_mem_zipIdx hyr
    rcases (answers_head_iff hinv hmem).1 hya with ⟨hm, _⟩ | h
    · by_contra hk
      have := (hinv.routes_ok y.1 hmem).webSocket_get (by simpa using hk)
      rw [hm] at this
      exact absurd this (by decide)
    · exact (answersHttp_iff.1 h).2.1

/-- A `GET` route in front of a `HEAD` wildcard. -/
def headRouter : Router Nat Nat Unit :=
  [Registration.route (D := Unit) .get "/a/:x" 1 [], .route .head "/*rest" 2 []].foldl (fun r reg => (reg.run r).1) .new

theorem headRouter_built : Built headRouter [⟨[], []⟩, ⟨[], []⟩] :=
  .route .head "/*rest" 2 [] (.route .get "/a/:x" 1 [] .new)

theorem headRouter_follows_get : headRouter.pickHttpIndex "GET" ["a", "b"] none = some 0 ∧
    ∀ i a, headRouter.pickHttpIndex "GET" ["a", "b"] none = some i → headRouter.routes[i]? = some a →
      ∃ j b, headRouter.pickIndex "HEAD" ["a", "b"] none = some j ∧ headRouter.routes[j]? = some b ∧
        (j = i ∨ (b.method = "HEAD" ∧ order b.pattern.segments ≤ order a.pattern.segments)) :=
  have hd : decodePathSegments "/a/b" = .ok ["a", "b"] := by decide +kernel
  ⟨by decide +kernel, (head_follows_get headRouter_built hd none).2.2.1⟩

end RustRest
