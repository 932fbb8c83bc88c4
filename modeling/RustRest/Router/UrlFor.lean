import RustRest.Router.OpenApi
import RustRest.Router.Precedence
import RustRest.Router.Url

/-!
# Named routes and lookups

`url_for` takes the first route of a name and fills its pattern. A request for the URL goes through the index, with the
other routes of the router in the way.

Main result: **`urlFor_resolves`**.
-/

namespace RustRest

open FiniteMap

/-- A URL that `url_for` makes and the router decodes leads back. For every method and host that the named route takes, the
lookup finds a route: the named one, with the parameters given to `url_for`, or one that answers the same request and has
precedence over it. -/
theorem urlFor_resolves {H M C : Type} {r : Router H M C} {os : List (Origin M)} (hb : Built r os) {name url : String}
    {params : List (String × String)} (h : r.urlFor name params = .ok url) {segments : List String}
    (hd : decodePathSegments url = .ok segments) :
    ∃ named ∈ r.routes.zipIdx, named.1.name = some name ∧
      ∀ method host, named.1.eligible method = true → hostMatches named.1.host host = true →
        ∃ x ∈ r.routes.zipIdx, ∃ captured, r.resolveMethod method url host = .ok (some (x.1.matched captured)) ∧
          x.1.answers method segments host = true ∧ rank method x ≤ rank method named ∧
          (x = named → ∀ param, captured.lookup param = ((collect params).lookup param).map fun value =>
            if .wildcard param ∈ named.1.pattern.segments then withoutEmptyPieces value else value) := by
  unfold Router.urlFor at h
  split at h
  · cases h
  · next route hfind =>
    have hmem : route ∈ r.routes := List.mem_of_find?_eq_some hfind
    obtain ⟨i, hi⟩ := List.mem_iff_getElem?.1 hmem
    have hnamed : (route, i) ∈ r.routes.zipIdx := List.mem_zipIdx_iff_getElem?.2 hi
    have hname := List.find?_some hfind
    refine ⟨(route, i), hnamed, eq_of_beq hname, fun method host heligible hhost => ?_⟩
    -- the pattern of the named route matches its own URL
    have hpattern := (hb.parsed route hmem).wellFormed
    have hurl := generated_of_buildUrl h
    have hpieces : segments = piecesOf route.pattern params := by
      rw [decodePathSegments_url hpattern hurl] at hd
      split at hd
      · cases hd
      · split at hd
        · cases hd
        · exact (Except.ok.inj hd).symm
    subst hpieces
    obtain ⟨given, hgiven, hvalues⟩ := matchDecodedPattern_url hpattern hurl
    have hanswers : route.answers method (piecesOf route.pattern params) host = true := by
      rw [answers_iff, Route.matches, hgiven, hhost]
      exact ⟨heligible, rfl⟩
    cases hscan : r.scan method (Route.answers method (piecesOf route.pattern params) host) with
    | none => exact absurd (scan_eq_none.1 hscan route hmem) (by rw [hanswers]; exact Bool.noConfusion)
    | some x =>
      obtain ⟨hx, hxanswers, hbest⟩ := scan_some hscan
      obtain ⟨captured, hcaptured⟩ := exists_match (answers_iff.1 hxanswers).2
      refine ⟨x, hx, captured, ?_, hxanswers, hbest _ hnamed hanswers, ?_⟩
      · rw [Router.resolveMethod, hd, Except.map, resolveSegments_eq_scan hb.inv, hscan, Option.bind_some, hcaptured]
        rfl
      · rintro rfl
        cases hgiven.symm.trans hcaptured
        exact hvalues

/-- A named route beside a static one. -/
def usersRouter : Router Nat Nat Unit :=
  (andChain (Router.route (andChain (Router.new.route .get "/users/:id" 1) [.name "user"]).1 .get "/users/me" 2) []).1

theorem urlFor_resolves_users : usersRouter.urlFor "user" [("id", "7")] = .ok "/users/7" ∧
    ∃ named ∈ usersRouter.routes.zipIdx, named.1.name = some "user" ∧
      (named.1.eligible "GET" = true → hostMatches named.1.host none = true →
        ∃ x ∈ usersRouter.routes.zipIdx, ∃ captured,
          usersRouter.resolveMethod "GET" "/users/7" none = .ok (some (x.1.matched captured))) := by
  have hurl : usersRouter.urlFor "user" [("id", "7")] = .ok "/users/7" := by decide +kernel
  have hbuilt : Built usersRouter _ := .route .get "/users/me" 2 [] (.route .get "/users/:id" 1 [.name "user"] .new)
  have hdecode : decodePathSegments "/users/7" = .ok ["users", "7"] := by decide +kernel
  obtain ⟨named, hnamed, hname, hleads⟩ := urlFor_resolves hbuilt hurl hdecode
  refine ⟨hurl, named, hnamed, hname, fun heligible hhost => ?_⟩
  obtain ⟨x, hx, captured, hfound, -⟩ := hleads "GET" none heligible hhost
  exact ⟨x, hx, captured, hfound⟩

end RustRest
