import RustRest.Lib.Ipv6
import RustRest.Router.Built
import RustRest.Server.Miss

/-!
# Authorities

`ValidatedAuthority` decides which `Host` values name the same authority, and `normalize_host` which of them are the same
for a host-constrained route. The two agree on names and ports, but not on the spellings of an IPv6 address.

Main result: **`resolve_same_iff`**.
-/

namespace RustRest

open List

/-! ## Model -/

/-- A host and a port, as they were validated. -/
structure ValidatedAuthority where
  host : String
  port : Option ℕ
  deriving DecidableEq

def parseAuthorityPort (raw : List Char) : Option ℕ :=
  if isPort raw then (some (Nat.ofDigitChars 10 raw 0)).filter (· < 2 ^ 16) else none

def hasForbiddenChar (raw : List Char) : Bool :=
  raw.isEmpty || raw.contains '@' || raw.contains '/' || raw.contains '\\' ||
    raw.any fun character => isControl character || isWhitespace character

/-- The port behind a bracketed address. -/
def suffixPort : List Char → Option (Option ℕ)
  | [] => some none
  | ':' :: port => (parseAuthorityPort port).map some
  | _ => none

def hostAndPort (chars : List Char) : Option (List Char × Option ℕ) :=
  match splitOnce ':' chars with
  | some (host, port) => (parseAuthorityPort port).map fun port => (host, some port)
  | none => some (chars, none)

namespace ValidatedAuthority

/-- `ValidatedAuthority::parse`, where `isAuthority` is the verdict of `hyper::http::uri::Authority`. -/
def parse (isAuthority : String → Bool) (raw : String) : Option ValidatedAuthority :=
  if hasForbiddenChar raw.toList || !isAuthority raw then none
  else match raw.toList with
    | '[' :: bracketed => do
      let (inside, suffix) ← splitOnce ']' bracketed
      let address ← Ipv6.parse inside
      let port ← suffixPort suffix
      some ⟨String.ofList ('[' :: (Ipv6.display address ++ [']'])), port⟩
    | chars =>
      if '[' ∈ chars ∨ ']' ∈ chars ∨ chars.count ':' > 1 then none
      else do
        let (host, port) ← hostAndPort chars
        if host.isEmpty then none else some ⟨toAsciiLowercase (String.ofList host), port⟩

def normalized (authority : ValidatedAuthority) : String :=
  match authority.port with
  | some port => authority.host ++ ":" ++ String.ofList (Nat.toDigits 10 port)
  | none => authority.host

/-- The same host, and the same port or its default. -/
def equivalentTo (authority other : ValidatedAuthority) (defaultPort : Option ℕ) : Bool :=
  authority.host == other.host && authority.port.or defaultPort == other.port.or defaultPort

end ValidatedAuthority

/-! ## What the router sees -/

def Bracketed (raw : String) : Prop := raw.toList.head? = some '['

instance (raw : String) : Decidable (Bracketed raw) := inferInstanceAs (Decidable (raw.toList.head? = some '['))

def spelling (raw : String) : List Char := (raw.toList.takeWhile (· != ']')).map Char.toLower

theorem hasForbiddenChar_eq_false {raw : List Char} (h : hasForbiddenChar raw = false) :
    raw ≠ [] ∧ ∀ c ∈ raw, isWhitespace c = false := by
  simp only [hasForbiddenChar, Bool.or_eq_false_iff, any_eq_false, isEmpty_eq_false_iff] at h
  exact ⟨h.1.1.1.1, fun c hc => (Bool.or_eq_false_iff.1 (Bool.eq_false_iff.2 (h.2 c hc))).2⟩

theorem normalizeHost_of_allowed {raw : String} (h : hasForbiddenChar raw.toList = false) :
    normalizeHost raw = (stripValidPort raw.toList).bind fun withoutPort =>
      if withoutPort.isEmpty then none else some (String.ofList (withoutPort.map Char.toLower)) := by
  have htrim : trim raw.toList = raw.toList := trim_of_bare (bare_of_forall (hasForbiddenChar_eq_false h).2)
  unfold normalizeHost
  rw [htrim]
  exact if_neg (Bool.eq_false_iff.1 h)

theorem isPort_of_parseAuthorityPort {raw : List Char} {port : ℕ} (h : parseAuthorityPort raw = some port) :
    isPort raw = true := by
  unfold parseAuthorityPort at h
  split at h
  · next hport => exact hport
  · exact nomatch h

section Accepted

variable {isAuthority : String → Bool} {raw : String} {x : ValidatedAuthority}

theorem allowed_of_parse (h : ValidatedAuthority.parse isAuthority raw = some x) :
    hasForbiddenChar raw.toList = false := by
  unfold ValidatedAuthority.parse at h
  split at h
  · exact nomatch h
  · next hallowed => exact (Bool.or_eq_false_iff.1 (Bool.eq_false_iff.2 hallowed)).1

theorem parse_bracketed (h : ValidatedAuthority.parse isAuthority raw = some x) (hb : Bracketed raw) :
    ∃ inside suffix address port, raw.toList = '[' :: (inside ++ ']' :: suffix) ∧ ']' ∉ inside ∧
      Ipv6.parse inside = some address ∧ suffixPort suffix = some port ∧
      x = ⟨String.ofList ('[' :: (Ipv6.display address ++ [']'])), port⟩ := by
  unfold ValidatedAuthority.parse at h
  split at h
  · exact nomatch h
  split at h
  · next bracketed hraw =>
    obtain ⟨⟨inside, suffix⟩, hsplit, hrest⟩ := Option.bind_eq_some_iff.1 h
    obtain ⟨address, haddress, hrest⟩ := Option.bind_eq_some_iff.1 hrest
    obtain ⟨port, hport, hx⟩ := Option.bind_eq_some_iff.1 hrest
    obtain ⟨hbracketed, hinside⟩ := splitOnce_eq_some hsplit
    exact ⟨inside, suffix, address, port, hbracketed ▸ hraw, hinside, haddress, hport, (Option.some.inj hx).symm⟩
  · next hnot =>
    obtain ⟨rest, hraw⟩ := List.head?_eq_some_iff.1 hb
    exact absurd hraw (hnot _)

theorem parse_name (h : ValidatedAuthority.parse isAuthority raw = some x) (hb : ¬ Bracketed raw) :
    ∃ host, host ≠ [] ∧ ':' ∉ host ∧ '[' ∉ host ∧ x.host = String.ofList (host.map Char.toLower) ∧
      (raw.toList = host ∨ ∃ port, raw.toList = host ++ ':' :: port ∧ ':' ∉ port ∧ isPort port = true) := by
  unfold ValidatedAuthority.parse at h
  split at h
  · exact nomatch h
  split at h
  · next bracketed hraw => exact absurd (show Bracketed raw by rw [Bracketed, hraw]; rfl) hb
  split at h
  · exact nomatch h
  · next hone =>
    simp only [not_or, Nat.not_lt] at hone
    obtain ⟨⟨host, port⟩, hparts, hx⟩ := Option.bind_eq_some_iff.1 h
    dsimp only at hx
    split at hx
    · exact nomatch hx
    · next hne =>
      rw [List.isEmpty_iff] at hne
      cases Option.some.inj hx
      unfold hostAndPort at hparts
      split at hparts
      · next host' portText hsplit =>
        obtain ⟨port', hport, hpair⟩ := Option.map_eq_some_iff.1 hparts
        cases hpair
        obtain ⟨hraw, hcolon⟩ := splitOnce_eq_some hsplit
        refine ⟨host, hne, hcolon, fun hmem => hone.1 (hraw ▸ mem_append_left _ hmem), ?_,
          .inr ⟨portText, hraw, fun hmem => ?_, isPort_of_parseAuthorityPort hport⟩⟩
        · rw [toAsciiLowercase, String.toList_ofList]
        · -- a second colon
          have hcount := hone.2.2
          rw [hraw, count_append, count_cons_self] at hcount
          have := count_pos_iff.2 hmem
          omega
      · next hsplit =>
        cases Option.some.inj hparts
        exact ⟨_, hne, splitOnce_eq_none hsplit, hone.1, by rw [toAsciiLowercase, String.toList_ofList], .inl rfl⟩

theorem normalizeHost_bracketed (h : ValidatedAuthority.parse isAuthority raw = some x) (hb : Bracketed raw) :
    normalizeHost raw = some (String.ofList (spelling raw ++ [']'])) := by
  obtain ⟨inside, suffix, address, port, hraw, hinside, -, hport, -⟩ := parse_bracketed h hb
  have hfront : ']' ∉ '[' :: inside := by simpa using hinside
  have htake : raw.toList.takeWhile (· != ']') = '[' :: inside := by
    rw [hraw, ← cons_append, takeWhile_bne_append hfront]
  have hdrop : raw.toList.dropWhile (· != ']') = ']' :: suffix := by
    rw [hraw, ← cons_append, dropWhile_bne_append hfront]
  have hmem : ']' ∈ raw.toList := by simp [hraw]
  have hstrip : stripValidPort raw.toList = some ('[' :: (inside ++ [']'])) := by
    unfold stripValidPort
    rw [if_pos (show raw.toList.head? = some '[' from hb), if_pos hmem, htake, hdrop]
    unfold suffixPort at hport
    split at hport
    · exact congrArg some hraw
    · obtain ⟨n, hn, -⟩ := Option.map_eq_some_iff.1 hport
      exact if_pos (isPort_of_parseAuthorityPort hn)
    · exact nomatch hport
  rw [normalizeHost_of_allowed (allowed_of_parse h), hstrip, spelling, htake]
  simp

theorem normalizeHost_name (h : ValidatedAuthority.parse isAuthority raw = some x) (hb : ¬ Bracketed raw) :
    normalizeHost raw = some x.host := by
  obtain ⟨host, hne, hcolon, -, hhost, hraw⟩ := parse_name h hb
  have hstrip : stripValidPort raw.toList = some host := by
    unfold stripValidPort
    rw [if_neg (show ¬ raw.toList.head? = some '[' from hb)]
    rcases hraw with hraw | ⟨port, hraw, hport, hdigits⟩
    · rw [hraw, if_neg hcolon]
    · have hreverse : raw.toList.reverse = port.reverse ++ ':' :: host.reverse := by simp [hraw]
      have hlast : ':' ∉ port.reverse := by simpa using hport
      rw [if_pos (by simp [hraw]), hreverse, takeWhile_bne_append hlast, dropWhile_bne_append hlast]
      simp [hdigits]
  rw [normalizeHost_of_allowed (allowed_of_parse h), hstrip, hhost, Option.bind_some, if_neg (by simpa using hne)]

theorem parseHost_bracketed (h : ValidatedAuthority.parse isAuthority raw = some x) (hb : Bracketed raw) :
    HostPattern.parse raw = .ok (.exact (String.ofList (spelling raw ++ [']']))) := by
  obtain ⟨inside, suffix, address, port, hraw, hinside, haddress, -, -⟩ := parse_bracketed h hb
  have hspelling : spelling raw = '[' :: inside.map Char.toLower := by
    rw [spelling, hraw, ← cons_append, takeWhile_bne_append (by simpa using hinside)]
    rfl
  have hstar : '*' ∉ inside.map Char.toLower := by
    rintro hmem
    obtain ⟨c, hc, hlower⟩ := mem_map.1 hmem
    rw [eq_of_toLower_eq (by decide) hlower] at hc
    exact absurd (Ipv6.symbol_of_parse haddress _ hc) (by unfold Ipv6.Symbol; decide)
  unfold HostPattern.parse
  rw [normalizeHost_bracketed h hb, hspelling]
  simp [hstar]

theorem head?_host (h : ValidatedAuthority.parse isAuthority raw = some x) :
    x.host.toList ≠ [] ∧ (x.host.toList.head? = some '[' ↔ Bracketed raw) := by
  by_cases hb : Bracketed raw
  · obtain ⟨inside, suffix, address, port, -, -, -, -, rfl⟩ := parse_bracketed h hb
    simp [hb]
  · obtain ⟨host, hne, -, hbracket, hhost, -⟩ := parse_name h hb
    obtain ⟨c, rest, rfl⟩ := exists_cons_of_ne_nil hne
    refine ⟨by simp [hhost], iff_of_false (fun hhead => hbracket ?_) hb⟩
    rw [hhost, String.toList_ofList, map_cons, List.head?_cons, Option.some.injEq] at hhead
    exact eq_of_toLower_eq (by decide) hhead ▸ mem_cons_self

end Accepted

/-- The server treats two authorities as equal. -/
def SameAuthority (x y : ValidatedAuthority) : Prop :=
  x.normalized = y.normalized ∨ ∃ defaultPort, x.equivalentTo y defaultPort = true

theorem toList_normalized (x : ValidatedAuthority) : x.normalized.toList = x.host.toList ∨
    ∃ port, x.normalized.toList = x.host.toList ++ ':' :: port := by
  unfold ValidatedAuthority.normalized
  split
  · next port _ => exact .inr ⟨Nat.toDigits 10 port, by simp⟩
  · exact .inl rfl

theorem head?_normalized {x : ValidatedAuthority} (h : x.host.toList ≠ []) :
    x.normalized.toList.head? = x.host.toList.head? := by
  rcases toList_normalized x with hx | ⟨port, hx⟩
  · rw [hx]
  · rw [hx, List.head?_append_of_ne_nil _ h]

theorem takeWhile_normalized {x : ValidatedAuthority} (h : ':' ∉ x.host.toList) :
    x.normalized.toList.takeWhile (· != ':') = x.host.toList := by
  rcases toList_normalized x with hx | ⟨port, hx⟩
  · rw [hx, takeWhile_eq_self_iff]
    exact fun c hc => bne_iff_ne.2 fun heq => h (heq ▸ hc)
  · rw [hx, takeWhile_bne_append h]

section Same

variable {isAuthority : String → Bool} {a b : String} {x y : ValidatedAuthority}

theorem bracketed_iff (ha : ValidatedAuthority.parse isAuthority a = some x)
    (hb : ValidatedAuthority.parse isAuthority b = some y) (hsame : SameAuthority x y) : Bracketed a ↔ Bracketed b := by
  obtain ⟨hx, hxa⟩ := head?_host ha
  obtain ⟨hy, hyb⟩ := head?_host hb
  rw [← hxa, ← hyb]
  rcases hsame with hnormalized | ⟨defaultPort, hequivalent⟩
  · rw [← head?_normalized hx, ← head?_normalized hy, hnormalized]
  · rw [beq_iff_eq.1 (Bool.and_eq_true_iff.1 hequivalent).1]

theorem not_mem_host (ha : ValidatedAuthority.parse isAuthority a = some x) (hname : ¬ Bracketed a) :
    ':' ∉ x.host.toList := by
  obtain ⟨host, -, hcolon, -, hhost, -⟩ := parse_name ha hname
  rw [hhost, String.toList_ofList]
  intro hmem
  obtain ⟨c, hc, hlower⟩ := mem_map.1 hmem
  exact hcolon (eq_of_toLower_eq (by decide) hlower ▸ hc)

theorem host_eq_of_name (ha : ValidatedAuthority.parse isAuthority a = some x)
    (hb : ValidatedAuthority.parse isAuthority b = some y) (hsame : SameAuthority x y) (hname : ¬ Bracketed a) :
    x.host = y.host := by
  have hname' : ¬ Bracketed b := fun h => hname ((bracketed_iff ha hb hsame).2 h)
  rcases hsame with hnormalized | ⟨defaultPort, hequivalent⟩
  · rw [← String.toList_inj, ← takeWhile_normalized (not_mem_host ha hname),
      ← takeWhile_normalized (not_mem_host hb hname'), hnormalized]
  · exact beq_iff_eq.1 (Bool.and_eq_true_iff.1 hequivalent).1

theorem normalizeHost_eq_iff (ha : ValidatedAuthority.parse isAuthority a = some x)
    (hb : ValidatedAuthority.parse isAuthority b = some y) (hsame : SameAuthority x y) :
    normalizeHost a = normalizeHost b ↔ (Bracketed a → spelling a = spelling b) := by
  by_cases hbracketed : Bracketed a
  · rw [normalizeHost_bracketed ha hbracketed, normalizeHost_bracketed hb ((bracketed_iff ha hb hsame).1 hbracketed),
      Option.some.injEq, String.ofList_inj, append_left_inj]
    exact ⟨fun h _ => h, fun h => h hbracketed⟩
  · rw [normalizeHost_name ha hbracketed, normalizeHost_name hb fun h => hbracketed ((bracketed_iff ha hb hsame).2 h),
      host_eq_of_name ha hb hsame hbracketed]
    exact iff_of_true rfl fun h => absurd h hbracketed

end Same

/-! ## Resolution -/

section Resolution

variable {H M C : Type}

theorem resolve_congr {a b : Option String} (h : ∀ pattern, hostMatches pattern a = hostMatches pattern b)
    (app : App H M C) (method path : String) : app.resolve method path a = app.resolve method path b := by
  have htry : ∀ m segments, app.router.tryCandidate m segments a = app.router.tryCandidate m segments b := by
    intro m segments
    funext index
    simp only [Router.tryCandidate, h]
  have hhttp : ∀ segments, app.router.tryHttpCandidate segments a = app.router.tryHttpCandidate segments b := by
    intro segments
    funext index
    simp only [Router.tryHttpCandidate, h]
  have hallow : ∀ segments, app.router.allowStep segments a = app.router.allowStep segments b := by
    intro segments
    funext methods x
    simp only [Router.allowStep, h]
  have hscoped : ∀ segments, app.router.scopedStep segments a = app.router.scopedStep segments b := by
    intro segments
    funext best x
    simp only [Router.scopedStep, Router.scopedCandidate, h]
  simp only [App.resolve, App.resolveMiss, Router.resolveMethod, Router.resolveSegments, Router.resolveHttpMethod,
    Router.resolveHttpSegments, Router.allowedMethods, Router.allowedSegments, Router.scopedMiddlewares,
    Router.scopedRoute, htry, hhttp, hallow, hscoped]

end Resolution

def rootRoute (host : Option HostPattern) : Route Unit Unit Unit where
  method := "GET"
  pattern := ⟨"/", [], [], []⟩
  handler := ()
  middlewares := []
  routeLayers := 0
  kind := .http
  routeMeta := {}
  name := none
  host := host

/-- An application with that route on one host. -/
def hostApp (host : String) : App Unit Unit Unit where
  router := (andChain (Router.new.route .get "/" ()) [.host host]).1
  middlewares := []

theorem hostApp_built (host : String) : ∃ os, Built (hostApp host).router os :=
  ⟨_, .route .get "/" () [.host host] .new⟩

theorem hostApp_eq {text : String} {pattern : HostPattern} (h : HostPattern.parse text = .ok pattern) :
    hostApp text = ⟨⟨[rootRoute (some pattern)], [], none⟩, []⟩ := by
  have hroute : (Router.new.route .get "/" () : Router Unit Unit Unit × Except RouteError RouteHandle) =
      (⟨[rootRoute none], [], none⟩, .ok ⟨0⟩) := rfl
  rw [hostApp, hroute]
  simp only [andChain, RouteHandle.chain, HandleCall.run, RouteHandle.host, h]
  rfl

theorem hostApp_resolve {text : String} {pattern : HostPattern} (h : HostPattern.parse text = .ok pattern)
    (host : Option String) : ((hostApp text).resolve "GET" "/" host).map MatchedRoute.handler =
      .ok (if pattern.matchesRequest host then .route () else .notFound) := by
  have hdecode : decodePathSegments "/" = .ok [] := by decide +kernel
  have hcandidates : (RouteIndex.build [("GET", [])]).findCandidates "GET" [] = [0] := by decide +kernel
  have hmethods : (RouteIndex.build [("GET", [])]).matchingMethods [] = [(0, "GET")] := by decide +kernel
  have hindex : (hostApp text).router.getIndex.1 = .build [("GET", [])] := by
    rw [hostApp_eq h]
    rfl
  have hmatch : hostMatches (some pattern) host = pattern.matchesRequest host := rfl
  simp only [App.resolve, App.resolveMiss, Router.resolveMethod, Router.resolveSegments, Router.resolveHttpMethod,
    Router.resolveHttpSegments, Router.allowedMethods, Router.allowedSegments, hdecode, hindex, Except.map, hcandidates,
    hmethods]
  rw [hostApp_eq h]
  cases hverdict : pattern.matchesRequest host with
  | true =>
    simp only [List.findSome?_cons, Router.tryCandidate, List.getElem?_cons_zero, Option.bind_some, rootRoute, hmatch,
      hverdict]
    rfl
  | false =>
    simp only [List.findSome?_cons, List.findSome?_nil, Router.tryCandidate, Router.tryHttpCandidate,
      foldl_cons, foldl_nil, Router.allowStep, List.getElem?_cons_zero, Option.bind_some, rootRoute, hmatch,
      hverdict]
    rfl

/-- **When values of one authority select the same route.** Two `Host` values that the server treats as one authority are
answered alike by every application exactly if they are names, or addresses spelled in one way up to case. -/
theorem resolve_same_iff {isAuthority : String → Bool} {a b : String} {x y : ValidatedAuthority}
    (ha : ValidatedAuthority.parse isAuthority a = some x) (hb : ValidatedAuthority.parse isAuthority b = some y)
    (hsame : SameAuthority x y) :
    (∀ (H M C : Type) (app : App H M C) (os : List (Origin M)), Built app.router os → ∀ method path,
      app.resolve method path (some a) = app.resolve method path (some b)) ↔
      (Bracketed a → spelling a = spelling b) := by
  rw [← normalizeHost_eq_iff ha hb hsame]
  constructor
  · intro hall
    by_cases hbracketed : Bracketed a
    · -- a route on the first value answers the second one
      have hparse := parseHost_bracketed ha hbracketed
      obtain ⟨os, hbuilt⟩ := hostApp_built a
      have hresolve := congrArg (Except.map MatchedRoute.handler) (hall _ _ _ (hostApp a) os hbuilt "GET" "/")
      rw [hostApp_resolve hparse, hostApp_resolve hparse, matchesRequest_of_parse hparse, matchesNormalized_own] at hresolve
      have hverdict : (HostPattern.exact (String.ofList (spelling a ++ [']']))).matchesRequest (some b) = true := by
        by_contra hnot
        rw [if_pos rfl, if_neg hnot] at hresolve
        exact nomatch hresolve
      rw [normalizeHost_of_parse hparse]
      unfold HostPattern.matchesRequest at hverdict
      rw [Option.bind_some] at hverdict
      split at hverdict
      · exact nomatch hverdict
      · next host hhost =>
        rw [hhost]
        exact congrArg some (beq_iff_eq.1 hverdict)
    · exact (normalizeHost_eq_iff ha hb hsame).2 fun h => absurd h hbracketed
  · intro hnormalized H M C app os _ method path
    refine resolve_congr (fun pattern => ?_) app method path
    cases pattern with
    | none => rfl
    | some pattern =>
      unfold hostMatches HostPattern.matchesRequest
      rw [Option.bind_some, Option.bind_some, hnormalized]

def plainCharacters (raw : String) : Bool := raw.toList.all fun c => c.isAlphanum || "-.:[]".toList.contains c

theorem resolve_same_iff_names :
    (∀ (H M C : Type) (app : App H M C) (os : List (Origin M)), Built app.router os → ∀ method path,
      app.resolve method path (some "Example.com:080") = app.resolve method path (some "example.COM:80")) ↔
      (Bracketed "Example.com:080" → spelling "Example.com:080" = spelling "example.COM:80") :=
  @resolve_same_iff plainCharacters "Example.com:080" "example.COM:80" ⟨"example.com", some 80⟩ ⟨"example.com", some 80⟩
    (by decide +kernel) (by decide +kernel) (.inl rfl)

/-- Two spellings of the loopback address are one authority, but only one of them reaches the route. -/
theorem spellings_differ :
    ValidatedAuthority.parse plainCharacters "[::1]" = some ⟨"[::1]", none⟩ ∧
    ValidatedAuthority.parse plainCharacters "[0:0:0:0:0:0:0:1]" = some ⟨"[::1]", none⟩ ∧
    (∃ os, Built (hostApp "[::1]").router os) ∧
    ((hostApp "[::1]").resolve "GET" "/" (some "[::1]")).map MatchedRoute.handler = .ok (.route ()) ∧
    ((hostApp "[::1]").resolve "GET" "/" (some "[0:0:0:0:0:0:0:1]")).map MatchedRoute.handler = .ok .notFound := by
  have hparse : HostPattern.parse "[::1]" = .ok (.exact "[::1]") := by decide +kernel
  refine ⟨by decide +kernel, by decide +kernel, hostApp_built _, ?_, ?_⟩
  · rw [hostApp_resolve hparse, if_pos (by decide +kernel)]
  · rw [hostApp_resolve hparse, if_neg (by decide +kernel)]

end RustRest
