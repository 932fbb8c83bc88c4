import RustRest.Response.Location

/-!
# Trailing slashes

`App::trailing_slash_miss` of `server.rs`. Under the policy `Redirect` a request path that ends with a slash is answered
with the path without it. Slashes are cut off at both ends, backslashes are replaced, and `redirect_with_status` encodes
the result.

Main result: **`redirect_location`**.
-/

namespace RustRest

open List

/-! ## The model -/

inductive TrailingSlash where
  | ignore
  | strict
  | redirect
  deriving Repr, DecidableEq

inductive SlashMiss where
  | notFound
  | redirect (location : String)
  deriving Repr, DecidableEq

/-- The path to which a request is redirected. -/
def locationPath (path : List Char) : List Char :=
  let canonicalPath := replaceBackslash (path.rdropWhile (· == '/'))
  if canonicalPath = [] then ['/']
  else if ['/', '/'].isPrefixOf canonicalPath then '/' :: canonicalPath.dropWhile (· == '/')
  else canonicalPath

def slashLocation (path : String) (rawQuery : Option String) : String :=
  String.ofList (locationPath path.toList) ++
    match rawQuery with
    | none => ""
    | some query => "?" ++ query

/-- What becomes of a path that ends in a slash. -/
def trailingSlashMiss (policy : TrailingSlash) (path : String) (rawQuery : Option String) : Option SlashMiss :=
  if (utf8 path).length ≤ 1 ∨ path.toList.getLast? ≠ some '/' then none
  else match policy with
    | .ignore => none
    | .strict => some .notFound
    | .redirect => some (.redirect (slashLocation path rawQuery))

def pathPart (reference : String) : String :=
  String.ofList (reference.toList.takeWhile fun c => c != '?' && c != '#')

/-! ## The path between the slashes -/

/-- A path without the slashes at both ends. -/
def trimSlashes (path : List Char) : List Char := (path.rdropWhile (· == '/')).dropWhile (· == '/')

theorem dropWhile_replaceBackslash (s : List Char) :
    (replaceBackslash s).dropWhile (· == '/') = replaceBackslash (s.dropWhile (· == '/')) := by
  induction s with
  | nil => rfl
  | cons c s ih =>
    by_cases hslash : c = '/'
    · subst hslash
      exact ih
    · have hhead : (replaceBackslash (c :: s)).dropWhile (· == '/') = replaceBackslash (c :: s) := by
        rw [replaceBackslash, flatMap_cons]
        by_cases hbackslash : c = '\\'
        · rw [if_pos hbackslash]
          rfl
        · rw [if_neg hbackslash]
          exact dropWhile_cons_of_neg (by simpa using hslash)
      rw [hhead, dropWhile_cons_of_neg (by simpa using hslash)]

theorem rdropWhile_cases {path : List Char} (h : path.head? = some '/') :
    path.rdropWhile (· == '/') = [] ∨ ∃ rest, path.rdropWhile (· == '/') = '/' :: rest := by
  obtain ⟨tail, htail⟩ := rdropWhile_prefix (· == '/') path
  cases hcut : path.rdropWhile (· == '/') with
  | nil => exact .inl rfl
  | cons c rest =>
    rw [hcut] at htail
    rw [← htail] at h
    cases h
    exact .inr ⟨rest, rfl⟩

/-- The path of the redirect. -/
theorem locationPath_eq {path : List Char} (h : path.head? = some '/') :
    locationPath path = '/' :: replaceBackslash (trimSlashes path) := by
  unfold locationPath trimSlashes
  obtain hcut | ⟨rest, hcut⟩ := rdropWhile_cases h
  · rw [hcut]
    rfl
  · rw [hcut, ← dropWhile_replaceBackslash]
    have hcons : replaceBackslash ('/' :: rest) = '/' :: replaceBackslash rest := rfl
    dsimp only
    rw [hcons, if_neg (cons_ne_nil _ _)]
    split
    · rfl
    · rename_i hone
      rw [dropWhile_cons_of_pos (by decide)]
      cases hrest : replaceBackslash rest with
      | nil => rfl
      | cons c more =>
        have hc : c ≠ '/' := by
          rintro rfl
          rw [hrest] at hone
          exact hone rfl
        rw [dropWhile_cons_of_neg (by simpa using hc)]

theorem head_trimSlashes (path : List Char) : (trimSlashes path).head? ≠ some '/' := by
  intro h
  have hnot := List.head?_dropWhile_not (· == '/') (path.rdropWhile (· == '/'))
  rw [trimSlashes] at h
  rw [h] at hnot
  cases hnot

theorem getLast_trimSlashes (path : List Char) : (trimSlashes path).getLast? ≠ some '/' := by
  intro h
  have hne : trimSlashes path ≠ [] := by
    intro hnil
    rw [hnil] at h
    cases h
  -- the last character is the last one before the slashes at the end
  have hlast : (path.rdropWhile (· == '/')).getLast? = some '/' := by
    have hsplit : (path.rdropWhile (· == '/')).takeWhile (· == '/') ++ trimSlashes path = path.rdropWhile (· == '/') :=
      takeWhile_append_dropWhile
    rw [← hsplit, List.getLast?_append_of_ne_nil _ hne]
    exact h
  have hcut : path.rdropWhile (· == '/') ≠ [] := fun hnil => by rw [hnil] at hlast; cases hlast
  rw [List.getLast?_eq_some_getLast hcut] at hlast
  exact rdropWhile_last_not (· == '/') path hcut (by rw [Option.some.inj hlast]; rfl)

theorem mem_of_mem_trimSlashes {c : Char} {path : List Char} (h : c ∈ trimSlashes path) : c ∈ path :=
  ( rdropWhile_prefix _ _).subset ((dropWhile_suffix _).subset h)

theorem pathSegments_dropWhile (s : List Char) :
    pathSegments (String.ofList (s.dropWhile (· == '/'))) = pathSegments (String.ofList s) := by
  induction s with
  | nil => rfl
  | cons c s ih =>
    by_cases hslash : c = '/'
    · subst hslash
      have hcons : String.ofList ('/' :: s) = "/" ++ String.ofList s := String.ofList_cons
      rw [dropWhile_cons_of_pos (by decide), ih, hcons, pathSegments_slash]
    · rw [dropWhile_cons_of_neg (by simpa using hslash)]

theorem pathSegments_rdropWhile (s : List Char) :
    pathSegments (String.ofList (s.rdropWhile (· == '/'))) = pathSegments (String.ofList s) := by
  induction s using List.reverseRecOn with
  | nil => rfl
  | append_singleton s c ih =>
    by_cases hslash : c = '/'
    · subst hslash
      rw [rdropWhile_concat_pos _ _ _ (by decide), ih, String.ofList_append, pathSegments_append (by simp)]
      exact (append_nil _).symm
    · rw [rdropWhile_concat_neg _ _ _ (by simpa using hslash)]

theorem pathSegments_trimSlashes (path : String) :
    pathSegments (String.ofList (trimSlashes path.toList)) = pathSegments path := by
  rw [trimSlashes, pathSegments_dropWhile, pathSegments_rdropWhile, String.ofList_toList]

/-! ## The redirect -/

/-- The encoded path of the redirect. -/
def slashTarget (path : String) : String := "/" ++ encodeLocation (String.ofList (trimSlashes path.toList))

theorem encodeLocation_locationPath {path : String} (h : path.toList.head? = some '/') :
    encodeLocation (String.ofList (locationPath path.toList)) = slashTarget path := by
  have hcons : ∀ s : List Char, String.ofList ('/' :: s) = "/" ++ String.ofList s := fun _ => String.ofList_cons
  rw [locationPath_eq h, hcons, encodeLocation_slash, encodeLocation_replaceBackslash]
  rfl

theorem not_mem_slashTarget {path : String} {c : Char} (hc : c = '?' ∨ c = '#') (h : c ∉ path.toList) :
    c ∉ (slashTarget path).toList := by
  intro hmem
  rw [slashTarget, String.toList_append] at hmem
  rcases mem_append.1 hmem with hmem | hmem
  · rcases hc with rfl | rfl
    · exact absurd hmem (by decide)
    · exact absurd hmem (by decide)
  · have hcore := (mem_encodeLocation hmem).2.2 (.inr hc)
    rw [String.toList_ofList] at hcore
    exact h (mem_of_mem_trimSlashes hcore)

/-- The path of the `Location` value, with any query. -/
theorem pathPart_location {path : String} (rawQuery : Option String) (hslash : path.toList.head? = some '/')
    (hquery : '?' ∉ path.toList) (hfragment : '#' ∉ path.toList) :
    pathPart (encodeLocation (slashLocation path rawQuery)) = slashTarget path := by
  have hall : ∀ c ∈ (slashTarget path).toList, (c != '?' && c != '#') = true := by
    intro c hc
    rw [Bool.and_eq_true, bne_iff_ne, bne_iff_ne]
    exact ⟨fun heq => not_mem_slashTarget (.inl rfl) hquery (heq ▸ hc),
      fun heq => not_mem_slashTarget (.inr rfl) hfragment (heq ▸ hc)⟩
  cases rawQuery with
  | none =>
    rw [slashLocation, String.append_empty, encodeLocation_locationPath hslash, pathPart,
      takeWhile_eq_self_iff.2 hall, String.ofList_toList]
  | some query =>
    -- the query begins with its mark
    have hstop : ("?" ++ encodeLocation query).toList.takeWhile (fun c => c != '?' && c != '#') = [] := by
      rw [String.toList_append]
      rfl
    rw [slashLocation, encodeLocation_append_mark, encodeLocation_locationPath hslash, pathPart, String.toList_append,
      takeWhile_append_of_pos hall, hstop, append_nil, String.ofList_toList]

theorem trailingSlashMiss_slashTarget (path : String) (rawQuery : Option String) :
    trailingSlashMiss .redirect (slashTarget path) rawQuery = none := by
  refine if_pos ?_
  by_cases hcore : trimSlashes path.toList = []
  · rw [slashTarget, hcore]
    exact .inl (by decide)
  · refine .inr fun hlast => ?_
    have hne : encodeLocation (String.ofList (trimSlashes path.toList)) ≠ "" := by
      refine encodeLocation_ne fun hempty => hcore ?_
      simpa using congrArg String.toList hempty
    rw [slashTarget, String.toList_append,
      List.getLast?_append_of_ne_nil _ (fun hnil => hne (String.toList_inj.1 hnil))] at hlast
    have hslash := getLast_encodeLocation hlast
    rw [String.toList_ofList] at hslash
    exact getLast_trimSlashes _ hslash

theorem decodePathSegments_congr {path path' : String} (h : pathSegments path = pathSegments path') :
    decodePathSegments path = decodePathSegments path' := by
  rw [decodePathSegments, decodePathSegments, h]

/-- **The redirect of a trailing slash** stays on this host, is not redirected again, and has the segments of the request
path. -/
theorem redirect_location {Stream : Type} {path location : String} {rawQuery : Option String}
    (hslash : path.toList.head? = some '/') (hquery : '?' ∉ path.toList) (hfragment : '#' ∉ path.toList)
    (h : trailingSlashMiss .redirect path rawQuery = some (.redirect location)) :
    ∃ value : String,
      ((Response.redirectWithStatus location 308 : Response Stream).headers.get .location).bind HeaderValue.toStr =
        some value.toList ∧
      (∃ rest, (pathPart value).toList = '/' :: rest ∧ rest.head? ≠ some '/' ∧ rest.head? ≠ some '\\') ∧
      (∀ rawQuery', trailingSlashMiss .redirect (pathPart value) rawQuery' = none) ∧
      (∀ segments, decodePathSegments path = .ok segments → decodePathSegments (pathPart value) = .ok segments) := by
  have hlocation : location = slashLocation path rawQuery := by
    unfold trailingSlashMiss at h
    split at h
    · cases h
    · exact (SlashMiss.redirect.inj (Option.some.inj h)).symm
  subst hlocation
  refine ⟨encodeLocation (slashLocation path rawQuery), (location_redirect _ (by decide)).2.2, ?_⟩
  rw [pathPart_location rawQuery hslash hquery hfragment]
  refine ⟨⟨(encodeLocation (String.ofList (trimSlashes path.toList))).toList, ?_, ?_, ?_⟩, ?_, ?_⟩
  · rw [slashTarget, String.toList_append]
    rfl
  · intro hhead
    have hcore := head_encodeLocation hhead
    rw [String.toList_ofList] at hcore
    exact head_trimSlashes _ hcore
  · intro hhead
    exact (mem_encodeLocation (mem_of_mem_head? hhead)).2.1 rfl
  · exact fun rawQuery' => trailingSlashMiss_slashTarget path rawQuery'
  · intro segments hsegments
    rw [decodePathSegments_congr (pathSegments_trimSlashes path).symm] at hsegments
    rw [slashTarget, decodePathSegments_congr (pathSegments_slash _)]
    exact decodePathSegments_encodeLocation hsegments

/-- A path that a browser could read as another host, with a query. -/
theorem redirect_location_backslash :
    trailingSlashMiss .redirect "//\\evil.example/a/" (some "q=1") = some (.redirect "/%5Cevil.example/a?q=1") ∧
      ∃ value : String,
        ((Response.redirectWithStatus "/%5Cevil.example/a?q=1" 308 : Response Unit).headers.get .location).bind
          HeaderValue.toStr = some value.toList ∧
        decodePathSegments (pathPart value) = .ok ["\\evil.example", "a"] := by
  have hmiss : trailingSlashMiss .redirect "//\\evil.example/a/" (some "q=1") =
      some (.redirect "/%5Cevil.example/a?q=1") := by decide +kernel
  obtain ⟨value, hvalue, -, -, hsegments⟩ :=
    @redirect_location Unit _ _ _ (by decide +kernel) (by decide +kernel) (by decide +kernel) hmiss
  exact ⟨hmiss, value, hvalue, hsegments _ (by decide +kernel)⟩

end RustRest
