import RustRest.Lib.FiniteMap
import RustRest.Lib.Search
import RustRest.Router.Lookup
import RustRest.Router.Render

/-!
# Generated URLs

`build_url` writes the segments of a pattern with the values of its parameters, each piece encoded for itself. A request
for the URL is split and decoded by other functions, which give the pieces back.

Main results: **`buildUrl_round_trip`**, **`buildUrl_accepted_iff`**.
-/

namespace RustRest

open SegTrie FiniteMap List

/-! ## Pieces -/

def urlValue (params : Params) (name : String) : String := (params.lookup name).getD ""

def urlPieces (params : Params) : Segment → List String
  | .static s => [s]
  | .param name => [urlValue params name]
  | .wildcard name => pathSegments (urlValue params name)

def urlPart (params : Params) : Segment → String
  | .static s => encodePathSegment s
  | .param name => encodePathSegment (urlValue params name)
  | .wildcard name => "/".intercalate ((pathSegments (urlValue params name)).map encodePathSegment)

theorem buildSegments_ok {params : Params} : ∀ {segments : List Segment} {out : List String},
    buildSegments params segments = .ok out → out = segments.map (urlPart params) ∧
      ∀ name, .param name ∈ segments → urlValue params name ≠ ""
  | [], out, h => by
    cases h
    exact ⟨rfl, fun name hname => absurd hname not_mem_nil⟩
  | .static s :: rest, out, h => by
    obtain ⟨out', hout, h⟩ := bind_eq_ok.1 h
    cases h
    obtain ⟨rfl, hvalues⟩ := buildSegments_ok hout
    exact ⟨rfl, fun name hname => hvalues name (by simpa using hname)⟩
  | .param name :: rest, out, h => by
    rw [buildSegments] at h
    split at h
    · exact nomatch h
    · next hne =>
      obtain ⟨out', hout, h⟩ := bind_eq_ok.1 h
      cases h
      obtain ⟨rfl, hvalues⟩ := buildSegments_ok hout
      refine ⟨rfl, fun name' hname => ?_⟩
      rcases mem_cons.1 hname with heq | hname
      · cases heq
        exact hne
      · exact hvalues name' hname
  | .wildcard name :: rest, out, h => by
    obtain ⟨out', hout, h⟩ := bind_eq_ok.1 h
    cases h
    obtain ⟨rfl, hvalues⟩ := buildSegments_ok hout
    exact ⟨rfl, fun name hname => hvalues name (by simpa using hname)⟩

/-- What a generated URL consists of. -/
structure Generated (pattern : RoutePattern) (params : List (String × String)) (url : String) : Prop where
  given : ∀ name, name ∈ pattern.parameterNames ↔ (collect params).lookup name ≠ none
  values : ∀ name, .param name ∈ pattern.segments → urlValue (collect params) name ≠ ""
  url : url = if pattern.segments.isEmpty then "/"
    else String.join ((pattern.segments.map (urlPart (collect params))).map ("/" ++ ·))

theorem generated_of_buildUrl {pattern : RoutePattern} {params : List (String × String)} {url : String}
    (h : buildUrl pattern params = .ok url) : Generated pattern params url := by
  unfold buildUrl at h
  dsimp only at h
  rw [show params.foldl (fun ps x => ps.insert x.1 x.2) ∅ = collect params from rfl] at h
  split at h
  · exact nomatch h
  next hmissing =>
  split at h
  · exact nomatch h
  next hunexpected =>
  have hgiven : ∀ name, name ∈ pattern.parameterNames ↔ (collect params).lookup name ≠ none := by
    intro name
    constructor
    · intro hname hnone
      exact absurd (List.find?_eq_none.1 hmissing name hname) (by simp [hnone])
    · intro hsome
      by_contra hname
      rw [lookup_collect, ne_eq, lastValue_eq_none, not_not] at hsome
      obtain ⟨x, hx, rfl⟩ := mem_map.1 hsome
      exact absurd (List.find?_eq_none.1 hunexpected x hx) (by simpa using hname)
  split at h
  · next hempty =>
    cases h
    refine ⟨hgiven, fun name hname => ?_, by rw [if_pos hempty]⟩
    rw [isEmpty_iff.1 hempty] at hname
    exact absurd hname not_mem_nil
  · next hempty =>
    obtain ⟨out, hout, h⟩ := bind_eq_ok.1 h
    cases h
    obtain ⟨rfl, hvalues⟩ := buildSegments_ok hout
    exact ⟨hgiven, hvalues, by rw [if_neg hempty]⟩

/-! ## Raw segments -/

theorem pathSegments_urlPart {params : Params} {segment : Segment}
    (hstatic : ∀ s, segment = .static s → s ≠ "") (hparam : ∀ name, segment = .param name → urlValue params name ≠ "") :
    pathSegments (urlPart params segment) = (urlPieces params segment).map encodePathSegment := by
  cases segment with
  | static s =>
    exact pathSegments_singleton (encodePathSegment_ne (hstatic s rfl)) (not_mem_encodePathSegment (.inl rfl))
  | param name =>
    exact pathSegments_singleton (encodePathSegment_ne (hparam name rfl)) (not_mem_encodePathSegment (.inl rfl))
  | wildcard name =>
    rw [urlPart, urlPieces, pathSegments_intercalate, flatMap_pathSegments]
    intro part hpart
    obtain ⟨piece, hpiece, rfl⟩ := mem_map.1 hpart
    exact ⟨encodePathSegment_ne (mem_pathSegments hpiece).1, not_mem_encodePathSegment (.inl rfl)⟩

section Url

variable {pattern : RoutePattern} {params : List (String × String)} {url : String}

def piecesOf (pattern : RoutePattern) (params : List (String × String)) : List String :=
  pattern.segments.flatMap (urlPieces (collect params))

theorem pathSegments_url (h : pattern.WellFormed) (hurl : Generated pattern params url) :
    pathSegments url = (piecesOf pattern params).map encodePathSegment := by
  rw [hurl.url]
  split
  · next hempty =>
    rw [piecesOf, isEmpty_iff.1 hempty]
    show pathSegments "/" = []
    decide +kernel
  · rw [pathSegments_join, flatMap_map, piecesOf, map_flatMap]
    refine flatMap_congr fun segment hsegment => pathSegments_urlPart ?_ ?_
    · rintro s rfl
      exact (h.statics s hsegment).1
    · rintro name rfl
      exact hurl.values name hsegment

/-! ## Decoding -/

def hasControl (s : String) : Bool := s.toList.any isControl

theorem mapM_decodePathSegment (pieces : List String) : (pieces.map encodePathSegment).mapM decodePathSegment =
    if pieces.any hasControl then .error .invalidPathEncoding else .ok pieces := by
  induction pieces with
  | nil => rfl
  | cons piece pieces ih =>
    rw [map_cons, mapM_cons, decodePathSegment_encode, ih, any_cons]
    change (if hasControl piece = true then _ else _) >>= _ = _
    cases hasControl piece with
    | true => rfl
    | false => cases pieces.any hasControl <;> rfl

/-- When a generated URL is decoded, and to what. -/
theorem decodePathSegments_url (h : pattern.WellFormed) (hurl : Generated pattern params url) :
    decodePathSegments url = if maxPathSegments < (piecesOf pattern params).length then .error .tooManySegments
      else if (piecesOf pattern params).any hasControl then .error .invalidPathEncoding
      else .ok (piecesOf pattern params) := by
  rw [decodePathSegments, pathSegments_url h hurl, length_map, mapM_decodePathSegment]

/-! ## Matching -/

def withoutEmptyPieces (value : String) : String := "/".intercalate (pathSegments value)

/-- What a segment captures of its pieces. -/
def capture (params : Params) (captured : Params) : Segment → Params
  | .static _ => captured
  | .param name => captured.insert name (urlValue params name)
  | .wildcard name => captured.insert name (withoutEmptyPieces (urlValue params name))

theorem matchSegments_pieces (params : Params) : ∀ {segments : List Segment},
    (∀ s ∈ segments.dropLast, s.isWildcard = false) → ∀ captured : Params,
    matchSegments segments (segments.flatMap (urlPieces params)) captured = some (segments.foldl (capture params) captured)
  | [], _, _ => rfl
  | .static s :: rest, hwild, captured => by
    have hrest := matchSegments_pieces params ((wildcard_last_cons _ _).1 hwild).2 captured
    rw [flatMap_cons, urlPieces, singleton_append, matchSegments, if_pos rfl, hrest]
    rfl
  | .param name :: rest, hwild, captured => by
    have hrest := matchSegments_pieces params ((wildcard_last_cons _ _).1 hwild).2
    rw [flatMap_cons, urlPieces, singleton_append, matchSegments, hrest]
    rfl
  | .wildcard name :: rest, hwild, captured => by
    rw [((wildcard_last_cons _ _).1 hwild).1 rfl, flatMap_cons, urlPieces, flatMap_nil, append_nil,
      matchSegments]
    rfl

theorem name_mem_paramNames {segments : List Segment} {name : String} (h : .wildcard name ∈ segments) :
    name ∈ paramNames segments :=
  mem_filterMap.2 ⟨_, h, rfl⟩

theorem lookup_foldl_capture (params : Params) (name : String) : ∀ {segments : List Segment},
    (paramNames segments).Nodup → ∀ captured : Params,
    (segments.foldl (capture params) captured).lookup name =
      if .wildcard name ∈ segments then some (withoutEmptyPieces (urlValue params name))
      else if name ∈ paramNames segments then some (urlValue params name)
      else captured.lookup name
  | [], _, _ => by simp
  | .static s :: rest, hnodup, captured => by
    rw [foldl_cons, capture, @lookup_foldl_capture params name rest hnodup]
    exact if_congr (by simp) rfl rfl
  | .param n :: rest, hnodup, captured | .wildcard n :: rest, hnodup, captured => by
    obtain ⟨hnot, hrest⟩ : n ∉ paramNames rest ∧ (paramNames rest).Nodup := nodup_cons.1 hnodup
    rw [foldl_cons, lookup_foldl_capture params name hrest, capture, lookup_insert_eq]
    by_cases heq : name = n
    · subst heq
      have hwild : .wildcard name ∉ rest := fun h => hnot (name_mem_paramNames h)
      simp [hwild, hnot]
    · simp [heq]

theorem matchDecodedPattern_url (h : pattern.WellFormed) (hurl : Generated pattern params url) :
    ∃ captured, matchDecodedPattern pattern.segments (piecesOf pattern params) = some captured ∧
      ∀ name, captured.lookup name = ((collect params).lookup name).map fun value =>
        if .wildcard name ∈ pattern.segments then withoutEmptyPieces value else value := by
  obtain ⟨hvalid, -, hpattern⟩ := validateSegments_ok.1 h.validated
  have hnames : pattern.parameterNames = paramNames pattern.segments := by rw [hpattern]; rfl
  refine ⟨_, matchSegments_pieces _ hvalid.wildcard_last ∅, fun name => ?_⟩
  rw [lookup_foldl_capture _ _ hvalid.names_nodup]
  have hgiven := hurl.given name
  rw [hnames] at hgiven
  cases hvalue : (collect params).lookup name with
  | none =>
    rw [hvalue] at hgiven
    have hnot : name ∉ paramNames pattern.segments := fun hname => hgiven.1 hname rfl
    rw [if_neg fun hwild => hnot (name_mem_paramNames hwild), if_neg hnot]
    rfl
  | some value =>
    have hname : name ∈ paramNames pattern.segments := hgiven.2 (by simp [hvalue])
    have heq : urlValue (collect params) name = value := by rw [urlValue, hvalue]; rfl
    rw [heq, if_pos hname, Option.map_some]
    split <;> rfl

/-! ## The first slash -/

theorem head?_encodePathSegment {s : String} : (encodePathSegment s).toList.head? ≠ some '/' := fun hhead =>
  not_mem_encodePathSegment (.inl rfl) (mem_of_head? hhead)

theorem urlPart_ok (segment : Segment) (values : Params) (hstatic : ∀ s, segment = .static s → s ≠ "")
    (hparam : ∀ name, segment = .param name → urlValue values name ≠ "") :
    (urlPart values segment).toList.head? ≠ some '/' ∧
      (urlPart values segment = "" → segment.isWildcard = true) := by
  cases segment with
  | static s => exact ⟨head?_encodePathSegment, fun hempty => absurd hempty (encodePathSegment_ne (hstatic s rfl))⟩
  | param name => exact ⟨head?_encodePathSegment, fun hempty => absurd hempty (encodePathSegment_ne (hparam name rfl))⟩
  | wildcard name =>
    refine ⟨?_, fun _ => rfl⟩
    rw [urlPart]
    cases hpieces : pathSegments (urlValue values name) with
    | nil => simp
    | cons piece pieces =>
      have hpiece : piece ≠ "" := (mem_pathSegments (hpieces ▸ mem_cons_self)).1
      have hencoded : (encodePathSegment piece).toList ≠ [] := fun hnil =>
        encodePathSegment_ne hpiece (String.toList_inj.1 hnil)
      rw [map_cons]
      cases pieces with
      | nil => simpa using head?_encodePathSegment
      | cons next pieces =>
        rw [map_cons, String.intercalate_cons_cons, String.toList_append, String.toList_append, append_assoc,
          List.head?_append_of_ne_nil _ hencoded]
        exact head?_encodePathSegment

theorem one_slash_url (h : pattern.WellFormed) (hurl : Generated pattern params url) :
    ∃ rest, url.toList = '/' :: rest ∧ rest.head? ≠ some '/' := by
  rw [hurl.url]
  cases hsegments : pattern.segments with
  | nil => exact ⟨[], by simp, by simp⟩
  | cons segment segments =>
    have hmem : segment ∈ pattern.segments := hsegments ▸ mem_cons_self
    obtain ⟨hhead, hempty⟩ := urlPart_ok segment (collect params)
      (fun s hs => (h.statics s (hs ▸ hmem)).1) (fun name hname => hurl.values name (hname ▸ hmem))
    refine ⟨(urlPart (collect params) segment).toList ++
      (String.join ((segments.map (urlPart (collect params))).map ("/" ++ ·))).toList, ?_, ?_⟩
    · simp [String.join_cons]
    · by_cases hpart : urlPart (collect params) segment = ""
      · -- an empty part is that of a wildcard, which is the last one
        have hwild := (validateSegments_ok.1 h.validated).1.wildcard_last
        rw [hsegments, wildcard_last_cons] at hwild
        rw [hpart, hwild.1 (hempty hpart)]
        simp
      · rw [List.head?_append_of_ne_nil _ fun hnil => hpart (String.toList_inj.1 hnil)]
        exact hhead

end Url

/-- **Generated URLs are matched.** The URL that `build_url` makes of a pattern and parameters begins with exactly one
slash, and if it is decoded, the pattern matches it and gives the parameters back, a wildcard value without its empty
pieces. -/
theorem buildUrl_round_trip {pattern : RoutePattern} (hparsed : Parsed pattern) {params : List (String × String)}
    {url : String} (h : buildUrl pattern params = .ok url) :
    (∃ rest, url.toList = '/' :: rest ∧ rest.head? ≠ some '/') ∧
      ∀ segments, decodePathSegments url = .ok segments →
        ∃ captured, matchDecodedPattern pattern.segments segments = some captured ∧
          ∀ name, captured.lookup name = ((collect params).lookup name).map fun value =>
            if .wildcard name ∈ pattern.segments then withoutEmptyPieces value else value := by
  have hpattern := hparsed.wellFormed
  have hurl := generated_of_buildUrl h
  refine ⟨one_slash_url hpattern hurl, fun segments hdecode => ?_⟩
  rw [decodePathSegments_url hpattern hurl] at hdecode
  split at hdecode
  · exact nomatch hdecode
  split at hdecode
  · exact nomatch hdecode
  cases hdecode
  exact matchDecodedPattern_url hpattern hurl

theorem buildUrl_round_trip_files :
    let pattern := RoutePattern.fromValidatedSegments [.static "a b", .param "id", .wildcard "rest"] ["id", "rest"]
    let params := [("rest", "/x//50%/"), ("id", "1/2")]
    let url := "/a%20b/1%2F2/x/50%25"
    (∃ rest, url.toList = '/' :: rest ∧ rest.head? ≠ some '/') ∧
      ∀ segments, decodePathSegments url = .ok segments →
        ∃ captured, matchDecodedPattern pattern.segments segments = some captured ∧
          ∀ name, captured.lookup name = ((collect params).lookup name).map fun value =>
            if .wildcard name ∈ pattern.segments then withoutEmptyPieces value else value := by
  intro pattern params url
  have hparse : RoutePattern.parse "/a%20b/:id/*rest" = .ok pattern := by decide +kernel
  exact buildUrl_round_trip (.parse hparse) (by decide +kernel)

/-! ## Acceptance -/

theorem mem_of_mem_pathSegments {path piece : String} (hpiece : piece ∈ pathSegments path) {c : Char}
    (hc : c ∈ piece.toList) : c ∈ path.toList := by
  obtain ⟨hmem, -⟩ := mem_filter.1 hpiece
  obtain ⟨part, hpart, rfl⟩ := mem_map.1 hmem
  rw [String.toList_ofList] at hc
  exact Search.mem_of_mem_splitOn hpart hc

theorem mem_pathSegments_of_mem {path : String} {c : Char} (hc : c ∈ path.toList) :
    c = '/' ∨ ∃ piece ∈ pathSegments path, c ∈ piece.toList := by
  refine (Search.mem_splitOn '/' hc).imp_right fun ⟨part, hpart, hmem⟩ => ⟨String.ofList part, ?_, by simpa using hmem⟩
  refine mem_filter.2 ⟨mem_map.2 ⟨part, hpart, rfl⟩, bne_iff_ne.2 fun hempty => ?_⟩
  rw [← String.toList_inj, String.toList_ofList] at hempty
  rw [hempty] at hmem
  exact absurd hmem not_mem_nil

theorem exists_control_iff {value : String} : (pathSegments value).any hasControl = true ↔ hasControl value = true := by
  rw [any_eq_true, hasControl, any_eq_true]
  constructor
  · rintro ⟨piece, hpiece, hcontrol⟩
    obtain ⟨c, hc, hcontrol⟩ := any_eq_true.1 hcontrol
    exact ⟨c, mem_of_mem_pathSegments hpiece hc, hcontrol⟩
  · rintro ⟨c, hc, hcontrol⟩
    obtain rfl | ⟨piece, hpiece, hmem⟩ := mem_pathSegments_of_mem hc
    · exact absurd hcontrol (by decide)
    · exact ⟨piece, hpiece, any_eq_true.2 ⟨c, hmem, hcontrol⟩⟩

def urlLength (pattern : RoutePattern) (params : List (String × String)) : ℕ :=
  (pattern.segments.map fun segment => match segment with
    | .wildcard name => (pathSegments (urlValue (collect params) name)).length
    | _ => 1).sum

theorem control_iff {pattern : RoutePattern} {params : List (String × String)} {url : String}
    (h : pattern.WellFormed) (hurl : Generated pattern params url) : (piecesOf pattern params).any hasControl = false ↔
      ∀ name value, (collect params).lookup name = some value → hasControl value = false := by
  obtain ⟨-, -, hpattern⟩ := validateSegments_ok.1 h.validated
  have hnames : pattern.parameterNames = paramNames pattern.segments := by rw [hpattern]; rfl
  have hvalue : ∀ {name value}, (collect params).lookup name = some value → urlValue (collect params) name = value := by
    intro name value hlookup
    rw [urlValue, hlookup]
    rfl
  constructor
  · intro hpieces name value hlookup
    have hmem : name ∈ pattern.parameterNames := (hurl.given name).2 (by simp [hlookup])
    rw [hnames] at hmem
    obtain ⟨segment, hsegment, hname⟩ := mem_filterMap.1 hmem
    have hclean : (urlPieces (collect params) segment).any hasControl = false := by
      rw [any_eq_false] at hpieces ⊢
      exact fun piece hpiece => hpieces piece (mem_flatMap.2 ⟨segment, hsegment, hpiece⟩)
    cases segment with
    | static s => exact nomatch hname
    | param n =>
      cases hname
      simpa [urlPieces, hvalue hlookup] using hclean
    | wildcard n =>
      cases hname
      rw [urlPieces, hvalue hlookup] at hclean
      exact Bool.eq_false_iff.2 fun hcontrol => Bool.false_ne_true (hclean ▸ exists_control_iff.2 hcontrol)
  · intro hvalues
    have hclean : ∀ name, hasControl (urlValue (collect params) name) = false := by
      intro name
      cases hlookup : (collect params).lookup name with
      | none =>
        rw [urlValue, hlookup]
        rfl
      | some value =>
        rw [hvalue hlookup]
        exact hvalues name value hlookup
    rw [any_eq_false]
    intro piece hpiece
    obtain ⟨segment, hsegment, hpiece⟩ := mem_flatMap.1 hpiece
    rw [Bool.not_eq_true]
    cases segment with
    | static s =>
      rw [mem_singleton.1 hpiece]
      exact (h.statics s hsegment).2
    | param n =>
      rw [mem_singleton.1 hpiece]
      exact hclean n
    | wildcard n =>
      have hall : (pathSegments (urlValue (collect params) n)).any hasControl = false :=
        Bool.eq_false_iff.2 fun hcontrol => Bool.false_ne_true (hclean n ▸ exists_control_iff.1 hcontrol)
      rw [← Bool.not_eq_true]
      exact any_eq_false.1 hall piece hpiece

/-- **When a generated URL is accepted.** The URL that `build_url` makes of a pattern and parameters is decoded by the
router exactly if no value has a control character and there are at most 256 segments. -/
theorem buildUrl_accepted_iff {pattern : RoutePattern} (hparsed : Parsed pattern) {params : List (String × String)}
    {url : String} (h : buildUrl pattern params = .ok url) :
    (∃ segments, decodePathSegments url = .ok segments) ↔
      (∀ name value, (collect params).lookup name = some value → hasControl value = false) ∧
        urlLength pattern params ≤ maxPathSegments := by
  have hpattern := hparsed.wellFormed
  have hurl := generated_of_buildUrl h
  have hlength : urlLength pattern params = (piecesOf pattern params).length := by
    rw [urlLength, piecesOf, length_flatMap]
    congr 2
    funext segment
    cases segment <;> rfl
  have hdecoded : (∃ segments, decodePathSegments url = .ok segments) ↔
      (piecesOf pattern params).length ≤ maxPathSegments ∧ (piecesOf pattern params).any hasControl = false := by
    rw [decodePathSegments_url hpattern hurl]
    split
    · next hlong => exact iff_of_false (fun ⟨_, h⟩ => nomatch h) fun h => Nat.not_le.2 hlong h.1
    · next hlong =>
      split
      · next hcontrol => exact iff_of_false (fun ⟨_, h⟩ => nomatch h) fun h => Bool.false_ne_true (h.2 ▸ hcontrol)
      · next hcontrol => exact iff_of_true ⟨_, rfl⟩ ⟨Nat.not_lt.1 hlong, Bool.eq_false_iff.2 hcontrol⟩
  rw [hdecoded, hlength, and_comm, control_iff hpattern hurl]

theorem buildUrl_accepted_iff_user :
    let pattern := RoutePattern.fromValidatedSegments [.static "users", .param "id"] ["id"]
    (∃ segments, decodePathSegments "/users/7" = .ok segments) ↔
      (∀ name value, (collect [("id", "7")]).lookup name = some value → hasControl value = false) ∧
        urlLength pattern [("id", "7")] ≤ maxPathSegments := by
  intro pattern
  have hparse : RoutePattern.parse "/users/:id" = .ok pattern := by decide +kernel
  exact buildUrl_accepted_iff (.parse hparse) (by decide +kernel)

/-- A line break in a value gives a URL that the router refuses. -/
theorem buildUrl_refused :
    let pattern := RoutePattern.fromValidatedSegments [.static "users", .param "id"] ["id"]
    RoutePattern.parse "/users/:id" = .ok pattern ∧
      buildUrl pattern [("id", "a\nb")] = .ok "/users/a%0Ab" ∧
      decodePathSegments "/users/a%0Ab" = .error .invalidPathEncoding := by
  decide +kernel

end RustRest
