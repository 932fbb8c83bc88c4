import RustRest.Text
import RustRest.Lib.SegPattern

/-!
# Route patterns

`RoutePattern` and the functions around it: parsing and joining patterns at registration, decoding the segments of a
request path, and matching the one against the other.
-/

namespace RustRest

open SegTrie List

/-- `METHOD_ALL`, the method under which `all()` routes are registered. -/
def methodAll : String := "*"

def maxPathSegments : Nat := 256

/-- A literal, a parameter or a wildcard. -/
abbrev Segment := Seg String String

/-- `ConflictSegment`, a segment without the name of its placeholder. -/
abbrev ConflictSegment := Seg String Unit

/-! ## Errors -/

inductive RouteErrorKind where
  | missingLeadingSlash
  | emptyParameter
  | invalidParameter
  | duplicateParameter
  | nonTerminalWildcard
  | tooManySegments
  | duplicateRoute
  | conflictingPattern
  | duplicateName
  | invalidHostPattern
  | missingUrlParameter
  | unexpectedUrlParameter
  | invalidPercentEncoding
  | invalidStaticRoot
  | invalidStaticOptions
  | unsupportedMethod
  deriving DecidableEq, Repr

/-- `RouteError`. -/
structure RouteError where
  kind : RouteErrorKind
  message : String
  deriving DecidableEq, Repr

inductive RouteMatchErrorKind where
  | invalidPathEncoding
  | tooManySegments
  deriving DecidableEq, Repr

/-- `RouteMatchError`. -/
structure RouteMatchError where
  kind : RouteMatchErrorKind
  message : String
  deriving DecidableEq, Repr

def RouteMatchError.invalidPathEncoding : RouteMatchError :=
  ⟨.invalidPathEncoding, "La ruta contiene codificacion porcentual invalida"⟩

def RouteMatchError.tooManySegments : RouteMatchError :=
  ⟨.tooManySegments, "La ruta no puede contener mas de " ++ toString maxPathSegments ++ " segmentos"⟩

/-! ## Patterns at registration -/

/-- The text of a pattern. -/
def renderPattern (pattern : List Segment) : String :=
  if pattern.isEmpty then "/"
  else String.join (pattern.map (fun segment => "/" ++ match segment with
    | .static s => encodePathSegment s
    | .param name => ":" ++ name
    | .wildcard name => "*" ++ name))

/-- A checked pattern, its text and its shape. -/
structure RoutePattern where
  rendered : String
  segments : List Segment
  parameterNames : List String
  conflictKey : List ConflictSegment
  deriving DecidableEq, Repr

/-- A pattern of checked segments, with its text. -/
def RoutePattern.fromValidatedSegments (segments : List Segment) (parameterNames : List String) : RoutePattern where
  rendered := renderPattern segments
  segments := segments
  parameterNames := parameterNames
  conflictKey := segments.map Seg.shape

/-- `validate_parameter_name`. The names seen so far are the parameter names collected so far, so one list stands for
both; the result is that list with the new name. -/
def validateParameterName (name : String) (parameterNames : List String) : Except RouteError (List String) :=
  if name = "" then
    .error ⟨.emptyParameter, "Los parametros de ruta no pueden estar vacios"⟩
  else if !name.toList.all (fun c => c.isAlphanum || c == '_' || c == '-') then
    .error ⟨.invalidParameter, "Nombre de parametro de ruta no valido: " ++ name⟩
  else if name ∈ parameterNames then
    .error ⟨.duplicateParameter, "Parametro duplicado: " ++ name⟩
  else .ok (parameterNames ++ [name])

def nonTerminalWildcard : RouteError :=
  ⟨.nonTerminalWildcard, "Los comodines solo pueden aparecer al final de la ruta"⟩

def patternTooLong : RouteError :=
  ⟨.tooManySegments, "Las rutas no pueden contener mas de " ++ toString maxPathSegments ++ " segmentos"⟩

/-- A literal segment is registered decoded. -/
def decodeRouteStaticSegment (raw : String) : Except RouteError String :=
  if !percentTriplets (utf8 raw) then
    .error ⟨.invalidPercentEncoding, "El patron de ruta contiene codificacion porcentual invalida"⟩
  else match fromUtf8 (percentDecode (utf8 raw)) with
    | none => .error ⟨.invalidPercentEncoding, "El patron de ruta contiene UTF-8 porcentual no valido"⟩
    | some decoded =>
      if decoded.toList.any isControl then
        .error ⟨.invalidPercentEncoding, "El patron de ruta contiene caracteres de control"⟩
      else .ok decoded

def parseSegments : List String → List String → Except RouteError (List Segment × List String)
  | [], names => .ok ([], names)
  | raw :: raws, names =>
    match raw.toList with
    | ':' :: name => do
      let names ← validateParameterName (String.ofList name) names
      let (segments, names) ← parseSegments raws names
      .ok (.param (String.ofList name) :: segments, names)
    | '*' :: name =>
      if !raws.isEmpty then .error nonTerminalWildcard
      else do
        let names ← validateParameterName (String.ofList name) names
        let (segments, names) ← parseSegments raws names
        .ok (.wildcard (String.ofList name) :: segments, names)
    | _ => do
      let value ← decodeRouteStaticSegment raw
      let (segments, names) ← parseSegments raws names
      .ok (.static value :: segments, names)

/-- `RoutePattern::parse`, segment by segment. -/
def RoutePattern.parse (path : String) : Except RouteError RoutePattern :=
  match path.toList with
  | '/' :: _ =>
    if maxPathSegments < (pathSegments path).length then .error patternTooLong
    else do
      let (segments, parameterNames) ← parseSegments (pathSegments path) []
      .ok (.fromValidatedSegments segments parameterNames)
  | _ => .error ⟨.missingLeadingSlash, "Las rutas deben empezar con /"⟩

/-- The loop of `validate_segments`. -/
def validateNames : List Segment → List String → Except RouteError (List String)
  | [], names => .ok names
  | .param name :: rest, names => do
    let names ← validateParameterName name names
    validateNames rest names
  | .wildcard name :: rest, names =>
    if !rest.isEmpty then .error nonTerminalWildcard
    else do
      let names ← validateParameterName name names
      validateNames rest names
  | .static _ :: rest, names => validateNames rest names

/-- At most 256, with distinct parameter names. -/
def validateSegments (segments : List Segment) : Except RouteError RoutePattern :=
  if maxPathSegments < segments.length then .error patternTooLong
  else do
    let parameterNames ← validateNames segments []
    .ok (.fromValidatedSegments segments parameterNames)

/-- The pattern of a mounted route. -/
def RoutePattern.join (pre suf : RoutePattern) : Except RouteError RoutePattern :=
  validateSegments (pre.segments ++ suf.segments)

/-! ## Request paths -/

/-- Percent escapes, which must be UTF-8 without controls. -/
def decodePathSegment (segment : String) : Except RouteMatchError String :=
  if !percentTriplets (utf8 segment) then .error .invalidPathEncoding
  else match fromUtf8 (percentDecode (utf8 segment)) with
    | none => .error .invalidPathEncoding
    | some decoded => if decoded.toList.any isControl then .error .invalidPathEncoding else .ok decoded

/-- `decode_path_segments`: the decoded segments, up to the limit. -/
def decodePathSegments (path : String) : Except RouteMatchError (List String) :=
  if maxPathSegments < (pathSegments path).length then .error .tooManySegments
  else (pathSegments path).mapM decodePathSegment

abbrev Params := Finmap (fun _ : String => String)

def matchSegments : List Segment → List String → Params → Option Params
  | [], segments, params => if segments.isEmpty then some params else none
  | .wildcard name :: rest, segments, params =>
    if !rest.isEmpty then none else some (params.insert name ("/".intercalate segments))
  | _ :: _, [], _ => none
  | .static s :: rest, actual :: segments, params => if s = actual then matchSegments rest segments params else none
  | .param name :: rest, actual :: segments, params => matchSegments rest segments (params.insert name actual)

/-- `match_decoded_pattern`: the captures, if the pattern fits. -/
def matchDecodedPattern (pattern : List Segment) (segments : List String) : Option Params :=
  matchSegments pattern segments ∅

/-! ## What registration accepts -/

/-- The parameter names of a pattern, in order. -/
def paramNames (segments : List Segment) : List String := segments.filterMap Seg.name?

/-- A pattern that registration accepts. -/
structure ValidSegments (segments : List Segment) : Prop where
  length_le : segments.length ≤ maxPathSegments
  wildcard_last : ∀ s ∈ segments.dropLast, s.isWildcard = false
  names_nodup : (paramNames segments).Nodup

def NameOk (name : String) : Prop :=
  name ≠ "" ∧ name.toList.all (fun c => c.isAlphanum || c == '_' || c == '-') = true

theorem validateParameterName_ok {name : String} {names names' : List String} :
    validateParameterName name names = .ok names' ↔ NameOk name ∧ name ∉ names ∧ names' = names ++ [name] := by
  unfold validateParameterName NameOk
  by_cases h1 : name = ""
  · simp [h1]
  · by_cases h2 : name.toList.all (fun c => c.isAlphanum || c == '_' || c == '-') = true
    · by_cases h3 : name ∈ names
      · simp [h1, h2, h3]
      · simp only [h1, h2, h3, Bool.not_true, Bool.false_eq_true, if_false, not_false_eq_true, true_and, ne_eq,
          Except.ok.injEq]
        exact eq_comm
    · simp [h1, h2]

@[simp] theorem paramNames_nil : paramNames [] = [] := rfl

@[simp] theorem paramNames_static (v : String) (p : List Segment) : paramNames (.static v :: p) = paramNames p := rfl

@[simp] theorem paramNames_param (n : String) (p : List Segment) : paramNames (.param n :: p) = n :: paramNames p := rfl

@[simp] theorem paramNames_wildcard (n : String) (p : List Segment) :
    paramNames (.wildcard n :: p) = n :: paramNames p := rfl

theorem paramNames_append (p q : List Segment) : paramNames (p ++ q) = paramNames p ++ paramNames q :=
  filterMap_append

theorem wildcard_last_cons (a : Segment) (p : List Segment) : (∀ s ∈ (a :: p).dropLast, s.isWildcard = false) ↔
    (a.isWildcard = true → p = []) ∧ ∀ s ∈ p.dropLast, s.isWildcard = false := by
  cases p with
  | nil => simp
  | cons b p =>
    rw [dropLast_cons_of_ne_nil (by simp)]
    cases ha : a.isWildcard <;> simp [ha]

theorem bind_validateName {name : String} {names names' : List String} {rest : List Segment}
    (ih : ∀ ns, validateNames rest ns = .ok names' ↔ (∀ s ∈ rest.dropLast, s.isWildcard = false) ∧
      (∀ n ∈ paramNames rest, NameOk n ∧ n ∉ ns) ∧ (paramNames rest).Nodup ∧ names' = ns ++ paramNames rest) :
    (validateParameterName name names >>= validateNames rest) = .ok names' ↔
      (∀ s ∈ rest.dropLast, s.isWildcard = false) ∧ (∀ n ∈ name :: paramNames rest, NameOk n ∧ n ∉ names) ∧
      (name :: paramNames rest).Nodup ∧ names' = names ++ name :: paramNames rest := by
  simp only [bind_eq_ok, validateParameterName_ok, ih]
  constructor
  · rintro ⟨_, ⟨hok, hnew, rfl⟩, hw, hns, hnd, rfl⟩
    refine ⟨hw, ?_, ?_, by simp⟩
    · intro n hn
      rcases mem_cons.1 hn with rfl | hn
      · exact ⟨hok, hnew⟩
      · exact ⟨(hns n hn).1, fun h => (hns n hn).2 (mem_append_left _ h)⟩
    · exact nodup_cons.2 ⟨fun h => (hns name h).2 (by simp), hnd⟩
  · rintro ⟨hw, hns, hnd, rfl⟩
    rw [nodup_cons] at hnd
    obtain ⟨hok, hnew⟩ := hns name mem_cons_self
    refine ⟨_, ⟨hok, hnew, rfl⟩, hw, ?_, hnd.2, by simp⟩
    intro n hn
    refine ⟨(hns n (mem_cons_of_mem _ hn)).1, fun h => ?_⟩
    rcases mem_append.1 h with h | h
    · exact (hns n (mem_cons_of_mem _ hn)).2 h
    · rw [mem_singleton.1 h] at hn; exact hnd.1 hn

theorem validateNames_ok : ∀ {segments : List Segment} {names names' : List String},
    validateNames segments names = .ok names' ↔ (∀ s ∈ segments.dropLast, s.isWildcard = false) ∧
      (∀ n ∈ paramNames segments, NameOk n ∧ n ∉ names) ∧ (paramNames segments).Nodup ∧
      names' = names ++ paramNames segments
  | [], names, names' => by
    simp only [validateNames, Except.ok.injEq, paramNames_nil, append_nil, dropLast_nil, not_mem_nil,
      false_imp_iff, implies_true, nodup_nil, true_and]
    exact eq_comm
  | .static v :: rest, names, names' => by
    rw [validateNames, validateNames_ok, wildcard_last_cons]
    simp [Seg.isWildcard]
  | .param n :: rest, names, names' => by
    rw [validateNames, wildcard_last_cons]
    simpa [Seg.isWildcard] using bind_validateName (fun _ => validateNames_ok)
  | .wildcard n :: rest, names, names' => by
    rw [validateNames, wildcard_last_cons]
    cases rest with
    | nil =>
      have hstep : (validateParameterName n names >>= validateNames []) = .ok names' ↔ _ :=
        bind_validateName (fun _ => validateNames_ok)
      simpa [Seg.isWildcard] using hstep
    | cons s rest => simp [Seg.isWildcard]

theorem validateSegments_ok {segments : List Segment} {pattern : RoutePattern} :
    validateSegments segments = .ok pattern ↔ ValidSegments segments ∧ (∀ n ∈ paramNames segments, NameOk n) ∧
      pattern = .fromValidatedSegments segments (paramNames segments) := by
  unfold validateSegments
  by_cases hl : maxPathSegments < segments.length
  · rw [if_pos hl]
    constructor
    · intro h; cases h
    · rintro ⟨hv, _⟩; have := hv.length_le; omega
  · rw [if_neg hl]
    simp only [bind_eq_ok, validateNames_ok, not_mem_nil, not_false_eq_true, and_true, nil_append,
      Except.ok.injEq]
    constructor
    · rintro ⟨_, ⟨hw, hn, hd, rfl⟩, rfl⟩
      exact ⟨⟨by omega, hw, hd⟩, hn, rfl⟩
    · rintro ⟨hv, hn, rfl⟩
      exact ⟨_, ⟨hv.wildcard_last, hn, hv.names_nodup, rfl⟩, rfl⟩

def segmentOf (raw : String) : Except RouteError Segment :=
  match raw.toList with
  | ':' :: name => .ok (.param (String.ofList name))
  | '*' :: name => .ok (.wildcard (String.ofList name))
  | _ => decodeRouteStaticSegment raw >>= fun value => .ok (.static value)

theorem parseSegments_ok : ∀ {raws names : List String} {segments : List Segment} {names' : List String},
    parseSegments raws names = .ok (segments, names') ↔
      raws.mapM segmentOf = .ok segments ∧ validateNames segments names = .ok names'
  | [], names, segments, names' => by
    simp only [parseSegments, mapM_nil, Except.ok.injEq, Prod.mk.injEq]
    constructor
    · rintro ⟨rfl, rfl⟩; exact ⟨rfl, rfl⟩
    · rintro ⟨h, h'⟩
      cases h
      cases h'
      exact ⟨rfl, rfl⟩
  | raw :: raws, names, segments, names' => by
    have ih := @parseSegments_ok raws
    have hmap : (raw :: raws).mapM segmentOf = .ok segments ↔
        ∃ s ss, segmentOf raw = .ok s ∧ raws.mapM segmentOf = .ok ss ∧ segments = s :: ss := by
      rw [mapM_cons]
      simp only [bind_eq_ok]
      constructor
      · rintro ⟨s, hs, ss, hss, h⟩; cases h; exact ⟨s, ss, hs, hss, rfl⟩
      · rintro ⟨s, ss, hs, hss, rfl⟩; exact ⟨s, hs, ss, hss, rfl⟩
    rw [hmap, parseSegments]
    split
    · rename_i name hraw
      have hs : segmentOf raw = .ok (.param (String.ofList name)) := by simp [segmentOf, hraw]
      simp only [hs, bind_eq_ok]
      constructor
      · rintro ⟨ns, hns, ⟨ss, ns'⟩, hp, h⟩
        cases h
        obtain ⟨hss, hv⟩ := ih.1 hp
        exact ⟨⟨_, ss, rfl, hss, rfl⟩, bind_eq_ok.2 ⟨ns, hns, hv⟩⟩
      · rintro ⟨⟨s, ss, h, hss, rfl⟩, hv⟩
        cases h
        obtain ⟨ns, hns, hv⟩ := bind_eq_ok.1 hv
        exact ⟨ns, hns, (ss, names'), ih.2 ⟨hss, hv⟩, rfl⟩
    · rename_i name hraw
      have hs : segmentOf raw = .ok (.wildcard (String.ofList name)) := by simp [segmentOf, hraw]
      simp only [hs]
      cases raws with
      | nil =>
        simp only [isEmpty_nil, Bool.not_true, Bool.false_eq_true, if_false, bind_eq_ok]
        constructor
        · rintro ⟨ns, hns, ⟨ss, ns'⟩, hp, h⟩
          cases h
          cases hp
          exact ⟨⟨_, [], rfl, rfl, rfl⟩, bind_eq_ok.2 ⟨_, hns, rfl⟩⟩
        · rintro ⟨⟨s, ss, h, hss, rfl⟩, hv⟩
          cases h
          cases hss
          obtain ⟨ns, hns, hv⟩ := bind_eq_ok.1 hv
          cases hv
          exact ⟨_, hns, ([], _), rfl, rfl⟩
      | cons r raws =>
        simp only [isEmpty_cons, Bool.not_false, if_true]
        constructor
        · intro h; cases h
        · rintro ⟨⟨s, ss, h, hss, rfl⟩, hv⟩
          cases h
          -- a wildcard that is followed by a raw segment is followed by a segment
          cases ss with
          | nil =>
            rw [mapM_cons] at hss
            obtain ⟨_, _, h⟩ := bind_eq_ok.1 hss
            obtain ⟨_, _, h⟩ := bind_eq_ok.1 h
            cases h
          | cons t ss => cases hv
    · rename_i h1 h2
      have hs : segmentOf raw = (decodeRouteStaticSegment raw >>= fun value => .ok (.static value)) := by
        unfold segmentOf
        split
        · rename_i name hraw; exact absurd hraw (h1 name)
        · rename_i name hraw; exact absurd hraw (h2 name)
        · rfl
      simp only [hs, bind_eq_ok]
      constructor
      · rintro ⟨v, hd, ⟨ss, ns'⟩, hp, h⟩
        cases h
        obtain ⟨hss, hv⟩ := ih.1 hp
        exact ⟨⟨_, ss, ⟨v, hd, rfl⟩, hss, rfl⟩, hv⟩
      · rintro ⟨⟨s, ss, ⟨v, hd, h⟩, hss, rfl⟩, hv⟩
        cases h
        exact ⟨v, hd, (ss, names'), ih.2 ⟨hss, hv⟩, rfl⟩

theorem length_of_mapM_ok {ε α β : Type} {f : α → Except ε β} : ∀ {l : List α} {m : List β}, l.mapM f = .ok m →
    m.length = l.length
  | [], m, h => by cases h; rfl
  | a :: l, m, h => by
    rw [mapM_cons] at h
    obtain ⟨b, _, h⟩ := bind_eq_ok.1 h
    obtain ⟨bs, hbs, h⟩ := bind_eq_ok.1 h
    cases h
    simp [length_of_mapM_ok hbs]

theorem parse_ok {path : String} {pattern : RoutePattern} : RoutePattern.parse path = .ok pattern ↔
    path.toList.head? = some '/' ∧ ∃ segments, (pathSegments path).mapM segmentOf = .ok segments ∧
      validateSegments segments = .ok pattern := by
  unfold RoutePattern.parse validateSegments
  split
  · rename_i rest hpath
    simp only [hpath, List.head?_cons, true_and]
    by_cases hl : maxPathSegments < (pathSegments path).length
    · simp only [if_pos hl]
      constructor
      · intro h; cases h
      · rintro ⟨segments, hm, h⟩
        rw [← length_of_mapM_ok hm] at hl
        rw [if_pos hl] at h
        cases h
    · simp only [if_neg hl, bind_eq_ok]
      constructor
      · rintro ⟨⟨segments, names⟩, hp, h⟩
        obtain ⟨hm, hv⟩ := parseSegments_ok.1 hp
        refine ⟨segments, hm, ?_⟩
        rw [length_of_mapM_ok hm, if_neg hl]
        exact bind_eq_ok.2 ⟨names, hv, h⟩
      · rintro ⟨segments, hm, h⟩
        rw [length_of_mapM_ok hm, if_neg hl] at h
        obtain ⟨names, hv, h⟩ := bind_eq_ok.1 h
        exact ⟨(segments, names), parseSegments_ok.2 ⟨hm, hv⟩, h⟩
  · rename_i hpath
    constructor
    · intro h; cases h
    · rintro ⟨hh, _⟩
      cases hl : path.toList with
      | nil => rw [hl] at hh; cases hh
      | cons c rest => rw [hl] at hh; cases hh; exact absurd hl (hpath rest)

theorem parse_valid {path : String} {pattern : RoutePattern} (h : RoutePattern.parse path = .ok pattern) :
    ValidSegments pattern.segments ∧
      pattern = .fromValidatedSegments pattern.segments (paramNames pattern.segments) := by
  obtain ⟨_, segments, _, hv⟩ := parse_ok.1 h
  obtain ⟨hvalid, _, rfl⟩ := validateSegments_ok.1 hv
  exact ⟨hvalid, rfl⟩

/-! ## Matching -/

theorem matchSegments_isSome : ∀ (p : List Segment) (segs : List String) (params : Params),
    (matchSegments p segs params).isSome = Fits p segs
  | [], segs, params => by cases segs <;> rfl
  | .wildcard n :: p, segs, params => by cases p <;> simp [matchSegments]
  | .static s :: p, [], params | .param s :: p, [], params => rfl
  | .static s :: p, a :: segs, params => by
    by_cases h : s = a
    · simp [matchSegments, h, matchSegments_isSome p segs params]
    · simp [matchSegments, h]
  | .param n :: p, a :: segs, params => by
    simp only [matchSegments, fits_param_cons]
    exact matchSegments_isSome p segs _

/-- A pattern captures parameters exactly when it fits. -/
theorem matchDecodedPattern_isSome (p : List Segment) (segs : List String) :
    (matchDecodedPattern p segs).isSome = Fits p segs := matchSegments_isSome p segs ∅

theorem matchDecodedPattern_eq_none {p : List Segment} {segs : List String} :
    matchDecodedPattern p segs = none ↔ Fits p segs = false := by
  rw [← matchDecodedPattern_isSome]
  simp

end RustRest
