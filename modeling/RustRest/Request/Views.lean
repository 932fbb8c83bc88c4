import RustRest.Lib.Search
import RustRest.Header
import RustRest.Lib.FiniteMap

/-!
# The header and cookie views of a request

A request keeps its header fields three times: as the list of pairs in the order in which they came, as a map with the
last value of each name, and, for `Cookie` fields, as the map of the cookies. A request comes from the builder
(`RequestBuilder.build`) or from the network (`networkRequest`), and five operations change it.

Main result: **`views_agree`**.
-/

namespace RustRest

open FiniteMap List

/-! ## Cookies -/

def cookiePart (part : List Char) : Option (String × String) :=
  let part := trim part
  if part.isEmpty then none
  else (splitOnce '=' part).map fun pair => (String.ofList (trim pair.1), String.ofList (trim pair.2))

/-- The cookies of a `Cookie` value, from left to right. -/
def cookiePairs (header : String) : List (String × String) := (header.toList.splitOn ';').filterMap cookiePart

/-- `parse_cookies`: the last pair of a name counts. -/
def parseCookies (header : String) : Map String String := collect (cookiePairs header)

/-- `name=value`, in ascending order of the names and joined by `"; "`. -/
def renderCookies (cookies : Map String String) : String :=
  "; ".intercalate ((ascending cookies.keys).map fun name => name ++ "=" ++ (cookies.lookup name).getD "")

variable (req : Request) (name : String)

def validRequestCookieName : Bool := name != "" && name.toList.all isTokenChar

def validRequestCookieValue (value : String) : Bool :=
  value.toList.all fun c =>
    let n := c.toNat
    n == 0x21 || (0x23 ≤ n && n ≤ 0x2b) || (0x2d ≤ n && n ≤ 0x3a) || (0x3c ≤ n && n ≤ 0x5b) || (0x5d ≤ n && n ≤ 0x7e)

/-! ## Requests -/

/-- `Request`: the header fields and the cookies. -/
structure Request where
  headers : Map String String
  cookies : Map String String
  headerPairs : List (String × String)

/-- `hyper::header::COOKIE`. -/
def cookieName : String := "cookie"

theorem toAsciiLowercase_cookieName : toAsciiLowercase cookieName = cookieName := by decide

def badRequest (message : String) : HttpError := .new 400 "bad_request" message

def duplicateHeader : HttpError :=
  .new 400 "duplicate_header" ("El encabezado " ++ name ++ " debe aparecer como maximo una vez")

def parseHeaderName : Except HttpError HeaderName :=
  match HeaderName.ofStr name with
  | some name => .ok name
  | none => .error (badRequest "El nombre del encabezado de solicitud no es valido")

def validateHeaderValue (value : String) : Except HttpError Unit :=
  match HeaderValue.fromStr value with
  | some _ => .ok ()
  | none => .error (badRequest "El valor del encabezado de solicitud no es valido")

namespace Request

/-- The cookies are parsed from the fields again. -/
def rebuildCookieView : Request :=
  let fields := req.headerPairs.filter fun pair => eqIgnoreAsciiCase pair.1 cookieName
  { req with cookies := fields.foldl (fun cookies pair => parseCookies pair.2 ∪ cookies) ∅ }

/-- The cookies are written into one field again. -/
def rewriteCookieHeader : Request :=
  let headers := req.headers.erase cookieName
  let headerPairs := req.headerPairs.filter fun pair => !eqIgnoreAsciiCase pair.1 cookieName
  if req.cookies = ∅ then { req with headers, headerPairs }
  else
    let value := renderCookies req.cookies
    { req with headers := headers.insert cookieName value, headerPairs := headerPairs ++ [(cookieName, value)] }

/-- One value in the place of all. -/
def setHeader (name value : String) : Except HttpError Request := do
  let name ← parseHeaderName name
  validateHeaderValue value
  let normalized := name.text
  let headers := req.headers.insert normalized value
  let headerPairs := req.headerPairs.filter fun pair => !eqIgnoreAsciiCase pair.1 normalized
  let req := { req with headers, headerPairs := headerPairs ++ [(normalized, value)] }
  .ok (if normalized = cookieName then req.rebuildCookieView else req)

/-- One value more. -/
def appendHeader (name value : String) : Except HttpError Request := do
  let name ← parseHeaderName name
  validateHeaderValue value
  let normalized := name.text
  let headers := req.headers.insert normalized value
  let req := { req with headers, headerPairs := req.headerPairs ++ [(normalized, value)] }
  .ok (if normalized = cookieName then req.rebuildCookieView else req)

/-- All values of a field go. -/
def removeHeader : Request :=
  let headers := retain (fun existing _ => !eqIgnoreAsciiCase existing name) req.headers
  let headerPairs := req.headerPairs.filter fun pair => !eqIgnoreAsciiCase pair.1 name
  if eqIgnoreAsciiCase name cookieName then { headers, headerPairs, cookies := ∅ }
  else { req with headers, headerPairs }

/-- The view is changed, and the field written again. -/
def setCookie (name value : String) : Except HttpError Request :=
  if !validRequestCookieName name || !validRequestCookieValue value then
    .error (badRequest "El nombre o valor de la cookie de solicitud no es valido")
  else .ok (rewriteCookieHeader { req with cookies := req.cookies.insert name value })

/-- The cookie goes, and the field is written again. -/
def removeCookie : Request :=
  rewriteCookieHeader { req with cookies := req.cookies.erase name }

/-- The last value of a field. -/
def header : Option String :=
  (req.headers.lookup name).or (req.headers.lookup (toAsciiLowercase name))

/-- All values of a field, in order. -/
def headersAll : List String :=
  (req.headerPairs.filter fun pair => eqIgnoreAsciiCase pair.1 name).map Prod.snd

/-- The one value of a field; two are an error. -/
def singletonHeader : Except HttpError (Option String) :=
  match req.headersAll name with
  | [] => .ok (req.header name)
  | [value] => .ok (some value)
  | _ => .error (duplicateHeader name)

def cookie : Option String := req.cookies.lookup name

end Request

/-! ## Where requests come from -/

def LowerNames (pairs : List (String × String)) : Prop := ∀ pair ∈ pairs, toAsciiLowercase pair.1 = pair.1

variable {pairs : List (String × String)}

theorem LowerNames.filter (h : LowerNames pairs) (p : String × String → Bool) :
    LowerNames (pairs.filter p) := fun pair hpair => h pair (mem_of_mem_filter hpair)

theorem LowerNames.concat (h : LowerNames pairs) {name value : String}
    (hname : toAsciiLowercase name = name) : LowerNames (pairs ++ [(name, value)]) := by
  intro pair hpair
  rcases mem_append.1 hpair with hold | hnew
  · exact h pair hold
  · rw [mem_singleton.1 hnew]
    exact hname

/-- `RequestBuilder`: its headers and cookies. -/
structure RequestBuilder where
  headers : List (String × String)
  cookies : Map String String
  lower : LowerNames headers

namespace RequestBuilder

def new : RequestBuilder := ⟨[], ∅, nofun⟩

def header (builder : RequestBuilder) (name value : String) : RequestBuilder :=
  { builder with
    headers := builder.headers ++ [(toAsciiLowercase name, value)]
    lower := builder.lower.concat (toAsciiLowercase_toAsciiLowercase name) }

def cookie (builder : RequestBuilder) (name value : String) : RequestBuilder :=
  { builder with cookies := builder.cookies.insert name value }

/-- `RequestBuilder::build`: the cookies that no `Cookie` field names come first, in a field of their own. -/
def build (builder : RequestBuilder) : Request :=
  let explicit := (builder.headers.filter fun pair => pair.1 = cookieName).flatMap fun pair =>
    ascending (parseCookies pair.2).keys
  let synthetic := retain (fun name _ => !explicit.contains name) builder.cookies
  let headerPairs :=
    if synthetic = ∅ then builder.headers else (cookieName, renderCookies synthetic) :: builder.headers
  let step (views : Map String String × Map String String) (pair : String × String) :=
    (views.1.insert pair.1 pair.2,
      if pair.1 = cookieName then parseCookies pair.2 ∪ views.2 else views.2)
  let views := headerPairs.foldl step (∅, ∅)
  { headers := views.1, cookies := views.2, headerPairs }

end RequestBuilder

/-- `COOKIE` as the name of a field. -/
def cookieHeader : HeaderName := ⟨cookieName, by decide, by decide, toAsciiLowercase_cookieName⟩

/-- The part of `App::handle` that makes the request. The values of the fields are given as the texts that
`request_header_text` reads, which `validate_request_head` has checked; `authority` is the target of the request. -/
def networkRequest (fields : MultiMap HeaderName String) (authority : Option String) : Request :=
  let pairs := fields.pairs.map fun pair => (pair.1.text, pair.2)
  let headers := collect pairs
  let (headers, headerPairs) :=
    match headers.lookup "host", authority with
    | none, some authority => (headers.insert "host" authority, pairs ++ [("host", authority)])
    | _, _ => (headers, pairs)
  let cookies := (fields.getAll cookieHeader).foldl
    (fun cookies value => parseCookies value ∪ cookies) ∅
  { headers, cookies, headerPairs }

/-! ## Cookies are read back -/

/-- A cookie that is read back after it was rendered. -/
structure CleanCookie (name value : String) : Prop where
  name_bare : Bare name.toList
  value_bare : Bare value.toList
  name_semicolon : ';' ∉ name.toList
  value_semicolon : ';' ∉ value.toList
  name_equals : '=' ∉ name.toList

def CleanCookies (cookies : Map String String) : Prop :=
  ∀ name value, cookies.lookup name = some value → CleanCookie name value

/-- What is parsed from a text without `;` is clean. -/
theorem cookiePart_clean {part : List Char} {pair : String × String} (hpart : ';' ∉ part)
    (h : cookiePart part = some pair) : CleanCookie pair.1 pair.2 := by
  unfold cookiePart at h
  dsimp only at h
  split at h
  · cases h
  · obtain ⟨⟨before, after⟩, hsplit, rfl⟩ := Option.map_eq_some_iff.1 h
    obtain ⟨htrim, hbefore⟩ := splitOnce_eq_some hsplit
    have hmem : ∀ c, c ∈ before ∨ c ∈ after → c ∈ part := by
      intro c hc
      refine mem_of_mem_trim (htrim ▸ ?_)
      rw [mem_append, mem_cons]
      exact hc.imp_right .inr
    exact
      { name_bare := by rw [String.toList_ofList]; exact bare_trim _
        value_bare := by rw [String.toList_ofList]; exact bare_trim _
        name_semicolon := by
          rw [String.toList_ofList]
          exact fun hc => hpart (hmem _ (.inl (mem_of_mem_trim hc)))
        value_semicolon := by
          rw [String.toList_ofList]
          exact fun hc => hpart (hmem _ (.inr (mem_of_mem_trim hc)))
        name_equals := by
          rw [String.toList_ofList]
          exact fun hc => hbefore (mem_of_mem_trim hc) }

theorem cookiePairs_clean {header : String} {pair : String × String} (h : pair ∈ cookiePairs header) :
    CleanCookie pair.1 pair.2 := by
  obtain ⟨part, hpart, hsome⟩ := mem_filterMap.1 h
  exact cookiePart_clean (Search.not_mem_of_mem_splitOn hpart) hsome

theorem cleanCookies_collect (h : ∀ pair ∈ pairs, CleanCookie pair.1 pair.2) :
    CleanCookies (collect pairs) := by
  intro name value hlookup
  rw [lookup_collect] at hlookup
  exact h _ (mem_of_lastValue hlookup)

/-- A cookie that `set_cookie` accepts is clean. -/
theorem validCookie_clean {name value : String} (hname : validRequestCookieName name = true)
    (hvalue : validRequestCookieValue value = true) : CleanCookie name value := by
  have hn : ∀ c ∈ name.toList, isTokenChar c = true := all_eq_true.1 (Bool.and_eq_true _ _ ▸ hname).2
  have hv : ∀ c ∈ value.toList, 0x21 ≤ c.toNat ∧ c.toNat ≤ 0x7e ∧ c.toNat ≠ 0x3b := by
    intro c hc
    have hrange := all_eq_true.1 hvalue c hc
    simp only [Bool.or_eq_true, Bool.and_eq_true, beq_iff_eq, decide_eq_true_eq] at hrange
    omega
  refine ⟨bare_of_forall fun c hc => ?_, bare_of_forall fun c hc => ?_, fun hc => ?_, fun hc => ?_, fun hc => ?_⟩
  · exact isWhitespace_of_isTokenChar (hn c hc)
  · have hrange := hv c hc
    simp only [isWhitespace, Bool.or_eq_false_iff, Bool.and_eq_false_iff, decide_eq_false_iff_not, beq_eq_false_iff_ne]
    omega
  · exact absurd (hn _ hc) (by decide)
  · exact (hv _ hc).2.2 rfl
  · exact absurd (hn _ hc) (by decide)

/-- A clean cookie is read back. -/
theorem cookiePart_render {name value : String} (h : CleanCookie name value) :
    cookiePart (name ++ "=" ++ value).toList = some (name, value) := by
  have hlist : (name ++ "=" ++ value).toList = name.toList ++ '=' :: value.toList := by
    rw [String.toList_append, String.toList_append, append_assoc]
    rfl
  have hbare : Bare (name.toList ++ '=' :: value.toList) := h.name_bare.append_cons h.value_bare rfl
  unfold cookiePart
  rw [hlist, trim_of_bare hbare]
  dsimp only
  rw [if_neg (by simp), splitOnce_append h.name_equals, Option.map_some, trim_of_bare h.name_bare,
    trim_of_bare h.value_bare, String.ofList_toList, String.ofList_toList]

theorem cookiePart_space (part : List Char) : cookiePart (' ' :: part) = cookiePart part := by
  unfold cookiePart
  rw [trim_space_cons]

/-- Texts joined by `"; "` are read one by one. -/
theorem cookiePairs_intercalate {parts : List String} (hne : parts ≠ []) (hfree : ∀ part ∈ parts, ';' ∉ part.toList) :
    cookiePairs ("; ".intercalate parts) = parts.filterMap fun part => cookiePart part.toList := by
  have hlists : ("; ".intercalate parts).toList = [';', ' '].intercalate (parts.map String.toList) :=
    String.toList_intercalate
  have hsplit : (([';', ' '].intercalate (parts.map String.toList)).splitOn ';').map cookiePart =
      (parts.map String.toList).map cookiePart :=
    map_splitOn_intercalate (by decide) cookiePart_space (by simpa using hne) (by simpa using hfree)
  calc cookiePairs ("; ".intercalate parts)
      = ((([';', ' '].intercalate (parts.map String.toList)).splitOn ';').map cookiePart).filterMap id := by
        rw [filterMap_map, ← hlists]
        rfl
    _ = parts.filterMap fun part => cookiePart part.toList := by
        rw [hsplit, filterMap_map, filterMap_map]
        rfl

/-- The rendered cookies, joined by `"; "`, are read back one by one. -/
theorem cookiePairs_join {names : List String} {value : String → String} (hne : names ≠ [])
    (h : ∀ name ∈ names, CleanCookie name (value name)) :
    cookiePairs ("; ".intercalate (names.map fun name => name ++ "=" ++ value name)) =
      names.map fun name => (name, value name) := by
  have hfree : ∀ part ∈ names.map fun name => name ++ "=" ++ value name, ';' ∉ part.toList := by
    intro part hpart
    obtain ⟨name, hname, rfl⟩ := mem_map.1 hpart
    have hclean := h name hname
    simp only [String.toList_append, mem_append, not_or]
    exact ⟨⟨hclean.name_semicolon, by decide⟩, hclean.value_semicolon⟩
  rw [cookiePairs_intercalate (by simpa using hne) hfree, filterMap_map, ← filterMap_eq_map]
  exact filterMap_congr fun name hname => cookiePart_render (h name hname)

/-- A map of clean cookies is read back. -/
theorem parseCookies_renderCookies {cookies : Map String String} (hne : cookies ≠ ∅) (h : CleanCookies cookies) :
    parseCookies (renderCookies cookies) = cookies := by
  have hkeys : ∀ name, name ∈ ascending cookies.keys ↔ name ∈ cookies := fun name => by
    rw [mem_ascending, Finmap.mem_keys]
  have hlookup : ∀ name ∈ ascending cookies.keys, cookies.lookup name = some ((cookies.lookup name).getD "") := by
    intro name hname
    obtain ⟨value, hvalue⟩ := Finmap.mem_iff.1 ((hkeys name).1 hname)
    rw [hvalue, Option.getD_some]
  have hclean : ∀ name ∈ ascending cookies.keys, CleanCookie name ((cookies.lookup name).getD "") := fun name hname =>
    h name _ (hlookup name hname)
  have hpairs : cookiePairs (renderCookies cookies) =
      (ascending cookies.keys).map fun name => (name, (cookies.lookup name).getD "") := by
    have hnonempty : ascending cookies.keys ≠ [] := by
      intro hnil
      refine hne (Finmap.ext_lookup fun name => ?_)
      rw [Finmap.lookup_empty, Finmap.lookup_eq_none, ← hkeys, hnil]
      exact not_mem_nil
    exact cookiePairs_join hnonempty hclean
  rw [parseCookies, hpairs]
  exact collect_map_eq hkeys hlookup

/-! ## The cookies of a list of fields -/

/-- The cookies of all `Cookie` fields, from left to right, where the last one of a name wins. -/
def cookieView (pairs : List (String × String)) : Map String String :=
  collect ((pairs.filter fun pair => eqIgnoreAsciiCase pair.1 cookieName).flatMap fun pair => cookiePairs pair.2)

/-- Maps of cookies put over one another are the map of all the cookies. -/
theorem foldl_parseCookies {α : Type} (value : α → String) (l : List α) :
    l.foldl (fun cookies a => parseCookies (value a) ∪ cookies) ∅ = collect (l.flatMap fun a => cookiePairs (value a)) := by
  induction l using List.reverseRecOn with
  | nil => rfl
  | append_singleton l a ih =>
    rw [foldl_concat, ih, flatMap_append, flatMap_singleton, collect_append]
    rfl

theorem cleanCookies_cookieView (pairs : List (String × String)) : CleanCookies (cookieView pairs) := by
  refine cleanCookies_collect fun pair hpair => ?_
  obtain ⟨field, -, hmem⟩ := mem_flatMap.1 hpair
  exact cookiePairs_clean hmem

theorem cookieView_concat (pairs : List (String × String)) (name value : String) :
    cookieView (pairs ++ [(name, value)]) =
      if eqIgnoreAsciiCase name cookieName then parseCookies value ∪ cookieView pairs else cookieView pairs := by
  unfold cookieView
  rw [filter_append, filter_singleton]
  dsimp only
  cases eqIgnoreAsciiCase name cookieName with
  | true =>
    rw [cond_true, flatMap_append, flatMap_singleton, collect_append]
    rfl
  | false => rw [cond_false, append_nil, if_neg Bool.false_ne_true]

/-- Without the fields of one name, the cookies are the same, or none at all. -/
theorem cookieView_filter (pairs : List (String × String)) (name : String) :
    cookieView (pairs.filter fun pair => !eqIgnoreAsciiCase pair.1 name) =
      if eqIgnoreAsciiCase name cookieName then ∅ else cookieView pairs := by
  unfold cookieView
  rw [filter_filter]
  split
  · next hname =>
    rw [filter_eq_nil_iff.2]
    · rfl
    · intro pair _ hboth
      rw [Bool.and_eq_true, Bool.not_eq_true', eqIgnoreAsciiCase_iff] at hboth
      have hpair : eqIgnoreAsciiCase pair.1 name = true :=
        eqIgnoreAsciiCase_iff.2 (hboth.1.trans (eqIgnoreAsciiCase_iff.1 hname).symm)
      rw [hpair] at hboth
      cases hboth.2
  · next hname =>
    congr 2
    refine filter_congr fun pair _ => ?_
    cases hpair : eqIgnoreAsciiCase pair.1 cookieName with
    | false => rfl
    | true =>
      have hother : eqIgnoreAsciiCase pair.1 name = false := by
        rw [← Bool.not_eq_true, eqIgnoreAsciiCase_iff]
        intro heq
        exact hname (eqIgnoreAsciiCase_iff.2 (heq.symm.trans (eqIgnoreAsciiCase_iff.1 hpair)))
      rw [hother]
      rfl

/-! ## The last value of a name -/

/-- Among names in lower case, a name is found without regard to case when its lower case form is there. -/
theorem LowerNames.filter_eqIgnoreAsciiCase (h : LowerNames pairs) (name : String) :
    (pairs.filter fun pair => eqIgnoreAsciiCase pair.1 name) =
      pairs.filter fun pair => pair.1 = toAsciiLowercase name := by
  refine filter_congr fun pair hpair => ?_
  rw [Bool.eq_iff_iff, eqIgnoreAsciiCase_iff, decide_eq_true_eq, h pair hpair]

theorem LowerNames.lastValue_eq_none (h : LowerNames pairs) {name : String}
    (hname : toAsciiLowercase name ≠ name) : lastValue pairs name = none := by
  rw [FiniteMap.lastValue_eq_none]
  intro hmem
  obtain ⟨pair, hpair, rfl⟩ := mem_map.1 hmem
  exact hname (h pair hpair)

theorem LowerNames.lastValue_filter (h : LowerNames pairs) (name a : String) :
    lastValue (pairs.filter fun pair => !eqIgnoreAsciiCase pair.1 name) a =
      if a = toAsciiLowercase name then none else lastValue pairs a := by
  have hsame : ∀ pair ∈ pairs, eqIgnoreAsciiCase pair.1 name = decide (pair.1 = toAsciiLowercase name) := by
    intro pair hpair
    rw [Bool.eq_iff_iff, eqIgnoreAsciiCase_iff, decide_eq_true_eq, h pair hpair]
  unfold lastValue
  rw [filter_filter]
  split
  · next ha =>
    subst ha
    rw [filter_eq_nil_iff.2]
    · rfl
    · intro pair hpair hboth
      rw [hsame pair hpair, Bool.and_eq_true, Bool.not_eq_true'] at hboth
      rw [hboth.1] at hboth
      cases hboth.2
  · next ha =>
    congr 2
    refine filter_congr fun pair hpair => ?_
    rw [hsame pair hpair]
    by_cases hkey : pair.1 = a
    · rw [decide_eq_true hkey, decide_eq_false fun heq => ha (hkey.symm.trans heq)]
      rfl
    · rw [decide_eq_false hkey, Bool.false_and]

/-! ## The views agree -/

namespace Request

/-- The map of the headers has the last value of each name, and the map of the cookies those of the `Cookie` fields. -/
structure Agrees (req : Request) : Prop where
  lower : LowerNames req.headerPairs
  headers : ∀ name, req.headers.lookup name = lastValue req.headerPairs name
  cookies : req.cookies = cookieView req.headerPairs

theorem rebuildCookieView_cookies : req.rebuildCookieView.cookies = cookieView req.headerPairs :=
  foldl_parseCookies Prod.snd _

variable {req : Request}

/-- The cookies after a header field of a name in lower case was added. -/
theorem agrees_rebuilt {name : String} (hlower : LowerNames req.headerPairs)
    (hheaders : ∀ a, req.headers.lookup a = lastValue req.headerPairs a)
    (hcookies : name ≠ cookieName → req.cookies = cookieView req.headerPairs) :
    (if name = cookieName then req.rebuildCookieView else req).Agrees := by
  split
  · exact ⟨hlower, hheaders, rebuildCookieView_cookies req⟩
  · next hname => exact ⟨hlower, hheaders, hcookies hname⟩

theorem eqIgnoreAsciiCase_cookieName {name : String} (hlower : toAsciiLowercase name = name) (hname : name ≠ cookieName) :
    eqIgnoreAsciiCase name cookieName = false := by
  rw [← Bool.not_eq_true, eqIgnoreAsciiCase_iff, hlower]
  exact hname

theorem agrees_setHeader {req req' : Request} {name value : String} (h : req.Agrees)
    (hset : req.setHeader name value = .ok req') : req'.Agrees := by
  obtain ⟨parsed, -, hset⟩ := bind_eq_ok.1 hset
  obtain ⟨-, hset⟩ := bind_unit_eq_ok.1 hset
  cases hset
  have hlower := parsed.lower
  refine agrees_rebuilt ((h.lower.filter _).concat hlower) (fun a => ?_) fun hname => ?_
  · rw [lookup_insert_eq, lastValue_concat, h.lower.lastValue_filter, hlower, h.headers]
    split <;> rfl
  · have hother := eqIgnoreAsciiCase_cookieName hlower hname
    rw [cookieView_concat, if_neg (Bool.eq_false_iff.1 hother), cookieView_filter, if_neg (Bool.eq_false_iff.1 hother)]
    exact h.cookies

theorem agrees_appendHeader {req req' : Request} {name value : String} (h : req.Agrees)
    (happend : req.appendHeader name value = .ok req') : req'.Agrees := by
  obtain ⟨parsed, -, happend⟩ := bind_eq_ok.1 happend
  obtain ⟨-, happend⟩ := bind_unit_eq_ok.1 happend
  cases happend
  refine agrees_rebuilt (h.lower.concat parsed.lower) (fun a => ?_) fun hname => ?_
  · rw [lookup_insert_eq, lastValue_concat, h.headers]
  · have hother := eqIgnoreAsciiCase_cookieName parsed.lower hname
    rw [cookieView_concat, if_neg (Bool.eq_false_iff.1 hother)]
    exact h.cookies

theorem agrees_removeHeader (h : req.Agrees) : (req.removeHeader name).Agrees := by
  have hlookup : ∀ a, (retain (fun existing _ => !eqIgnoreAsciiCase existing name) req.headers).lookup a =
      lastValue (req.headerPairs.filter fun pair => !eqIgnoreAsciiCase pair.1 name) a := by
    intro a
    rw [lookup_retain, h.lower.lastValue_filter, h.headers]
    cases hlast : lastValue req.headerPairs a with
    | none =>
      rw [Option.filter_none]
      split <;> rfl
    | some b =>
      -- the name is listed, so it is in lower case
      have ha : toAsciiLowercase a = a := h.lower (a, b) (mem_of_lastValue hlast)
      have hsame : eqIgnoreAsciiCase a name = decide (a = toAsciiLowercase name) := by
        rw [Bool.eq_iff_iff, eqIgnoreAsciiCase_iff, decide_eq_true_eq, ha]
      rw [Option.filter_some, hsame]
      by_cases heq : a = toAsciiLowercase name
      · rw [decide_eq_true heq, if_pos heq]
        rfl
      · rw [decide_eq_false heq, if_neg heq]
        rfl
  unfold removeHeader
  dsimp only
  split
  · next hname => exact ⟨h.lower.filter _, hlookup, by rw [cookieView_filter, if_pos hname]⟩
  · next hname => exact ⟨h.lower.filter _, hlookup, by rw [cookieView_filter, if_neg hname]; exact h.cookies⟩

/-- The `Cookie` fields give way to one field, from which the cookies are read back. -/
theorem agrees_rewriteCookieHeader (hlower : LowerNames req.headerPairs)
    (hheaders : ∀ name, req.headers.lookup name = lastValue req.headerPairs name) (hclean : CleanCookies req.cookies) :
    req.rewriteCookieHeader.Agrees := by
  have hname : eqIgnoreAsciiCase cookieName cookieName = true := eqIgnoreAsciiCase_iff.2 rfl
  have hlookup : ∀ a, (req.headers.erase cookieName).lookup a =
      lastValue (req.headerPairs.filter fun pair => !eqIgnoreAsciiCase pair.1 cookieName) a := by
    intro a
    rw [lookup_erase_eq, hlower.lastValue_filter, hheaders]
    rfl
  unfold rewriteCookieHeader
  dsimp only
  split
  · next hempty =>
    refine ⟨hlower.filter _, hlookup, ?_⟩
    rw [cookieView_filter, if_pos hname]
    exact hempty
  · next hne =>
    refine ⟨(hlower.filter _).concat toAsciiLowercase_cookieName, fun a => ?_, ?_⟩
    · rw [lookup_insert_eq, lastValue_concat, hlookup]
    · rw [cookieView_concat, if_pos hname, cookieView_filter, if_pos hname, Finmap.union_empty,
        parseCookies_renderCookies hne hclean]

theorem agrees_setCookie {req req' : Request} {name value : String} (h : req.Agrees)
    (hset : req.setCookie name value = .ok req') : req'.Agrees := by
  unfold setCookie at hset
  split at hset
  · cases hset
  · next hvalid =>
    cases hset
    rw [Bool.or_eq_true, not_or, Bool.not_eq_true', Bool.not_eq_true', Bool.not_eq_false, Bool.not_eq_false] at hvalid
    refine agrees_rewriteCookieHeader h.lower h.headers fun a b hlookup => ?_
    rw [lookup_insert_eq] at hlookup
    split at hlookup
    · next ha =>
      cases hlookup
      exact ha ▸ validCookie_clean hvalid.1 hvalid.2
    · rw [h.cookies] at hlookup
      exact cleanCookies_cookieView _ a b hlookup

theorem agrees_removeCookie (h : req.Agrees) : (req.removeCookie name).Agrees := by
  refine agrees_rewriteCookieHeader h.lower h.headers fun a b hlookup => ?_
  rw [lookup_erase_eq] at hlookup
  split at hlookup
  · cases hlookup
  · rw [h.cookies] at hlookup
    exact cleanCookies_cookieView _ a b hlookup

/-! ## Accessors -/

section Accessors

variable {req : Request} (h : req.Agrees) (name : String)

include h

theorem Agrees.headersAll_eq :
    req.headersAll name = (req.headerPairs.filter fun pair => pair.1 = toAsciiLowercase name).map Prod.snd := by
  rw [headersAll, h.lower.filter_eqIgnoreAsciiCase]

/-- `header` gives the last of the values that `headers_all` gives. -/
theorem Agrees.header_eq : req.header name = (req.headersAll name).getLast? := by
  have hlast : req.headers.lookup (toAsciiLowercase name) = (req.headersAll name).getLast? := by
    rw [h.headers, h.headersAll_eq, List.getLast?_map]
    rfl
  rw [header]
  by_cases hname : toAsciiLowercase name = name
  · rw [hname] at hlast ⊢
    rw [hlast, Option.or_self]
  · rw [h.headers name, h.lower.lastValue_eq_none hname, Option.none_or, hlast]

/-- `singleton_header` gives what `header` gives, unless there are several values. -/
theorem Agrees.singletonHeader_eq : req.singletonHeader name =
    if (req.headersAll name).length ≤ 1 then .ok (req.header name) else .error (duplicateHeader name) := by
  have hheader := h.header_eq name
  unfold singletonHeader
  split
  · next hall =>
    rw [hall]
    rfl
  · next value hall =>
    rw [hheader, hall]
    rfl
  · next hnil hone =>
    rw [if_neg]
    intro hle
    cases hall : req.headersAll name with
    | nil => exact hnil hall
    | cons value values =>
      rw [hall, length_cons] at hle
      have hvalues : values = [] := length_eq_zero_iff.1 (by omega)
      exact hone value (hvalues ▸ hall)

end Accessors

end Request

/-! ## Every request -/

/-- The two views, made together from the fields. -/
theorem foldl_views (h : LowerNames pairs) :
    pairs.foldl (fun (views : Map String String × Map String String) pair => (views.1.insert pair.1 pair.2,
      if pair.1 = cookieName then parseCookies pair.2 ∪ views.2 else views.2)) (∅, ∅) =
      (collect pairs, cookieView pairs) := by
  induction pairs using List.reverseRecOn with
  | nil => rfl
  | append_singleton pairs pair ih =>
    have hpair : toAsciiLowercase pair.1 = pair.1 := h pair (mem_append_right _ mem_cons_self)
    rw [foldl_concat, ih fun p hp => h p (mem_append_left _ hp), collect_concat,
      show pair = (pair.1, pair.2) from rfl, cookieView_concat]
    by_cases hname : pair.1 = cookieName
    · rw [if_pos hname, if_pos]
      rw [eqIgnoreAsciiCase_iff, hname]
    · rw [if_neg hname, if_neg]
      rw [eqIgnoreAsciiCase_iff, hpair]
      exact hname

theorem agrees_build (builder : RequestBuilder) : builder.build.Agrees := by
  have hlower : ∀ synthetic : Map String String, LowerNames
      (if synthetic = ∅ then builder.headers else (cookieName, renderCookies synthetic) :: builder.headers) := by
    intro synthetic
    split
    · exact builder.lower
    · intro pair hpair
      rcases mem_cons.1 hpair with rfl | hpair
      · exact toAsciiLowercase_cookieName
      · exact builder.lower pair hpair
  unfold RequestBuilder.build
  dsimp only
  rw [foldl_views (hlower _)]
  exact ⟨hlower _, fun name => lookup_collect _ name, rfl⟩

theorem agrees_networkRequest (fields : MultiMap HeaderName String) (authority : Option String) :
    (networkRequest fields authority).Agrees := by
  let pairs := fields.pairs.map fun pair => (pair.1.text, pair.2)
  have hlower : LowerNames pairs := by
    intro pair hpair
    obtain ⟨field, -, rfl⟩ := mem_map.1 hpair
    exact field.1.lower
  have hcookies : (fields.getAll cookieHeader).foldl (fun cookies value => parseCookies value ∪ cookies) ∅ =
      cookieView pairs := by
    have hvalues : (pairs.filter fun pair => eqIgnoreAsciiCase pair.1 cookieName).map Prod.snd =
        fields.getAll cookieHeader := by
      rw [hlower.filter_eqIgnoreAsciiCase, toAsciiLowercase_cookieName, filter_map, map_map,
        ← fields.filter_pairs cookieHeader]
      refine congrArg (List.map _) (filter_congr fun pair _ => decide_eq_decide.2 ?_)
      exact ⟨fun h => HeaderName.ext_text h, fun h => congrArg HeaderName.text h⟩
    rw [cookieView, ← flatMap_map Prod.snd cookiePairs, hvalues]
    exact foldl_parseCookies id _
  unfold networkRequest
  dsimp only
  rw [hcookies]
  split
  · next authority =>
    refine ⟨hlower.concat (by decide), fun a => ?_, ?_⟩
    · rw [lookup_insert_eq, lookup_collect, lastValue_concat]
    · rw [cookieView_concat, if_neg (by decide)]
  · exact ⟨hlower, fun a => lookup_collect pairs a, rfl⟩

inductive RequestOrigin where
  | built (builder : RequestBuilder)
  | network (fields : MultiMap HeaderName String) (authority : Option String)

def RequestOrigin.request : RequestOrigin → Request
  | .built builder => builder.build
  | .network fields authority => networkRequest fields authority

/-- A call that changes the header fields or the cookies. -/
inductive HeaderCall where
  | setHeader (name value : String)
  | appendHeader (name value : String)
  | removeHeader (name : String)
  | setCookie (name value : String)
  | removeCookie (name : String)

/-- The request after a call; a call that fails changes nothing. -/
def Request.perform : HeaderCall → Request
  | .setHeader name value => (req.setHeader name value).toOption.getD req
  | .appendHeader name value => (req.appendHeader name value).toOption.getD req
  | .removeHeader name => req.removeHeader name
  | .setCookie name value => (req.setCookie name value).toOption.getD req
  | .removeCookie name => req.removeCookie name

theorem agrees_toOption {req : Request} {result : Except HttpError Request} (h : req.Agrees)
    (hresult : ∀ req', result = .ok req' → req'.Agrees) : (result.toOption.getD req).Agrees := by
  cases result with
  | error e => exact h
  | ok req' => exact hresult req' rfl

/-- One call keeps the views in agreement. -/
theorem agrees_perform {req : Request} (h : req.Agrees) (call : HeaderCall) : (req.perform call).Agrees := by
  cases call with
  | setHeader name value => exact agrees_toOption h fun _ => Request.agrees_setHeader h
  | appendHeader name value => exact agrees_toOption h fun _ => Request.agrees_appendHeader h
  | removeHeader name => exact Request.agrees_removeHeader name h
  | setCookie name value => exact agrees_toOption h fun _ => Request.agrees_setCookie h
  | removeCookie name => exact Request.agrees_removeCookie name h

theorem agrees_run (origin : RequestOrigin) (calls : List HeaderCall) :
    (calls.foldl Request.perform origin.request).Agrees := by
  induction calls using List.reverseRecOn with
  | nil =>
    cases origin with
    | built builder => exact agrees_build builder
    | network fields authority => exact agrees_networkRequest fields authority
  | append_singleton calls call ih =>
    rw [foldl_concat]
    exact agrees_perform ih call

/-- After every sequence of calls, the map of the headers has a name exactly when it is listed, with the last value
listed for it, the map of the cookies is what the `Cookie` fields say, and the accessors agree. -/
theorem views_agree (origin : RequestOrigin) (calls : List HeaderCall) :
    let req := calls.foldl Request.perform origin.request
    (∀ name, name ∈ req.headers ↔ name ∈ req.headerPairs.map Prod.fst) ∧
    (∀ name, req.headers.lookup name = lastValue req.headerPairs name) ∧
    req.cookies = cookieView req.headerPairs ∧
    ∀ name, req.header name = (req.headersAll name).getLast? ∧
      req.singletonHeader name =
        (if (req.headersAll name).length ≤ 1 then .ok (req.header name) else .error (duplicateHeader name)) ∧
      req.cookie name = (cookieView req.headerPairs).lookup name := by
  intro req
  have h : req.Agrees := agrees_run origin calls
  refine ⟨fun name => ?_, h.headers, h.cookies, fun name => ⟨h.header_eq name, h.singletonHeader_eq name, ?_⟩⟩
  · rw [← not_iff_not, ← Finmap.lookup_eq_none, h.headers, FiniteMap.lastValue_eq_none]
  · rw [Request.cookie, h.cookies]

end RustRest
