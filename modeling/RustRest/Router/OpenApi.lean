import RustRest.Lib.FiniteMap
import RustRest.Router.Built
import RustRest.Router.Render

/-!
# The OpenAPI document of a router

`build_document` folds the listed routes into a map from OpenAPI paths to path items. An operation keeps what the first
route at its path and method documents and counts the others. The path is a lossy text of the pattern: `:name` and
`*name` are both written as a placeholder, and the method is compared in lower case.

Main result: **`openapi_merges_iff`**.
-/

namespace RustRest

open SegTrie FiniteMap List

variable {H M C : Type}

/-! ## The document -/

structure RouteInfo where
  method : String
  path : String
  summary : Option String
  description : Option String
  tags : List String
  deriving DecidableEq, Repr

def Route.info (route : Route H M C) : RouteInfo where
  method := route.method
  path := route.pattern.rendered
  summary := route.routeMeta.summary
  description := route.routeMeta.description
  tags := route.routeMeta.tags

/-- `Router::routes`, and `App::routes`. -/
def Router.routeInfos (r : Router H M C) : List RouteInfo := r.routes.map Route.info

def openapiOperations : List String := ["get", "put", "post", "delete", "options", "head", "patch", "trace"]

/-- One turn of the loop of `openapi_path`. -/
def openapiSegment (state : String × List String) (segment : String) : String × List String :=
  match segment.toList with
  | ':' :: name => (state.1 ++ "/" ++ "\x7b" ++ String.ofList name ++ "\x7d", state.2 ++ [String.ofList name])
  | '*' :: name => (state.1 ++ "/" ++ "\x7b" ++ String.ofList name ++ "\x7d", state.2 ++ [String.ofList name])
  | _ => (state.1 ++ "/" ++ segment, state.2)

/-- `openapi_path`: the path, and the names of its parameters. -/
def openapiPath (pattern : String) : String × List String :=
  let state := (pathSegments pattern).foldl openapiSegment ("", [])
  (if state.1 = "" then "/" else state.1, state.2)

structure Parameter where
  name : String
  location : String := "path"
  required : Bool := true
  schemaType : String := "string"
  deriving DecidableEq, Repr

structure Operation where
  summary : Option String
  description : Option String
  tags : List String
  parameters : List Parameter
  responses : List (String × String) := [("200", "OK")]
  method : Option String := none
  duplicateRoutes : Option Nat := none
  deriving DecidableEq, Repr

structure PathItem where
  operations : Map String Operation := ∅
  customMethods : List Operation := []

structure Document where
  openapi : String
  title : String
  version : String
  paths : Map String PathItem

variable (route : RouteInfo)

def RouteInfo.operation : Operation where
  summary := route.summary
  description := route.description
  tags := route.tags
  parameters := (openapiPath route.path).2.map fun name => { name }

def RouteInfo.customOperation : Operation := { route.operation with method := some route.method }

def RouteInfo.operationName : String := toAsciiLowercase route.method

def RouteInfo.counted : Option Operation → Operation
  | none => route.operation
  | some existing => { existing with duplicateRoutes := some (existing.duplicateRoutes.getD 1 + 1) }

def PathItem.add (item : PathItem) (route : RouteInfo) : PathItem :=
  if route.operationName ∈ openapiOperations then
    let operation := route.counted (item.operations.lookup route.operationName)
    { item with operations := item.operations.insert route.operationName operation }
  else { item with customMethods := item.customMethods ++ [route.customOperation] }

/-- One turn of the loop of `build_document`. -/
def addRoute (paths : Map String PathItem) (route : RouteInfo) : Map String PathItem :=
  let path := (openapiPath route.path).1
  paths.insert path (((paths.lookup path).getD {}).add route)

/-- `build_document`: the routes, merged into operations. -/
def buildDocument (title version : String) (routes : List RouteInfo) : Document where
  openapi := "3.0.3"
  title := title
  version := version
  paths := routes.foldl addRoute ∅

/-! ## Every route is accounted for -/

def RouteInfo.operationKey : Option (String × String) :=
  if route.operationName ∈ openapiOperations then some ((openapiPath route.path).1, route.operationName)
  else none

def operationAt (paths : Map String PathItem) (path method : String) : Option Operation :=
  (paths.lookup path).bind fun item => item.operations.lookup method

def customsAt (paths : Map String PathItem) (path : String) : List Operation :=
  (paths.lookup path).elim [] PathItem.customMethods

def storedOperation : List RouteInfo → Option Operation
  | [] => none
  | first :: rest => some { first.operation with
      duplicateRoutes := if rest.isEmpty then none else some (rest.length + 1) }

/-- The routes that a path item stands for. -/
def PathItem.total (item : PathItem) : Nat :=
  tally (fun operation => operation.duplicateRoutes.getD 1) item.operations + item.customMethods.length

structure Accounts (paths : Map String PathItem) (routes : List RouteInfo) : Prop where
  operations : ∀ path method, operationAt paths path method =
    storedOperation (routes.filter fun route => route.operationKey = some (path, method))
  customs : ∀ path, customsAt paths path =
    (routes.filter fun route => route.operationKey = none ∧ (openapiPath route.path).1 = path).map
      RouteInfo.customOperation
  total : tally PathItem.total paths = routes.length

theorem storedOperation_concat (group : List RouteInfo) (route : RouteInfo) :
    storedOperation (group ++ [route]) = some (route.counted (storedOperation group)) := by
  match group with
  | [] => rfl
  | [first] => rfl
  | first :: second :: rest => simp [storedOperation, RouteInfo.counted]

theorem filter_concat (p : RouteInfo → Bool) (routes : List RouteInfo) (route : RouteInfo) :
    (routes ++ [route]).filter p = routes.filter p ++ if p route then [route] else [] := by
  rw [filter_append, filter_cons, filter_nil]

section Item

variable (item : PathItem) (route : RouteInfo)

theorem PathItem.lookup_add (method : String) : (item.add route).operations.lookup method =
    if route.operationName ∈ openapiOperations ∧ method = route.operationName
    then some (route.counted (item.operations.lookup method)) else item.operations.lookup method := by
  unfold PathItem.add
  by_cases hstandard : route.operationName ∈ openapiOperations
  · rw [if_pos hstandard, lookup_insert_eq]
    by_cases hmethod : method = route.operationName
    · rw [if_pos hmethod, if_pos ⟨hstandard, hmethod⟩, hmethod]
    · rw [if_neg hmethod, if_neg fun hand => hmethod hand.2]
  · rw [if_neg hstandard, if_neg fun hand => hstandard hand.1]

theorem PathItem.customMethods_add : (item.add route).customMethods =
    item.customMethods ++ if route.operationName ∈ openapiOperations then [] else [route.customOperation] := by
  unfold PathItem.add
  split
  · exact (append_nil _).symm
  · rfl

theorem PathItem.total_add : (item.add route).total = item.total + 1 := by
  unfold PathItem.total
  rw [item.customMethods_add route]
  by_cases hstandard : route.operationName ∈ openapiOperations
  · have hlookup : ∀ method, (item.add route).operations.lookup method =
        if method = route.operationName then some (route.counted (item.operations.lookup route.operationName))
        else item.operations.lookup method := by
      intro method
      rw [item.lookup_add route]
      by_cases hmethod : method = route.operationName
      · rw [if_pos ⟨hstandard, hmethod⟩, if_pos hmethod, hmethod]
      · rw [if_neg fun hand => hmethod hand.2, if_neg hmethod]
    have htally := tally_of_lookup (fun operation : Operation => operation.duplicateRoutes.getD 1) hlookup
    rw [if_pos hstandard, append_nil]
    cases hfound : item.operations.lookup route.operationName with
    | none =>
      simp only [hfound, Option.elim_none, Option.elim_some, RouteInfo.counted, RouteInfo.operation,
        Option.getD_none] at htally
      omega
    | some existing =>
      simp only [hfound, Option.elim_some, RouteInfo.counted, Option.getD_some] at htally
      omega
  · have hsame : (item.add route).operations = item.operations := by
      unfold PathItem.add
      rw [if_neg hstandard]
    rw [hsame, if_neg hstandard, length_append, length_singleton]
    omega

end Item

section Accounting

variable {paths : Map String PathItem} {routes : List RouteInfo}

theorem lookup_addRoute (paths : Map String PathItem) (route : RouteInfo) (path : String) :
    (addRoute paths route).lookup path = if path = (openapiPath route.path).1
      then some (((paths.lookup (openapiPath route.path).1).getD {}).add route) else paths.lookup path :=
  lookup_insert_eq _ _ _ _

theorem operationAt_addRoute (path method : String) :
    operationAt (addRoute paths route) path method = if route.operationKey = some (path, method)
      then some (route.counted (operationAt paths path method)) else operationAt paths path method := by
  have hkey : route.operationKey = some (path, method) ↔ path = (openapiPath route.path).1 ∧
      route.operationName ∈ openapiOperations ∧ method = route.operationName := by
    unfold RouteInfo.operationKey
    split
    · next hstandard => simp [hstandard, eq_comm]
    · next hstandard => simp [hstandard]
  -- a path without an item has no operations
  have hitem : ((paths.lookup path).getD {}).operations.lookup method = operationAt paths path method := by
    unfold operationAt
    cases paths.lookup path with
    | none => exact Finmap.lookup_empty _
    | some item => rfl
  unfold operationAt at hitem ⊢
  rw [lookup_addRoute]
  simp only [hkey]
  by_cases hpath : path = (openapiPath route.path).1
  · rw [if_pos hpath, ← hpath, Option.bind_some, PathItem.lookup_add, hitem]
    simp
  · rw [if_neg hpath, if_neg fun hand => hpath hand.1]

theorem customsAt_addRoute (path : String) : customsAt (addRoute paths route) path =
    customsAt paths path ++ if route.operationKey = none ∧ (openapiPath route.path).1 = path
      then [route.customOperation] else [] := by
  have hkey : route.operationKey = none ↔ ¬route.operationName ∈ openapiOperations := by
    unfold RouteInfo.operationKey
    split
    · next hstandard => simp [hstandard]
    · next hstandard => simp [hstandard]
  have hitem : ((paths.lookup path).getD {}).customMethods = customsAt paths path := by
    unfold customsAt
    cases paths.lookup path with
    | none | some item => rfl
  unfold customsAt at hitem ⊢
  rw [lookup_addRoute]
  by_cases hpath : path = (openapiPath route.path).1
  · rw [if_pos hpath, ← hpath, Option.elim_some, PathItem.customMethods_add, hitem]
    simp only [hkey, and_true]
    by_cases hstandard : route.operationName ∈ openapiOperations
    · rw [if_pos hstandard, if_neg fun hnot => hnot hstandard]
    · rw [if_neg hstandard, if_pos hstandard]
  · rw [if_neg hpath, if_neg fun hand => hpath hand.2.symm, append_nil]

/-- One turn of the loop accounts for one route more. -/
theorem Accounts.add (h : Accounts paths routes) (route : RouteInfo) :
    Accounts (addRoute paths route) (routes ++ [route]) where
  operations := by
    intro path method
    rw [operationAt_addRoute, filter_concat, h.operations path method]
    by_cases hkey : route.operationKey = some (path, method)
    · rw [if_pos hkey, if_pos (decide_eq_true hkey), storedOperation_concat]
    · rw [if_neg hkey, if_neg (by simpa using hkey), append_nil]
  customs := by
    intro path
    rw [customsAt_addRoute, filter_concat, map_append, h.customs path]
    by_cases hcustom : route.operationKey = none ∧ (openapiPath route.path).1 = path
    · rw [if_pos hcustom, if_pos (decide_eq_true hcustom), map_singleton]
    · rw [if_neg hcustom, if_neg (by simpa using hcustom), map_nil]
  total := by
    have htally := tally_of_lookup PathItem.total (lookup_addRoute paths route)
    have hempty : PathItem.total {} = 0 := rfl
    rw [Option.elim_some, PathItem.total_add] at htally
    rw [length_append, length_singleton, ← h.total]
    cases hfound : paths.lookup (openapiPath route.path).1 with
    | none =>
      simp only [hfound, Option.elim_none, Option.getD_none, hempty] at htally
      omega
    | some item =>
      simp only [hfound, Option.elim_some, Option.getD_some] at htally
      omega

theorem Accounts.foldl (h : Accounts paths routes) (more : List RouteInfo) :
    Accounts (more.foldl addRoute paths) (routes ++ more) := by
  induction more generalizing paths routes with
  | nil => rwa [append_nil]
  | cons route more ih =>
    have hrest := ih (h.add route)
    rwa [append_assoc] at hrest

/-- The document accounts for every route. -/
theorem accounts_buildDocument (title version : String) (routes : List RouteInfo) :
    Accounts (buildDocument title version routes).paths routes := by
  have hempty : Accounts ∅ [] := ⟨fun _ _ => rfl, fun _ => rfl, rfl⟩
  exact hempty.foldl routes

end Accounting

/-! ## Registered patterns -/

section Registered

theorem parsed_andChain {r : Router H M C} (hr : ∀ a ∈ r.routes, Parsed a.pattern) (method path : String)
    (handler : H) (kind : RouteKind C) (calls : List (HandleCall M)) :
    ∀ a ∈ (andChain (r.addWithKind method path handler kind) calls).1.routes, Parsed a.pattern := by
  rcases hrun : andChain (r.addWithKind method path handler kind) calls with ⟨r', res⟩
  obtain ⟨-, ⟨hroutes, -⟩ | ⟨b, hroutes, -, hparse, -⟩⟩ := andChain_cases hrun
  · exact hroutes ▸ hr
  · rw [hroutes]
    intro a ha
    rcases mem_append.1 ha with ha | ha
    · exact hr a ha
    · rw [mem_singleton.1 ha]
      exact .parse hparse

theorem Built.parsed {r : Router H M C} {os : List (Origin M)} (h : Built r os) :
    ∀ a ∈ r.routes, Parsed a.pattern := by
  induction h with
  | new => exact fun a ha => absurd ha not_mem_nil
  | layer m _ ih => exact ih
  | @lookup r os path _ ih => rw [(afterLookup_routes r path).1]; exact ih
  | route method path handler calls _ ih | websocket path config handler calls _ ih => exact parsed_andChain ih _ _ _ _ _
  | @staticFiles r os D env pre root options _ ih =>
    rcases hrun : r.staticFilesWithOptions env pre root options with ⟨r', res⟩
    rcases staticFiles_cases hrun with ⟨rfl, e, rfl⟩ | ⟨_, _, _, hparse, _, _, rfl, rfl⟩
    · exact ih
    · intro a ha
      rcases mem_append.1 ha with ha | ha
      · exact ih a ha
      · rcases mem_pair.1 ha with rfl | rfl
        · exact .parse hparse
        · exact .parse hparse
  | @mount r other os inner pre _ _ ih ih' =>
    rcases hrun : r.mount pre other with ⟨r', res⟩
    rcases mount_cases hrun with ⟨rfl, e, rfl⟩ | ⟨p, new, hparse, hf, _, _, rfl, rfl⟩
    · exact ih
    · intro a ha
      rcases mem_append.1 ha with ha | ha
      · exact ih a ha
      · obtain ⟨i, hi⟩ := List.getElem?_of_mem ha
        obtain ⟨b, hb, pattern, hjoin, rfl⟩ := forall₂_getElem? hf hi
        exact .join (.parse hparse) (ih' b (mem_of_getElem? hb)) hjoin

end Registered

/-! ## The OpenAPI path of a pattern -/

def asParam : Segment → Segment
  | .static s => .static s
  | .param name => .param name
  | .wildcard name => .param name

/-- The text of a segment in an OpenAPI path. -/
def openapiText : Segment → String
  | .static s => encodePathSegment s
  | .param name => "\x7b" ++ name ++ "\x7d"
  | .wildcard name => "\x7b" ++ name ++ "\x7d"

theorem openapiSegment_render (state : String × List String) (segment : Segment) :
    openapiSegment state (renderSegment segment) =
      (state.1 ++ "/" ++ openapiText segment, state.2 ++ segment.name?.toList) := by
  unfold openapiSegment
  cases segment with
  | static s =>
    split
    · next hname => exact absurd hname (encodePathSegment_head (.inl rfl) _)
    · next hname => exact absurd hname (encodePathSegment_head (.inr rfl) _)
    · simp [renderSegment, openapiText, Seg.name?]
  | param name | wildcard name =>
    simp only [renderSegment, openapiText, Seg.name?, String.append_assoc, Option.toList_some]
    simp

theorem foldl_openapiSegment (segments : List Segment) (state : String × List String) :
    ((segments.map renderSegment).foldl openapiSegment state).1 =
      state.1 ++ String.join ((segments.map openapiText).map ("/" ++ ·)) := by
  induction segments generalizing state with
  | nil => simp
  | cons segment segments ih =>
    rw [map_cons, foldl_cons, ih, openapiSegment_render, map_cons, map_cons, String.join_cons]
    simp only [String.append_assoc]

theorem brace_not_mem_encodedByte : ∀ byte : UInt8, '\x7b' ∉ encodedByte byte := forall_byte (by decide +kernel)

theorem openapiText_eq_iff (s t : Segment) : openapiText s = openapiText t ↔ asParam s = asParam t := by
  have hstatic : ∀ name u : String, "\x7b" ++ name ++ "\x7d" ≠ encodePathSegment u := by
    intro name u heq
    have hmem : '\x7b' ∈ (encodePathSegment u).toList := by
      rw [← heq]
      simp
    rw [toList_encodePathSegment] at hmem
    obtain ⟨byte, -, hbyte⟩ := mem_flatMap.1 hmem
    exact brace_not_mem_encodedByte byte hbyte
  have hname : ∀ n m : String, "\x7b" ++ n ++ "\x7d" = "\x7b" ++ m ++ "\x7d" ↔ n = m := by
    intro n m
    refine ⟨fun heq => ?_, fun heq => by rw [heq]⟩
    have hlists := congrArg String.toList heq
    exact String.toList_inj.1 (by simpa using hlists)
  have hencode : ∀ u v : String, encodePathSegment u = encodePathSegment v ↔ u = v := by
    refine fun u v => ⟨fun heq => utf8_injective ?_, congrArg _⟩
    rw [← percentDecode_encode u, heq, percentDecode_encode]
  cases s <;> cases t <;> simp [openapiText, asParam, hname, hencode, hstatic, fun name u => (hstatic name u).symm]

theorem openapiText_ok {pattern : RoutePattern} (h : pattern.WellFormed) {segment : Segment}
    (hsegment : segment ∈ pattern.segments) : openapiText segment ≠ "" ∧ '/' ∉ (openapiText segment).toList := by
  have hplaceholder : ∀ name : String, NameOk name →
      "\x7b" ++ name ++ "\x7d" ≠ "" ∧ '/' ∉ ("\x7b" ++ name ++ "\x7d").toList := by
    intro name hname
    have hslash := slash_not_mem_of_nameOk hname
    refine ⟨fun hempty => ?_, ?_⟩
    · simpa using congrArg String.toList hempty
    · simpa using hslash
  cases segment with
  | static s => exact renderSegment_ok h hsegment
  | param name | wildcard name => exact hplaceholder name (h.names _ hsegment name rfl)

theorem RoutePattern.WellFormed.rendered {pattern : RoutePattern} (h : pattern.WellFormed) :
    pattern.rendered = renderPattern pattern.segments := by
  obtain ⟨-, -, hpattern⟩ := validateSegments_ok.1 h.validated
  rw [hpattern]
  rfl

theorem pathSegments_openapiPath {pattern : RoutePattern} (h : pattern.WellFormed) :
    pathSegments (openapiPath pattern.rendered).1 = pattern.segments.map openapiText := by
  have hparts : ∀ part ∈ pattern.segments.map openapiText, part ≠ "" ∧ '/' ∉ part.toList := by
    intro part hpart
    obtain ⟨segment, hsegment, rfl⟩ := mem_map.1 hpart
    exact openapiText_ok h hsegment
  have hjoin : pathSegments (String.join ((pattern.segments.map openapiText).map ("/" ++ ·))) =
      pattern.segments.map openapiText := by
    rw [pathSegments_join, flatMap_pathSegments hparts]
  unfold openapiPath
  dsimp only
  rw [h.rendered, pathSegments_render h, foldl_openapiSegment]
  rw [String.empty_append]
  split
  · next hempty =>
    rw [← hjoin, hempty]
    decide +kernel
  · exact hjoin

theorem openapiPath_eq_iff {p q : RoutePattern} (hp : p.WellFormed) (hq : q.WellFormed) :
    (openapiPath p.rendered).1 = (openapiPath q.rendered).1 ↔ p.segments.map asParam = q.segments.map asParam := by
  have htexts : ∀ ss ts : List Segment, ss.map openapiText = ts.map openapiText ↔ ss.map asParam = ts.map asParam := by
    intro ss
    induction ss with
    | nil => intro ts; cases ts <;> simp
    | cons s ss ih =>
      intro ts
      cases ts with
      | nil => simp
      | cons t ts => simp [openapiText_eq_iff, ih ts]
  constructor
  · intro heq
    rw [← htexts, ← pathSegments_openapiPath hp, ← pathSegments_openapiPath hq, heq]
  · intro heq
    have hmap := (htexts _ _).2 heq
    unfold openapiPath
    dsimp only
    rw [hp.rendered, hq.rendered, pathSegments_render hp, pathSegments_render hq, foldl_openapiSegment,
      foldl_openapiSegment, hmap]

theorem asParam_cases {x y : Segment} (h : asParam x = asParam y) :
    x = y ∨ ∃ name, (x = .param name ∧ y = .wildcard name) ∨ (y = .param name ∧ x = .wildcard name) := by
  cases x <;> cases y <;> cases h <;> simp

theorem map_asParam_cases {s t : List Segment} (hs : ∀ x ∈ s.dropLast, x.isWildcard = false)
    (ht : ∀ x ∈ t.dropLast, x.isWildcard = false) (h : s.map asParam = t.map asParam) :
    s = t ∨ ∃ init name, (s = init ++ [.param name] ∧ t = init ++ [.wildcard name]) ∨
      (t = init ++ [.param name] ∧ s = init ++ [.wildcard name]) := by
  induction s generalizing t with
  | nil =>
    rw [map_nil, eq_comm, map_eq_nil_iff] at h
    exact .inl h.symm
  | cons x s ih =>
    cases t with
    | nil => exact absurd h (by simp)
    | cons y t =>
      rw [map_cons, map_cons, List.cons.injEq] at h
      obtain ⟨hxy, hst⟩ := h
      have hlength : s.length = t.length := by simpa using congrArg List.length hst
      cases s with
      | nil =>
        rw [eq_nil_of_length_eq_zero hlength.symm]
        rcases asParam_cases hxy with rfl | ⟨name, ⟨rfl, rfl⟩ | ⟨rfl, rfl⟩⟩
        · exact .inl rfl
        · exact .inr ⟨[], name, .inl ⟨rfl, rfl⟩⟩
        · exact .inr ⟨[], name, .inr ⟨rfl, rfl⟩⟩
      | cons x' s =>
        cases t with
        | nil => exact absurd hlength (by simp)
        | cons y' t =>
          -- neither is the last one, so neither is a wildcard
          have hx := hs x (by simp)
          have hy := ht y (by simp)
          have heq : x = y := by
            rcases asParam_cases hxy with heq | ⟨name, ⟨-, rfl⟩ | ⟨-, rfl⟩⟩
            · exact heq
            · exact absurd hy (by simp [Seg.isWildcard])
            · exact absurd hx (by simp [Seg.isWildcard])
          subst heq
          have hrest := ih (fun z hz => hs z (by simpa using .inr hz)) (fun z hz => ht z (by simpa using .inr hz)) hst
          rcases hrest with hrest | ⟨init, name, ⟨h₁, h₂⟩ | ⟨h₁, h₂⟩⟩
          · exact .inl (by rw [hrest])
          · exact .inr ⟨x :: init, name, .inl ⟨by rw [h₁]; rfl, by rw [h₂]; rfl⟩⟩
          · exact .inr ⟨x :: init, name, .inr ⟨by rw [h₁]; rfl, by rw [h₂]; rfl⟩⟩

/-! ## What is merged -/

/-- Both routes end up in one operation. -/
def SameOperation (a b : Route H M C) : Prop :=
  ∃ key, a.info.operationKey = some key ∧ b.info.operationKey = some key

def HostVariants (a b : Route H M C) : Prop :=
  a.method = b.method ∧ a.pattern = b.pattern ∧ hostsOverlap a.host b.host = false

theorem sameOperation_iff {a b : Route H M C} (ha : a.pattern.WellFormed) (hb : b.pattern.WellFormed) :
    SameOperation a b ↔ toAsciiLowercase a.method ∈ openapiOperations ∧ eqIgnoreAsciiCase a.method b.method = true ∧
      a.pattern.segments.map asParam = b.pattern.segments.map asParam := by
  have hkey : ∀ (c : Route H M C) (key : String × String), c.info.operationKey = some key ↔
      toAsciiLowercase c.method ∈ openapiOperations ∧
        key = ((openapiPath c.pattern.rendered).1, toAsciiLowercase c.method) := by
    intro c key
    unfold RouteInfo.operationKey RouteInfo.operationName
    change (if toAsciiLowercase c.method ∈ openapiOperations then _ else none) = _ ↔ _
    split
    · next hstandard => simp [hstandard, Route.info, eq_comm]
    · next hstandard => simp [hstandard]
  rw [eqIgnoreAsciiCase_iff, ← openapiPath_eq_iff ha hb]
  constructor
  · rintro ⟨key, hakey, hbkey⟩
    obtain ⟨hstandard, rfl⟩ := (hkey a key).1 hakey
    obtain ⟨-, heq⟩ := (hkey b _).1 hbkey
    exact ⟨hstandard, (Prod.mk.inj heq).2, (Prod.mk.inj heq).1⟩
  · rintro ⟨hstandard, hmethod, hpath⟩
    refine ⟨_, (hkey a _).2 ⟨hstandard, rfl⟩, (hkey b _).2 ⟨hmethod ▸ hstandard, ?_⟩⟩
    rw [hmethod, hpath]

theorem SameOperation.symm {a b : Route H M C} (h : SameOperation a b) : SameOperation b a := by
  obtain ⟨key, ha, hb⟩ := h
  exact ⟨key, hb, ha⟩

/-- **The document accounts for every registered route**: the operation at a path and method is that of the first route
with this key and counts all of them, the other routes are the custom methods of their paths, and the totals add up to
the number of routes. And it merges host variants only, exactly when no two routes with standard methods that agree up
to letter case have one pattern and different methods, or patterns that differ in the kind of the last placeholder
only. -/
theorem openapi_merges_iff {r : Router H M C} {os : List (Origin M)} (h : Built r os) (title version : String) :
    Accounts (buildDocument title version r.routeInfos).paths r.routeInfos ∧
      (r.routes.Pairwise (fun a b => SameOperation a b → HostVariants a b) ↔
        ∀ a ∈ r.routes, ∀ b ∈ r.routes, toAsciiLowercase a.method ∈ openapiOperations →
          eqIgnoreAsciiCase a.method b.method = true →
          (a.pattern.segments = b.pattern.segments → a.method = b.method) ∧
          ¬∃ init name, a.pattern.segments = init ++ [.param name] ∧ b.pattern.segments = init ++ [.wildcard name]) := by
  have hwf : ∀ a ∈ r.routes, a.pattern.WellFormed := fun a ha => (h.parsed a ha).wellFormed
  have hinv := h.inv
  refine ⟨accounts_buildDocument _ _ _, ?_, ?_⟩
  · intro hpairs a ha b hb hstandard hmethod
    -- the order of two routes does not matter, and a route agrees with itself
    have hsymm : Std.Symm fun x y : Route H M C => SameOperation x y → x.method = y.method ∧ x.pattern = y.pattern :=
      ⟨fun x y hxy hyx => ⟨(hxy hyx.symm).1.symm, (hxy hyx.symm).2.symm⟩⟩
    have hpairs' : r.routes.Pairwise fun x y => SameOperation x y → x.method = y.method ∧ x.pattern = y.pattern :=
      hpairs.imp fun hvariants hxy => ⟨(hvariants hxy).1, (hvariants hxy).2.1⟩
    have hsame := hpairs'.forall_of_forall (fun _ _ _ => ⟨rfl, rfl⟩) ha hb
    have hshare := fun hsegments => hsame ((sameOperation_iff (hwf a ha) (hwf b hb)).2 ⟨hstandard, hmethod, hsegments⟩)
    refine ⟨fun hsegments => (hshare (by rw [hsegments])).1, ?_⟩
    rintro ⟨init, name, hparam, hwildcard⟩
    obtain ⟨-, hpattern⟩ := hshare (by rw [hparam, hwildcard, map_append, map_append]; rfl)
    rw [hpattern, hwildcard] at hparam
    exact absurd (append_cancel_left hparam) (by simp)
  · intro hcond
    refine hinv.apart.imp_of_mem fun {a b} ha hb hapart hshare => ?_
    obtain ⟨hstandard, hmethod, hsegments⟩ := (sameOperation_iff (hwf a ha) (hwf b hb)).1 hshare
    obtain ⟨hstandard', hmethod', -⟩ := (sameOperation_iff (hwf b hb) (hwf a ha)).1 hshare.symm
    have haok := hinv.routes_ok a ha
    have hbok := hinv.routes_ok b hb
    rcases map_asParam_cases haok.valid.wildcard_last hbok.valid.wildcard_last hsegments with
      heq | ⟨init, name, ⟨hparam, hwildcard⟩ | ⟨hparam, hwildcard⟩⟩
    · have hm := (hcond a ha b hb hstandard hmethod).1 heq
      refine ⟨hm, ?_, (hapart.separated haok hbok hm (by rw [heq])).1⟩
      rw [haok.canonical, hbok.canonical, heq]
    · exact absurd ⟨init, name, hparam, hwildcard⟩ (hcond a ha b hb hstandard hmethod).2
    · exact absurd ⟨init, name, hparam, hwildcard⟩ (hcond b hb a ha hstandard' hmethod').2

def filesRouter : Router Nat Nat Unit :=
  (andChain ((andChain (Router.new.route .get "/files/:name" 1) [.summary "one"]).1.route .get "/files/*name" 2)
    [.summary "rest"]).1

theorem filesRouter_built : Built filesRouter [⟨[], []⟩, ⟨[], []⟩] :=
  .route .get "/files/*name" 2 [.summary "rest"] (.route .get "/files/:name" 1 [.summary "one"] .new)

theorem openapi_merges_files : tally PathItem.total (buildDocument "API" "1" filesRouter.routeInfos).paths = 2 :=
  (openapi_merges_iff filesRouter_built "API" "1").1.total

/-- The two routes are merged: the operation has the summary of the first, and counts the second as a variant. -/
theorem param_wildcard_merged : ∃ a b : Route Nat Nat Unit, filesRouter.routes = [a, b] ∧ a.method = b.method ∧
    a.pattern.segments = [.static "files", .param "name"] ∧ b.pattern.segments = [.static "files", .wildcard "name"] ∧
    operationAt (buildDocument "API" "1" filesRouter.routeInfos).paths "/files/\x7bname\x7d" "get" =
      some { summary := some "one", description := none, tags := [], parameters := [{ name := "name" }],
             duplicateRoutes := some 2 } := by
  refine ⟨_, _, rfl, rfl, ?_, ?_, ?_⟩
  · decide +kernel
  · decide +kernel
  · decide +kernel

end RustRest
