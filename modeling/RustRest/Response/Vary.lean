import RustRest.Response.Location

/-!
# The `Vary` field

A response that depends on a field of the request says so in `Vary`, for caches. `ensure_accept_encoding_vary` adds
`Accept-Encoding` to whatever the values of the field are, and puts the result in one value.
-/

namespace RustRest

open List

open Response (listedNames)

variable {Stream : Type}

/-! ## The model -/

def HeaderName.vary : HeaderName := ⟨"vary", by decide, by decide, by decide⟩

/-- `HeaderValue::from_static("*")`. -/
def HeaderValue.wildcard : HeaderValue := ⟨[0x2a], by decide⟩

variable (r : Response Stream)

def Response.VariesBy (name : String) : Prop :=
  ∃ value ∈ r.headers.getAll .vary, ∃ names, listedNames value = some names ∧
    ∃ listed ∈ names, listed = "*" ∨ eqIgnoreAsciiCase listed name = true

/-- `Response::append_header`; `set_cookie` goes through it. -/
def Response.appendHeader (name value : String) : Response Stream :=
  match HeaderName.ofStr name with
  | none => r.recordBuildError .invalidHeaderName
  | some name =>
    match HeaderValue.fromStr value with
    | none => r.recordBuildError .invalidHeaderValue
    | some value => { r with headers := r.headers.append name value }

def varyField (seen : List String × Bool) (field : String) : List String × Bool :=
  if field = "*" then (seen.1, true)
  else
    let canonical := if eqIgnoreAsciiCase field "accept-encoding" then "Accept-Encoding" else field
    if seen.1.any fun existing => eqIgnoreAsciiCase existing canonical then seen else (seen.1 ++ [canonical], seen.2)

def collectVary : List HeaderValue → List String × Bool → Option (List String × Bool)
  | [], seen => some seen
  | value :: rest, seen => match listedNames value with
    | none => none
    | some names => collectVary rest (names.foldl varyField seen)

/-- The fields with `Accept-Encoding` among them. -/
def withAcceptEncoding (fields : List String) : List String :=
  if fields.any fun field => eqIgnoreAsciiCase field "accept-encoding" then fields else fields ++ ["Accept-Encoding"]

/-- All `Vary` values in one, with `Accept-Encoding`. -/
def Response.ensureAcceptEncodingVary : Response Stream :=
  match collectVary (r.headers.getAll .vary) ([], false) with
  | none => { r with headers := (r.headers.remove .vary).insert .vary .wildcard }
  | some (fields, sawWildcard) =>
    if sawWildcard then { r with headers := r.headers.insert .vary .wildcard }
    else match HeaderValue.fromStr (", ".intercalate (withAcceptEncoding fields)) with
      | some combined => { r with headers := r.headers.insert .vary combined }
      | none => { r with headers := r.headers.insert .vary .wildcard }

/-! ## Responses that vary -/

variable {name : String}

theorem Response.variesBy_of_getAll {r r' : Response Stream} (h : r.VariesBy name)
    (hvary : r'.headers.getAll .vary = r.headers.getAll .vary) : r'.VariesBy name := by
  unfold Response.VariesBy
  rw [hvary]
  exact h

theorem Response.headers_recordBuildError (error : ResponseBuildError) :
    (r.recordBuildError error).headers = r.headers := by
  unfold Response.recordBuildError
  split <;> rfl

theorem HeaderName.ofStr_vary : HeaderName.ofStr "vary" = some .vary := by decide

variable {names : List String}

theorem Response.variesBy_of_mem {r : Response Stream} {name listed : String} {value : HeaderValue}
    (hvalue : value ∈ r.headers.getAll .vary) (hnames : listedNames value = some names) (hlisted : listed ∈ names)
    (heq : eqIgnoreAsciiCase listed name = true) : r.VariesBy name :=
  ⟨value, hvalue, names, hnames, listed, hlisted, .inr heq⟩

theorem Response.getAll_vary_header (hname : HeaderName.ofStr name ≠ some .vary) (r : Response Stream)
    (value : String) : (r.header name value).headers.getAll .vary = r.headers.getAll .vary := by
  unfold Response.header
  split
  · rw [headers_recordBuildError]
  · next parsed hparsed =>
    split
    · rw [headers_recordBuildError]
    · rw [MultiMap.getAll_insert, if_neg]
      rintro rfl
      exact hname hparsed

/-! ## Lists of names -/

structure ListedName (name : String) : Prop where
  ne_empty : name ≠ ""
  bare : Bare name.toList
  comma : ',' ∉ name.toList
  text : ∀ c ∈ name.toList, isTextChar c = true

theorem listedName_of_mem {value : HeaderValue} (h : listedNames value = some names)
    (hname : name ∈ names) : ListedName name := by
  obtain ⟨text, htext, rfl⟩ := Option.map_eq_some_iff.1 h
  obtain ⟨hmem, hne⟩ := mem_filter.1 hname
  obtain ⟨part, hpart, rfl⟩ := mem_map.1 hmem
  have hchars : ∀ c ∈ (String.ofList (trim part)).toList, c ∈ part := fun c hc => by
    rw [String.toList_ofList] at hc
    exact mem_of_mem_trim hc
  refine ⟨of_decide_eq_true hne, ?_, fun hc => ?_, fun c hc => ?_⟩
  · rw [String.toList_ofList]
    exact bare_trim part
  · exact Search.not_mem_of_mem_splitOn hpart (hchars _ hc)
  · exact isTextChar_of_toStr htext c (Search.mem_of_mem_splitOn hpart (hchars c hc))

theorem forall_mem_intercalate {P : Char → Prop} {sep : List Char} (hsep : ∀ c ∈ sep, P c) :
    ∀ {parts : List (List Char)}, (∀ part ∈ parts, ∀ c ∈ part, P c) → ∀ c ∈ sep.intercalate parts, P c
  | [], _, c, hc => absurd hc not_mem_nil
  | [part], hparts, c, hc => by
    rw [intercalate_singleton] at hc
    exact hparts part mem_cons_self c hc
  | part :: next :: rest, hparts, c, hc => by
    rw [intercalate_cons_cons, mem_append, mem_append] at hc
    rcases hc with (hpart | hc) | hrest
    · exact hparts part mem_cons_self c hpart
    · exact hsep c hc
    · exact forall_mem_intercalate hsep (fun p hp => hparts p (mem_cons_of_mem _ hp)) c hrest

/-- Names that are joined are read back. -/
theorem listedNames_join (hne : names ≠ []) (h : ∀ name ∈ names, ListedName name) :
    ∃ value, HeaderValue.fromStr (", ".intercalate names) = some value ∧ listedNames value = some names := by
  have hlist : (", ".intercalate names).toList = [',', ' '].intercalate (names.map String.toList) :=
    String.toList_intercalate
  have htext : ∀ c ∈ (", ".intercalate names).toList, isTextChar c = true := by
    rw [hlist]
    refine forall_mem_intercalate (all_eq_true.1 (by decide)) fun part hpart c hc => ?_
    obtain ⟨name, hname, rfl⟩ := mem_map.1 hpart
    exact (h name hname).text c hc
  obtain ⟨value, hvalue, hread⟩ := HeaderValue.fromStr_text htext
  refine ⟨value, hvalue, ?_⟩
  have hcomma : ∀ part ∈ names.map String.toList, ',' ∉ part := by
    intro part hpart
    obtain ⟨name, hname, rfl⟩ := mem_map.1 hpart
    exact (h name hname).comma
  have hname : ∀ name ∈ names, String.ofList (trim name.toList) = name := fun name hname => by
    rw [trim_of_bare (h name hname).bare, String.ofList_toList]
  rw [listedNames, hread, Option.map_some, hlist,
    map_splitOn_intercalate (by decide) (fun s => by rw [trim_space_cons]) (by simpa using hne) hcomma, map_map]
  refine congrArg some ?_
  have hmap : names.map ((fun name => String.ofList (trim name)) ∘ String.toList) = names :=
    (map_congr_left hname).trans (map_id names)
  rw [hmap, filter_eq_self]
  exact fun name hname => decide_eq_true (h name hname).ne_empty

/-! ## Fields that are combined -/

/-- Fields as they are combined: no `*`, and none twice. -/
structure VaryFields (fields : List String) : Prop where
  listed : ∀ field ∈ fields, ListedName field
  star : "*" ∉ fields
  canonical : ∀ field ∈ fields, eqIgnoreAsciiCase field "accept-encoding" = true → field = "Accept-Encoding"
  nodup : (fields.map toAsciiLowercase).Nodup

/-- The spelling under which a field is kept. -/
def canonicalField (field : String) : String :=
  if eqIgnoreAsciiCase field "accept-encoding" then "Accept-Encoding" else field

theorem listedName_acceptEncoding : ListedName "Accept-Encoding" := by
  have htoken : "Accept-Encoding".toList.all isTokenChar = true := by decide
  have htext : "Accept-Encoding".toList.all isTextChar = true := by decide
  exact ⟨by decide, bare_of_forall fun c hc => isWhitespace_of_isTokenChar (all_eq_true.1 htoken c hc), by decide,
    all_eq_true.1 htext⟩

theorem toAsciiLowercase_canonicalField (field : String) :
    toAsciiLowercase (canonicalField field) = toAsciiLowercase field := by
  unfold canonicalField
  split
  · next h =>
    rw [eqIgnoreAsciiCase_iff.1 h]
    decide
  · rfl

variable {fields : List String}

theorem any_eqIgnoreAsciiCase :
    (fields.any fun field => eqIgnoreAsciiCase field name) = true ↔ toAsciiLowercase name ∈ fields.map toAsciiLowercase := by
  simp only [any_eq_true, eqIgnoreAsciiCase_iff, mem_map]

theorem VaryFields.nil : VaryFields [] := ⟨by simp, by simp, by simp, by simp⟩

theorem VaryFields.concat (h : VaryFields fields) {field : String} (hfield : ListedName field)
    (hstar : field ≠ "*") (hnew : toAsciiLowercase field ∉ fields.map toAsciiLowercase) :
    VaryFields (fields ++ [canonicalField field]) := by
  have hcanonical : ListedName (canonicalField field) ∧ "*" ≠ canonicalField field ∧
      (eqIgnoreAsciiCase (canonicalField field) "accept-encoding" = true → canonicalField field = "Accept-Encoding") := by
    unfold canonicalField
    split
    · exact ⟨listedName_acceptEncoding, by decide, fun _ => rfl⟩
    · next hother => exact ⟨hfield, hstar.symm, fun h => absurd h hother⟩
  refine ⟨fun f hf => ?_, fun hf => ?_, fun f hf => ?_, ?_⟩
  · rcases mem_append.1 hf with hf | hf
    · exact h.listed f hf
    · exact mem_singleton.1 hf ▸ hcanonical.1
  · rcases mem_append.1 hf with hf | hf
    · exact h.star hf
    · exact hcanonical.2.1 (mem_singleton.1 hf)
  · rcases mem_append.1 hf with hf | hf
    · exact h.canonical f hf
    · exact mem_singleton.1 hf ▸ hcanonical.2.2
  · rw [map_append, map_singleton, toAsciiLowercase_canonicalField]
    exact nodup_append.2 ⟨h.nodup, nodup_singleton _, fun key hkey other hother heq =>
      hnew (mem_singleton.1 hother ▸ heq ▸ hkey)⟩

structure Collected (seen : List String × Bool) (names : List String) : Prop where
  fields : VaryFields seen.1
  star : seen.2 = true ↔ "*" ∈ names
  keys : ∀ key, key ∈ seen.1.map toAsciiLowercase ↔ ∃ name ∈ names, name ≠ "*" ∧ toAsciiLowercase name = key

theorem Collected.varyField {seen : List String × Bool} (h : Collected seen names) {field : String}
    (hfield : ListedName field) : Collected (varyField seen field) (names ++ [field]) := by
  unfold RustRest.varyField
  split
  · next hstar =>
    refine ⟨h.fields, by simp [hstar], fun key => ?_⟩
    simp [h.keys key, hstar]
  · next hstar =>
    have hnames : ∀ key, (∃ name ∈ names ++ [field], name ≠ "*" ∧ toAsciiLowercase name = key) ↔
        (∃ name ∈ names, name ≠ "*" ∧ toAsciiLowercase name = key) ∨ toAsciiLowercase field = key := fun key => by
      simp [or_and_right, exists_or, hstar]
    show Collected (if (seen.1.any fun existing => eqIgnoreAsciiCase existing (canonicalField field)) = true then seen
      else (seen.1 ++ [canonicalField field], seen.2)) (names ++ [field])
    split
    · next hany =>
      rw [any_eqIgnoreAsciiCase, toAsciiLowercase_canonicalField] at hany
      refine ⟨h.fields, by simp [h.star, Ne.symm hstar], fun key => ?_⟩
      rw [hnames, h.keys]
      exact ⟨.inl, fun hkey => hkey.elim id fun heq => (h.keys key).1 (heq ▸ hany)⟩
    · next hany =>
      rw [any_eqIgnoreAsciiCase, toAsciiLowercase_canonicalField] at hany
      refine ⟨h.fields.concat hfield hstar hany, by simp [h.star, Ne.symm hstar], fun key => ?_⟩
      rw [hnames, map_append, mem_append, h.keys, map_singleton, mem_singleton,
        toAsciiLowercase_canonicalField, eq_comm]

theorem Collected.foldl (hnames : ∀ name ∈ names, ListedName name) :
    ∀ {seen : List String × Bool} {before : List String}, Collected seen before →
      Collected (names.foldl RustRest.varyField seen) (before ++ names) := by
  induction names with
  | nil =>
    intro seen before h
    rw [append_nil]
    exact h
  | cons name names ih =>
    intro seen before h
    have hnext := ih (fun n hn => hnames n (mem_cons_of_mem _ hn)) (h.varyField (hnames name mem_cons_self))
    rw [append_assoc, singleton_append] at hnext
    exact hnext

/-- What is collected from any values. -/
theorem collected_of_collectVary {values : List HeaderValue} : ∀ {seen seen' : List String × Bool} {before : List String},
    Collected seen before → collectVary values seen = some seen' →
      ∃ lists : List (List String), values.map listedNames = lists.map some ∧ Collected seen' (before ++ lists.flatten) := by
  induction values with
  | nil =>
    rintro seen seen' before h ⟨⟩
    exact ⟨[], rfl, by rw [flatten_nil, append_nil]; exact h⟩
  | cons value values ih =>
    intro seen seen' before h hcollect
    unfold collectVary at hcollect
    split at hcollect
    · cases hcollect
    · next names hnames =>
      obtain ⟨lists, hlists, hseen'⟩ := ih (h.foldl fun name hname => listedName_of_mem hnames hname) hcollect
      refine ⟨names :: lists, by rw [map_cons, hnames, hlists, map_cons], ?_⟩
      rw [flatten_cons, ← append_assoc]
      exact hseen'

theorem collected_nil : Collected ([], false) [] := ⟨.nil, by simp, by simp⟩

theorem foldl_varyField (w : Bool) : ∀ {seen : List String}, VaryFields (seen ++ fields) →
    fields.foldl varyField (seen, w) = (seen ++ fields, w) := by
  induction fields with
  | nil => intro seen _; rw [foldl_nil, append_nil]
  | cons field fields ih =>
    intro seen h
    have hmem : field ∈ seen ++ field :: fields := mem_append_right _ mem_cons_self
    have hcanonical : (if eqIgnoreAsciiCase field "accept-encoding" then "Accept-Encoding" else field) = field := by
      split
      · next heq => exact (h.canonical field hmem heq).symm
      · rfl
    have hnew : ¬ (seen.any fun existing => eqIgnoreAsciiCase existing field) = true := by
      rw [any_eqIgnoreAsciiCase]
      have hnodup := h.nodup
      rw [map_append, map_cons] at hnodup
      exact fun hkey => (nodup_append.1 hnodup).2.2 _ hkey _ mem_cons_self rfl
    have hstep : varyField (seen, w) field = (seen ++ [field], w) := by
      unfold varyField
      rw [if_neg fun heq : field = "*" => h.star (heq ▸ hmem)]
      dsimp only
      rw [hcanonical, if_neg hnew]
    rw [foldl_cons, hstep, ih (by rwa [append_assoc, singleton_append]), append_assoc,
      singleton_append]

theorem withAcceptEncoding_eq_self (h : "Accept-Encoding" ∈ fields) :
    withAcceptEncoding fields = fields :=
  if_pos (any_eq_true.2 ⟨_, h, by decide⟩)

theorem VaryFields.withAcceptEncoding (h : VaryFields fields) :
    VaryFields (RustRest.withAcceptEncoding fields) ∧ "Accept-Encoding" ∈ RustRest.withAcceptEncoding fields := by
  unfold RustRest.withAcceptEncoding
  split
  · next hany =>
    obtain ⟨field, hfield, heq⟩ := any_eq_true.1 hany
    exact ⟨h, h.canonical field hfield heq ▸ hfield⟩
  · next hany =>
    have hlower : toAsciiLowercase "Accept-Encoding" = toAsciiLowercase "accept-encoding" := by decide
    have hnew : toAsciiLowercase "Accept-Encoding" ∉ fields.map toAsciiLowercase := fun hkey =>
      hany (any_eqIgnoreAsciiCase.2 (hlower ▸ hkey))
    exact ⟨h.concat listedName_acceptEncoding (by decide) hnew, mem_append_right _ (mem_singleton.2 rfl)⟩

/-! ## One value -/

structure Combines (values : List HeaderValue) (value : HeaderValue) (fields : List String) : Prop where
  combined : VaryFields fields
  acceptEncoding : "Accept-Encoding" ∈ fields
  joined : HeaderValue.fromStr (", ".intercalate fields) = some value
  listed : listedNames value = some fields
  before : ∀ old ∈ values, ∃ names, listedNames old = some names ∧ "*" ∉ names ∧
    ∀ name ∈ names, fields.countP (fun field => eqIgnoreAsciiCase field name) = 1

theorem VaryFields.countP_eq_one (h : VaryFields fields)
    (hname : toAsciiLowercase name ∈ fields.map toAsciiLowercase) :
    fields.countP (fun field => eqIgnoreAsciiCase field name) = 1 := by
  have hcount : fields.countP (fun field => eqIgnoreAsciiCase field name) =
      (fields.map toAsciiLowercase).count (toAsciiLowercase name) := by
    rw [List.count, countP_map]
    refine countP_congr fun field _ => ?_
    rw [eqIgnoreAsciiCase_iff, Function.comp_apply, beq_iff_eq]
  rw [hcount, count_eq_one_of_mem h.nodup hname]

theorem Response.ensureAcceptEncodingVary_cases :
    (∃ headers, r.ensureAcceptEncodingVary = { r with headers } ∧ headers.getAll .vary = [.wildcard] ∧
      ∀ name ≠ HeaderName.vary, headers.getAll name = r.headers.getAll name) ∨
    ∃ value fields, r.ensureAcceptEncodingVary = { r with headers := r.headers.insert .vary value } ∧
      Combines (r.headers.getAll .vary) value fields := by
  have hwildcard : (r.headers.insert .vary .wildcard).getAll .vary = [.wildcard] ∧ ∀ name ≠ HeaderName.vary,
      (r.headers.insert .vary .wildcard).getAll name = r.headers.getAll name :=
    ⟨by rw [MultiMap.getAll_insert_self], fun name hname => by rw [MultiMap.getAll_insert, if_neg hname]⟩
  unfold ensureAcceptEncodingVary
  cases hcollect : collectVary (r.headers.getAll .vary) ([], false) with
  | none =>
    refine .inl ⟨_, rfl, by rw [MultiMap.getAll_insert_self], fun name hname => ?_⟩
    rw [MultiMap.getAll_insert, if_neg hname, MultiMap.getAll_remove, if_neg hname]
  | some seen =>
    obtain ⟨fields, sawWildcard⟩ := seen
    dsimp only
    split
    · exact .inl ⟨_, rfl, hwildcard⟩
    · next hstar =>
      obtain ⟨lists, hlists, hcollected⟩ := collected_of_collectVary collected_nil hcollect
      rw [nil_append] at hcollected
      obtain ⟨hfields, haccept⟩ := hcollected.fields.withAcceptEncoding
      obtain ⟨value, hjoined, hlisted⟩ := listedNames_join (ne_nil_of_mem haccept) hfields.listed
      rw [hjoined]
      refine .inr ⟨value, _, rfl, hfields, haccept, hjoined, hlisted, fun old hold => ?_⟩
      have hmem : listedNames old ∈ lists.map some := hlists ▸ mem_map_of_mem hold
      obtain ⟨names, hnames, hread⟩ := mem_map.1 hmem
      have hnostar : "*" ∉ lists.flatten := fun h => hstar (hcollected.star.2 h)
      refine ⟨names, hread.symm, fun h => hnostar (mem_flatten.2 ⟨names, hnames, h⟩), fun name hname => ?_⟩
      refine hfields.countP_eq_one ?_
      have hkey := (hcollected.keys (toAsciiLowercase name)).2 ⟨name, mem_flatten.2 ⟨names, hnames, hname⟩,
        fun heq => hnostar (mem_flatten.2 ⟨names, hnames, heq ▸ hname⟩), rfl⟩
      unfold withAcceptEncoding
      split
      · exact hkey
      · rw [map_append]
        exact mem_append_left _ hkey

/-- Once is enough. -/
theorem Response.ensureAcceptEncodingVary_twice :
    r.ensureAcceptEncodingVary.ensureAcceptEncodingVary = r.ensureAcceptEncodingVary := by
  rcases r.ensureAcceptEncodingVary_cases with ⟨headers, heq, hvary, -⟩ | ⟨value, fields, heq, hcombines⟩
  · have hcollect : collectVary [.wildcard] ([], false) = some ([], true) := by decide
    rw [heq]
    unfold ensureAcceptEncodingVary
    dsimp only
    rw [hvary, hcollect]
    dsimp only
    rw [if_pos rfl, MultiMap.insert_of_getAll hvary]
  · have hvary : (r.headers.insert .vary value).getAll .vary = [value] := by rw [MultiMap.getAll_insert_self]
    have hcollect : collectVary [value] ([], false) = some (fields, false) := by
      rw [collectVary, hcombines.listed]
      exact congrArg some (foldl_varyField false hcombines.combined)
    rw [heq]
    unfold ensureAcceptEncodingVary
    dsimp only
    rw [hvary, hcollect]
    dsimp only
    rw [if_neg Bool.false_ne_true, withAcceptEncoding_eq_self hcombines.acceptEncoding, hcombines.joined]
    dsimp only
    rw [MultiMap.insert_of_getAll hvary]

end RustRest
