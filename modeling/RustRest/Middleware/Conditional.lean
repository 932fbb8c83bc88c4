import RustRest.Lib.Utf8Cursor
import RustRest.Middleware.Compression

/-!
# Conditional requests

`conditional.rs`: the conditions of a request (`If-Match`, `If-None-Match`, `If-Unmodified-Since`, `If-Modified-Since` and
`If-Range`) and how they are evaluated against the validators of a representation. A time is a number of nanoseconds
since the Unix epoch. The parser of dates is a crate, of which only what `HttpDates` says is used.
-/

namespace RustRest

open Utf8Cursor List

/-! ## The model -/

inductive PreconditionResult where
  | proceed
  | notModified
  | failed
  | ignoreRange
  deriving DecidableEq

/-- A field that may occur once. -/
inductive SingletonRequestHeader where
  | missing
  | value (text : String)
  | invalid

/-- What is used of the crate that parses dates. It refuses a text that is not ASCII before it trims it, so that a date
survives trimming and not the other way round. -/
structure HttpDates where
  parse : String → Option ℤ
  parse_trim : ∀ text date, parse text = some date → parse (String.ofList (trim text.toList)) = some date
  not_tag : ∀ text, (parse text).isSome → text.toList.head? ≠ some '"' ∧ ¬ ['W', '/'] <+: text.toList
  nonneg : ∀ text date, parse text = some date → 0 ≤ date

/-- The conditions of a request, as they were read. -/
structure ConditionalHeaders where
  method : String
  ifMatch : Option String
  ifNoneMatch : Option String
  ifUnmodifiedSince : Option ℤ
  ifModifiedSince : Option ℤ
  ifRange : SingletonRequestHeader
  hasRange : Bool

def Request.singletonRequestHeader (req : Request) (name : String) : Option String :=
  match req.headersAll name with
  | [] => req.header name
  | [value] => some value
  | _ => none

def Request.singletonRequestHeaderState (req : Request) (name : String) : SingletonRequestHeader :=
  match req.headersAll name with
  | [] => ((req.header name).map SingletonRequestHeader.value).getD .missing
  | [value] => .value value
  | _ => .invalid

/-- `ConditionalHeaders::from_request`. -/
def ConditionalHeaders.fromRequest (dates : HttpDates) (method : String) (req : Request) : ConditionalHeaders where
  method := method
  ifMatch := req.combinedHeader "if-match"
  ifNoneMatch := req.combinedHeader "if-none-match"
  ifUnmodifiedSince := (req.singletonRequestHeader "if-unmodified-since").bind dates.parse
  ifModifiedSince := (req.singletonRequestHeader "if-modified-since").bind dates.parse
  ifRange := req.singletonRequestHeaderState "if-range"
  hasRange := (req.header "range").isSome

/-- Strong or weak comparison. -/
inductive TagComparison where
  | strong
  | weak

def isEntityTagByte (b : UInt8) : Bool := b == 0x21 || (0x23 ≤ b && b ≤ 0x7e) || 0x80 ≤ b

/-- `strip_prefix("W/")`. -/
def stripWeak : List Char → Bool × List Char
  | 'W' :: '/' :: tag => (true, tag)
  | raw => (false, raw)

/-- `W/`, then a quoted text. -/
def parseEntityTag (raw : List Char) : Option (Bool × List Char) :=
  let weakAndTag := stripWeak (trim raw)
  match weakAndTag.2 with
  | '"' :: rest =>
    if rest.getLast? = some '"' then
      let inner := rest.dropLast
      if (encode inner).all isEntityTagByte then some (weakAndTag.1, inner) else none
    else none
  | _ => none

/-- Both are strong and the same. -/
def strongTagMatches (left right : List Char) : Bool :=
  match parseEntityTag left, parseEntityTag right with
  | some (false, left), some (false, right) => left == right
  | _, _ => false

/-- The same, weak or not. -/
def weakTagMatches (left right : List Char) : Bool :=
  match parseEntityTag left, parseEntityTag right with
  | some (_, left), some (_, right) => left == right
  | _, _ => false

def TagComparison.tagMatches : TagComparison → List Char → List Char → Bool
  | .strong => strongTagMatches
  | .weak => weakTagMatches

def entityTagListFrom (quoted : Bool) : List Char → List (List Char)
  | [] => [[]]
  | c :: rest =>
    if c = '"' then (entityTagListFrom (!quoted) rest).modifyHead (c :: ·)
    else if c = ',' ∧ quoted = false then [] :: entityTagListFrom quoted rest
    else (entityTagListFrom quoted rest).modifyHead (c :: ·)

/-- The tags of a list, split at commas outside the quotes. -/
def entityTagList (raw : List Char) : List (List Char) := entityTagListFrom false raw

/-- `*`, or a tag that matches; `none` where the current tag is ambiguous. -/
def entityTagListMatches (raw : List Char) (current : Option (List Char)) (currentIsUnambiguous : Bool)
    (comparison : TagComparison) : Option Bool :=
  let candidates := entityTagList raw
  if candidates.any fun candidate => trim candidate == ['*'] then some true
  else if !currentIsUnambiguous then none
  else some (candidates.any fun candidate => current.any fun current => comparison.tagMatches (trim candidate) current)

/-- Whole seconds since 1970, and 0 before. -/
def seconds (time : ℤ) : ℕ := if 0 ≤ time then (time / 10 ^ 9).toNat else 0

/-- Later, in whole seconds. -/
def modifiedAfter (lastModified since : ℤ) : Bool := seconds lastModified > seconds since

/-- Not later, in whole seconds. -/
def notModifiedSince (lastModified since : ℤ) : Bool := seconds lastModified ≤ seconds since

/-- `If-Range`, by a tag or by a date. -/
def ifRangeMatches (dates : HttpDates) (raw : List Char) (currentEtag : Option (List Char)) (lastModified : Option ℤ) :
    Bool :=
  let raw := trim raw
  if raw.head? = some '"' ∨ ['W', '/'] <+: raw then currentEtag.any fun etag => strongTagMatches raw etag
  else
    match dates.parse (String.ofList raw), lastModified with
    | some ifRange, some lastModified => seconds lastModified == seconds ifRange
    | _, _ => false

namespace ConditionalHeaders

def evaluateRange (dates : HttpDates) (headers : ConditionalHeaders) (etag : Option (List Char)) (lastModified : Option ℤ)
    (rangeRequested : Bool) : PreconditionResult :=
  if rangeRequested && headers.hasRange then
    match headers.ifRange with
    | .invalid => .ignoreRange
    | .value ifRange => if !ifRangeMatches dates ifRange.toList etag lastModified then .ignoreRange else .proceed
    | .missing => .proceed
  else .proceed

def evaluateNoneMatch (dates : HttpDates) (headers : ConditionalHeaders) (etag : Option (List Char))
    (etagIsUnambiguous : Bool) (lastModified : Option ℤ) (rangeRequested : Bool) : PreconditionResult :=
  let safe := headers.method == "GET" || headers.method == "HEAD"
  let further := headers.evaluateRange dates etag lastModified rangeRequested
  match headers.ifNoneMatch with
  | some ifNoneMatch =>
    if entityTagListMatches ifNoneMatch.toList etag etagIsUnambiguous .weak == some true then
      if safe then .notModified else .failed
    else further
  | none =>
    if safe then
      match headers.ifModifiedSince, lastModified with
      | some since, some lastModified => if notModifiedSince lastModified since then .notModified else further
      | _, _ => further
    else further

def evaluateWithResponseValidators (dates : HttpDates) (headers : ConditionalHeaders) (etag : Option (List Char))
    (etagIsUnambiguous : Bool) (lastModified : Option ℤ) (rangeRequested : Bool) : PreconditionResult :=
  let further := headers.evaluateNoneMatch dates etag etagIsUnambiguous lastModified rangeRequested
  match headers.ifMatch with
  | some ifMatch =>
    if entityTagListMatches ifMatch.toList etag etagIsUnambiguous .strong == some false then .failed else further
  | none =>
    match headers.ifUnmodifiedSince, lastModified with
    | some since, some lastModified => if modifiedAfter lastModified since then .failed else further
    | _, _ => further

/-- `ConditionalHeaders::evaluate`. -/
def evaluate (dates : HttpDates) (headers : ConditionalHeaders) (etag : Option (List Char)) (lastModified : Option ℤ)
    (rangeRequested : Bool) : PreconditionResult :=
  headers.evaluateWithResponseValidators dates etag true lastModified rangeRequested

end ConditionalHeaders

/-- `evaluate_preconditions`, for a request and the current validators. -/
def evaluatePreconditions (dates : HttpDates) (method : String) (req : Request) (etag : Option (List Char))
    (lastModified : Option ℤ) (rangeRequested : Bool) : PreconditionResult :=
  (ConditionalHeaders.fromRequest dates method req).evaluate dates etag lastModified rangeRequested

/-! ## Entity tags -/

def isEntityTagChar (c : Char) : Bool := c == '!' || ('#' ≤ c && c ≤ '~') || 0x80 ≤ c.toNat

structure EntityTag where
  weak : Bool
  value : List Char
  valid : ∀ c ∈ value, isEntityTagChar c = true

namespace EntityTag

def text (tag : EntityTag) : List Char := (if tag.weak then ['W', '/'] else []) ++ '"' :: (tag.value ++ ['"'])

def strongMatch (left right : EntityTag) : Bool := !left.weak && !right.weak && left.value == right.value

def weakMatch (left right : EntityTag) : Bool := left.value == right.value

def compare : TagComparison → EntityTag → EntityTag → Bool
  | .strong => strongMatch
  | .weak => weakMatch

theorem quote_not_mem (tag : EntityTag) : '"' ∉ tag.value := fun h => absurd (tag.valid _ h) (by decide)

theorem bare_text (tag : EntityTag) : Bare tag.text := by
  refine ⟨fun c hc => ?_, fun c hc => ?_⟩
  · unfold text at hc
    cases hweak : tag.weak with
    | true | false =>
      rw [hweak] at hc
      cases hc
      decide
  · have hlast : tag.text.getLast? = some '"' := by
      rw [text, ← cons_append, ← append_assoc, List.getLast?_concat]
    rw [hlast] at hc
    cases hc
    decide

theorem stripWeak_text (tag : EntityTag) : stripWeak tag.text = (tag.weak, '"' :: (tag.value ++ ['"'])) := by
  unfold text
  cases tag.weak with
  | true | false => rfl

theorem all_encode (tag : EntityTag) : (encode tag.value).all isEntityTagByte = true := by
  have hlow : ∀ b : UInt8, isEntityTagChar (Char.ofNat b.toNat) = true → isEntityTagByte b = true :=
    forall_byte (by decide +kernel)
  have hhigh : ∀ b : UInt8, 0x80 ≤ b → isEntityTagByte b = true := fun b hb => by
    rw [isEntityTagByte, Bool.or_eq_true, decide_eq_true hb]
    exact .inr rfl
  rw [all_eq_true]
  intro b hb
  obtain ⟨c, hc, hb⟩ := mem_flatMap.1 hb
  obtain ⟨first, others, hencode, -, hothers, hascii, hother⟩ := utf8EncodeChar_cases c
  rw [hencode] at hb
  rcases mem_cons.1 hb with rfl | hb
  · rcases Nat.lt_or_ge c.toNat 128 with hlt | hge
    · refine hlow b ?_
      rw [(hascii hlt).1, Char.ofNat_toNat]
      exact tag.valid c hc
    · exact hhigh b (hother hge)
  · exact hhigh b (hothers b hb)

end EntityTag

/-- An entity tag is read back. -/
theorem parseEntityTag_text (tag : EntityTag) : parseEntityTag tag.text = some (tag.weak, tag.value) := by
  have hlast : (tag.value ++ ['"']).getLast? = some '"' := List.getLast?_concat
  unfold parseEntityTag
  rw [trim_of_bare tag.bare_text, tag.stripWeak_text]
  show (if (tag.value ++ ['"']).getLast? = some '"' then _ else none) = _
  rw [if_pos hlast, dropLast_concat]
  exact if_pos tag.all_encode

theorem strongTagMatches_text (left right : EntityTag) : strongTagMatches left.text right.text = left.strongMatch right := by
  unfold strongTagMatches EntityTag.strongMatch
  rw [parseEntityTag_text, parseEntityTag_text]
  cases left.weak <;> cases right.weak <;> rfl

theorem weakTagMatches_text (left right : EntityTag) : weakTagMatches left.text right.text = left.weakMatch right := by
  unfold weakTagMatches EntityTag.weakMatch
  rw [parseEntityTag_text, parseEntityTag_text]

/-! ## Lists of entity tags -/

def Unsplit (text : List Char) : Prop :=
  ∀ rest, entityTagListFrom false (text ++ rest) = (entityTagListFrom false rest).modifyHead (text ++ ·)

theorem Unsplit.nil : Unsplit [] := fun rest => by
  rw [nil_append]
  cases entityTagListFrom false rest <;> rfl

theorem Unsplit.append {left right : List Char} (hleft : Unsplit left) (hright : Unsplit right) :
    Unsplit (left ++ right) := fun rest => by
  rw [append_assoc, hleft, hright, modifyHead_modifyHead]
  congr 1
  funext text
  exact (append_assoc _ _ _).symm

theorem Unsplit.plain {text : List Char} (h : ∀ c ∈ text, c ≠ '"' ∧ c ≠ ',') : Unsplit text := by
  induction text with
  | nil => exact .nil
  | cons c text ih =>
    obtain ⟨hquote, hcomma⟩ := h c mem_cons_self
    intro rest
    rw [cons_append, entityTagListFrom, if_neg hquote, if_neg fun hc => hcomma hc.1,
      ih (fun c hc => h c (mem_cons_of_mem _ hc)) rest, modifyHead_modifyHead]
    rfl

theorem entityTagListFrom_quoted {value : List Char} (h : '"' ∉ value) (rest : List Char) :
    entityTagListFrom true (value ++ '"' :: rest) =
      (entityTagListFrom false rest).modifyHead (value ++ '"' :: ·) := by
  induction value with
  | nil => rfl
  | cons c value ih =>
    rw [mem_cons, not_or] at h
    rw [cons_append, entityTagListFrom, if_neg (Ne.symm h.1), if_neg fun hc => absurd hc.2 (by decide), ih h.2,
      modifyHead_modifyHead]
    rfl

theorem EntityTag.unsplit (tag : EntityTag) : Unsplit tag.text := by
  have hquoted : Unsplit ('"' :: (tag.value ++ ['"'])) := fun rest => by
    rw [cons_append, append_assoc, singleton_append, entityTagListFrom, if_pos rfl]
    show (entityTagListFrom true _).modifyHead _ = _
    rw [entityTagListFrom_quoted tag.quote_not_mem, modifyHead_modifyHead]
    congr 1
    funext text
    simp
  refine Unsplit.append ?_ hquoted
  cases tag.weak with
  | true =>
    have hmark : Unsplit ['W', '/'] := .plain (by simp)
    exact hmark
  | false => exact .nil

theorem entityTagList_intercalate : ∀ {elements : List (List Char)}, elements ≠ [] →
    (∀ element ∈ elements, Unsplit element) → entityTagList ([','].intercalate elements) = elements
  | [element], _, h => by
    have hall := h element mem_cons_self []
    rw [append_nil] at hall
    rw [intercalate_singleton, entityTagList, hall]
    show [element ++ []] = _
    rw [append_nil]
  | element :: next :: rest, _, h => by
    have ih := entityTagList_intercalate (cons_ne_nil next rest) fun e he => h e (mem_cons_of_mem _ he)
    rw [intercalate_cons_cons, append_assoc, singleton_append, entityTagList,
      h element mem_cons_self, entityTagListFrom, if_neg (by decide), if_pos ⟨rfl, rfl⟩]
    show (element ++ []) :: entityTagList _ = _
    rw [ih, append_nil]

structure ListElement where
  before : List Char
  tag : Option EntityTag
  after : List Char
  blank : ∀ c ∈ before ++ after, isWhitespace c = true

namespace ListElement

/-- An element without the white space. -/
def bare (element : ListElement) : List Char := (element.tag.map EntityTag.text).getD []

def text (element : ListElement) : List Char := element.before ++ (element.bare ++ element.after)

theorem trim_text (element : ListElement) : trim element.text = element.bare := by
  have hbare : Bare element.bare := by
    unfold bare
    cases element.tag with
    | none => exact bare_of_forall fun c hc => absurd hc not_mem_nil
    | some tag => exact tag.bare_text
  rw [text, trim_append_left fun c hc => element.blank c (mem_append_left _ hc),
    trim_append_right fun c hc => element.blank c (mem_append_right _ hc), trim_of_bare hbare]

theorem unsplit (element : ListElement) : Unsplit element.text := by
  have hblank : ∀ c, isWhitespace c = true → c ≠ '"' ∧ c ≠ ',' := by
    intro c hc
    constructor
    · rintro rfl
      exact absurd hc (by decide)
    · rintro rfl
      exact absurd hc (by decide)
  have hbare : Unsplit element.bare := by
    unfold bare
    cases element.tag with
    | none => exact .nil
    | some tag => exact tag.unsplit
  exact (Unsplit.plain fun c hc => hblank c (element.blank c (mem_append_left _ hc))).append
    (hbare.append (Unsplit.plain fun c hc => hblank c (element.blank c (mem_append_right _ hc))))

end ListElement

theorem bare_ne_asterisk (element : ListElement) : element.bare ≠ ['*'] := by
  unfold ListElement.bare
  cases element.tag with
  | none => decide
  | some tag =>
    show tag.text ≠ _
    unfold EntityTag.text
    cases tag.weak with
    | true | false => exact fun h => absurd (List.cons.inj h).1 (by decide)

theorem tagMatches_bare (comparison : TagComparison) (element : ListElement) (current : EntityTag) :
    comparison.tagMatches element.bare current.text =
      element.tag.any fun tag => EntityTag.compare comparison tag current := by
  unfold ListElement.bare
  cases element.tag with
  | none => cases comparison <;> rfl
  | some tag =>
    cases comparison with
    | strong => exact strongTagMatches_text tag current
    | weak => exact weakTagMatches_text tag current

theorem any_filterMap_tag (elements : List ListElement) (p : EntityTag → Bool) :
    (elements.filterMap ListElement.tag).any p = elements.any fun element => element.tag.any p := by
  induction elements with
  | nil => rfl
  | cons element elements ih =>
    cases htag : element.tag with
    | none => rw [filterMap_cons_none htag, any_cons, htag, ih]; rfl
    | some tag => rw [filterMap_cons_some htag, any_cons, any_cons, htag, ih]; rfl

theorem entityTagListMatches_list {elements : List ListElement} (hne : elements ≠ []) (current : Option EntityTag)
    (comparison : TagComparison) :
    entityTagListMatches ([','].intercalate (elements.map ListElement.text)) (current.map EntityTag.text) true comparison =
      some ((elements.filterMap ListElement.tag).any fun tag => current.any (EntityTag.compare comparison tag)) := by
  have hunsplit : ∀ text ∈ elements.map ListElement.text, Unsplit text := by
    intro text htext
    obtain ⟨element, -, rfl⟩ := mem_map.1 htext
    exact element.unsplit
  have hasterisk : ((elements.map ListElement.text).any fun candidate => trim candidate == ['*']) = false := by
    rw [any_map, any_eq_false]
    intro element _ hbad
    rw [Function.comp_apply, element.trim_text, beq_iff_eq] at hbad
    exact bare_ne_asterisk element hbad
  unfold entityTagListMatches
  rw [entityTagList_intercalate (by simpa using hne) hunsplit]
  dsimp only
  rw [hasterisk, if_neg Bool.false_ne_true, if_neg (by decide), Option.some_inj, any_filterMap_tag, any_map]
  congr 1
  funext element
  rw [Function.comp_apply, element.trim_text]
  cases current with
  | none =>
    cases element.tag <;> rfl
  | some current => exact tagMatches_bare comparison element current

/-! ## Times -/

theorem seconds_of_nonneg {time : ℤ} (h : 0 ≤ time) : (seconds time : ℤ) = time / 10 ^ 9 := by
  rw [seconds, if_pos h]
  exact Int.toNat_of_nonneg (Int.ediv_nonneg h (by decide))

/-- Times are compared at whole seconds. -/
theorem seconds_lt_iff {s t : ℤ} (hs : 0 ≤ s) (ht : 0 ≤ t) : seconds s < seconds t ↔ s / 10 ^ 9 < t / 10 ^ 9 := by
  rw [← seconds_of_nonneg hs, ← seconds_of_nonneg ht, Int.ofNat_lt]

theorem seconds_inj {s t : ℤ} (hs : 0 ≤ s) (ht : 0 ≤ t) : seconds s = seconds t ↔ s / 10 ^ 9 = t / 10 ^ 9 := by
  rw [← seconds_of_nonneg hs, ← seconds_of_nonneg ht, Int.ofNat_inj]

end RustRest
