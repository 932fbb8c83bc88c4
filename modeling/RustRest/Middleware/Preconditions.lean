import RustRest.Lib.Search
import RustRest.Middleware.Conditional

/-!
# Preconditions in order

What the conditions of a request ask for, apart from how they are written, and the order of RFC 9110 in which they are
evaluated. The header fields of a request carry such conditions: entity tags with commas in them, with white space
around them and on several lines, and dates.

Main result: **`preconditions_in_order`**.
-/

namespace RustRest

open Search List

/-! ## The conditions -/

inductive TagCondition where
  | any
  | tags (listed : List EntityTag)

inductive RangeCondition where
  | tag (tag : EntityTag)
  | date (date : ℤ)

structure Conditions where
  ifMatch : Option TagCondition
  ifUnmodifiedSince : Option ℤ
  ifNoneMatch : Option TagCondition
  ifModifiedSince : Option ℤ
  ifRange : Option RangeCondition
  range : Bool

/-- The second in which a time lies. -/
def wholeSecond (time : ℤ) : ℤ := time / 10 ^ 9

def TagCondition.lists (comparison : TagComparison) (current : Option EntityTag) : TagCondition → Bool
  | .any => true
  | .tags listed => listed.any fun tag => current.any (EntityTag.compare comparison tag)

def RangeCondition.holds (current : Option EntityTag) (lastModified : Option ℤ) : RangeCondition → Bool
  | .tag expected => current.any expected.strongMatch
  | .date expected => lastModified.any fun modified => wholeSecond modified == wholeSecond expected

namespace Conditions

variable (conditions : Conditions) (method : String) (current : Option EntityTag) (lastModified : Option ℤ)

def selected : Bool :=
  match conditions.ifMatch with
  | some tags => tags.lists .strong current
  | none =>
    match conditions.ifUnmodifiedSince, lastModified with
    | some date, some modified => wholeSecond modified ≤ wholeSecond date
    | _, _ => true

def changed (retrieves : Bool) : Bool :=
  match conditions.ifNoneMatch with
  | some tags => !tags.lists .weak current
  | none =>
    match conditions.ifModifiedSince, lastModified with
    | some date, some modified => !retrieves || wholeSecond date < wholeSecond modified
    | _, _ => true

/-- `If-Range`. -/
def rangeApplies : Bool :=
  match conditions.ifRange with
  | none => true
  | some range => range.holds current lastModified

def evaluate (rangeRequested : Bool) : PreconditionResult :=
  let retrieves := method == "GET" || method == "HEAD"
  if !conditions.selected current lastModified then .failed
  else if !conditions.changed current lastModified retrieves then if retrieves then .notModified else .failed
  else if rangeRequested && conditions.range && !conditions.rangeApplies current lastModified then .ignoreRange
  else .proceed

end Conditions

/-! ## How a request carries them -/

def listLine (elements : List ListElement) : String := String.ofList ([','].intercalate (elements.map ListElement.text))

/-- The lines of `If-Match` or `If-None-Match`. -/
inductive TagCondition.Written : TagCondition → List String → Prop
  | any {line : String} : trim line.toList = ['*'] → Written .any [line]
  | tags {lines : List (List ListElement)} : lines ≠ [] → (∀ line ∈ lines, line ≠ []) →
      Written (.tags (lines.flatten.filterMap ListElement.tag)) (lines.map listLine)

inductive DateWritten (dates : HttpDates) : ℤ → List String → Prop
  | date {text : String} {date : ℤ} : dates.parse text = some date → DateWritten dates date [text]

inductive RangeCondition.Written (dates : HttpDates) : RangeCondition → List String → Prop
  | tag {tag : EntityTag} {line : String} : trim line.toList = tag.text → Written dates (.tag tag) [line]
  | date {date : ℤ} {lines : List String} : DateWritten dates date lines → Written dates (.date date) lines

/-- The lines of a field that may be missing. -/
inductive FieldWritten {α : Type} (written : α → List String → Prop) : Option α → List String → Prop
  | missing : FieldWritten written none []
  | present {value : α} {lines : List String} : written value lines → FieldWritten written (some value) lines

structure Conditions.CarriedBy (dates : HttpDates) (req : Request) (conditions : Conditions) : Prop where
  ifMatch : FieldWritten TagCondition.Written conditions.ifMatch (req.headersAll "if-match")
  ifUnmodifiedSince :
    FieldWritten (DateWritten dates) conditions.ifUnmodifiedSince (req.headersAll "if-unmodified-since")
  ifNoneMatch : FieldWritten TagCondition.Written conditions.ifNoneMatch (req.headersAll "if-none-match")
  ifModifiedSince : FieldWritten (DateWritten dates) conditions.ifModifiedSince (req.headersAll "if-modified-since")
  ifRange : FieldWritten (RangeCondition.Written dates) conditions.ifRange (req.headersAll "if-range")
  range : conditions.range = !(req.headersAll "range").isEmpty

/-! ## Lists of tags -/

theorem toList_intercalate_listLine {lines : List (List ListElement)} (h : ∀ line ∈ lines, line ≠ []) :
    (",".intercalate (lines.map listLine)).toList = [','].intercalate (lines.flatten.map ListElement.text) := by
  have hlines : (lines.map listLine).map String.toList =
      (lines.map (List.map ListElement.text)).map [','].intercalate := by
    rw [map_map, map_map]
    refine map_congr_left fun line _ => ?_
    exact String.toList_ofList
  rw [String.toList_intercalate, hlines, map_flatten]
  refine intercalate_flatten [','] fun line hline => ?_
  obtain ⟨elements, helements, rfl⟩ := mem_map.1 hline
  simpa using h elements helements

variable {lines : List String}

/-- **What the lines of a list say.** -/
theorem entityTagListMatches_written {condition : TagCondition} (h : condition.Written lines)
    (current : Option EntityTag) (comparison : TagComparison) :
    entityTagListMatches (",".intercalate lines).toList (current.map EntityTag.text) true comparison =
      some (condition.lists comparison current) := by
  cases h with
  | @any line htrim =>
    have hplain : Unsplit line.toList := by
      refine .plain fun c hc => ⟨?_, ?_⟩
      · rintro rfl
        rw [← mem_trim_iff (by decide), htrim] at hc
        exact absurd hc (by decide)
      · rintro rfl
        rw [← mem_trim_iff (by decide), htrim] at hc
        exact absurd hc (by decide)
    have hlist : entityTagList line.toList = [line.toList] := by
      have hall := hplain []
      rw [append_nil] at hall
      rw [entityTagList, hall]
      show [line.toList ++ []] = _
      rw [append_nil]
    rw [String.intercalate_singleton, entityTagListMatches, hlist, any_cons, htrim]
    rfl
  | @tags lines hne hlines =>
    rw [toList_intercalate_listLine hlines]
    refine entityTagListMatches_list ?_ current comparison
    obtain ⟨line, rest, rfl⟩ := exists_cons_of_ne_nil hne
    exact append_ne_nil_of_left_ne_nil (hlines line mem_cons_self) _

theorem TagCondition.Written.ne_nil {condition : TagCondition} (h : condition.Written lines) :
    lines ≠ [] := by
  cases h with
  | any _ => exact cons_ne_nil _ _
  | tags hne _ => simpa using hne

/-! ## Ranges and dates -/

theorem DateWritten.nonneg {dates : HttpDates} {date : ℤ} (h : DateWritten dates date lines) :
    0 ≤ date := by
  cases h with
  | date hparse => exact dates.nonneg _ _ hparse

theorem date_nonneg {dates : HttpDates} {date : Option ℤ}
    (h : FieldWritten (DateWritten dates) date lines) : ∀ d ∈ date, 0 ≤ d := by
  rintro d rfl
  cases h with
  | present hwritten => exact hwritten.nonneg

theorem modifiedAfter_eq {modified date : ℤ} (hmodified : 0 ≤ modified) (hdate : 0 ≤ date) :
    modifiedAfter modified date = !decide (wholeSecond modified ≤ wholeSecond date) := by
  rw [modifiedAfter, ← decide_not, decide_eq_decide, not_le]
  exact seconds_lt_iff hdate hmodified

theorem notModifiedSince_eq {modified date : ℤ} (hmodified : 0 ≤ modified) (hdate : 0 ≤ date) :
    notModifiedSince modified date = !decide (wholeSecond date < wholeSecond modified) := by
  rw [notModifiedSince, ← decide_not, decide_eq_decide, not_lt, ← not_lt]
  exact (not_congr (seconds_lt_iff hdate hmodified)).trans not_lt

/-- **What the line of `If-Range` says.** -/
theorem ifRangeMatches_written {dates : HttpDates} {condition : RangeCondition}
    (h : condition.Written dates lines) (current : Option EntityTag) {lastModified : Option ℤ}
    (hmodified : ∀ modified ∈ lastModified, 0 ≤ modified) : ∃ line, lines = [line] ∧
      ifRangeMatches dates line.toList (current.map EntityTag.text) lastModified =
        condition.holds current lastModified := by
  cases h with
  | @tag tag line htrim =>
    have hfront : tag.text.head? = some '"' ∨ ['W', '/'] <+: tag.text := by
      unfold EntityTag.text
      cases tag.weak with
      | true => exact .inr (prefix_append _ _)
      | false => exact .inl rfl
    refine ⟨line, rfl, ?_⟩
    unfold ifRangeMatches
    rw [htrim]
    dsimp only
    rw [if_pos hfront]
    cases current with
    | none => rfl
    | some current => exact strongTagMatches_text tag current
  | @date date lines hdate =>
    have hnonneg := hdate.nonneg
    cases hdate with
    | @date line _ hparse =>
      have htrimmed := dates.parse_trim line date hparse
      obtain ⟨hquote, hweak⟩ := dates.not_tag _ (Option.isSome_of_eq_some htrimmed)
      rw [String.toList_ofList] at hquote hweak
      refine ⟨line, rfl, ?_⟩
      unfold ifRangeMatches
      dsimp only
      rw [if_neg (not_or.2 ⟨hquote, hweak⟩), htrimmed]
      cases lastModified with
      | none => rfl
      | some modified =>
        show (seconds modified == seconds date) = (wholeSecond modified == wholeSecond date)
        rw [Bool.eq_iff_iff, beq_iff_eq, beq_iff_eq]
        exact seconds_inj (hmodified modified rfl) hnonneg

/-! ## The fields of a request -/

section Fields

variable {dates : HttpDates} {req : Request} {name : String}

theorem combinedHeader_written (hreq : req.Agrees) {condition : Option TagCondition}
    (h : FieldWritten TagCondition.Written condition (req.headersAll name)) :
    req.combinedHeader name = condition.map fun _ => ",".intercalate (req.headersAll name) := by
  have hheader : req.header name = (req.headersAll name).getLast? := hreq.header_eq name
  unfold Request.combinedHeader
  rw [hheader]
  generalize req.headersAll name = lines at h ⊢
  cases h with
  | missing => rfl
  | present hwritten =>
    obtain ⟨line, lines, rfl⟩ := exists_cons_of_ne_nil hwritten.ne_nil
    rfl

theorem entityTagListMatches_field {condition : Option TagCondition} {tags : TagCondition}
    (h : FieldWritten TagCondition.Written condition (req.headersAll name)) (hsome : condition = some tags)
    (current : Option EntityTag) (comparison : TagComparison) :
    entityTagListMatches (",".intercalate (req.headersAll name)).toList (current.map EntityTag.text) true comparison =
      some (tags.lists comparison current) := by
  subst hsome
  cases h with
  | present hwritten => exact entityTagListMatches_written hwritten current comparison

theorem singletonRequestHeader_written (hreq : req.Agrees) {date : Option ℤ}
    (h : FieldWritten (DateWritten dates) date (req.headersAll name)) :
    (req.singletonRequestHeader name).bind dates.parse = date := by
  have hheader : req.header name = (req.headersAll name).getLast? := hreq.header_eq name
  unfold Request.singletonRequestHeader
  rw [hheader]
  generalize req.headersAll name = lines at h ⊢
  cases h with
  | missing => rfl
  | present hwritten =>
    cases hwritten with
    | date hparse => exact hparse

theorem RangeCondition.Written.exists_line {range : RangeCondition} {lines : List String}
    (h : range.Written dates lines) : ∃ line, lines = [line] := by
  cases h with
  | tag _ => exact ⟨_, rfl⟩
  | date hdate =>
    cases hdate with
    | date _ => exact ⟨_, rfl⟩

theorem singletonRequestHeaderState_written (hreq : req.Agrees) {condition : Option RangeCondition}
    (h : FieldWritten (RangeCondition.Written dates) condition (req.headersAll name)) :
    condition = none ∧ req.singletonRequestHeaderState name = .missing ∨ ∃ range line, condition = some range ∧
      req.singletonRequestHeaderState name = .value line ∧ range.Written dates [line] := by
  have hheader : req.header name = (req.headersAll name).getLast? := hreq.header_eq name
  unfold Request.singletonRequestHeaderState
  rw [hheader]
  generalize req.headersAll name = lines at h ⊢
  cases h with
  | missing => exact .inl ⟨rfl, rfl⟩
  | @present range _ hwritten =>
    obtain ⟨line, rfl⟩ := hwritten.exists_line
    exact .inr ⟨range, line, rfl, rfl, hwritten⟩

end Fields

/-! ## The steps -/

section Steps

variable {dates : HttpDates} {req : Request} {conditions : Conditions} {method : String} {current : Option EntityTag}
  {lastModified : Option ℤ} {rangeRequested : Bool}

theorem evaluateRange_written (hreq : req.Agrees) (h : conditions.CarriedBy dates req)
    (hmodified : ∀ modified ∈ lastModified, 0 ≤ modified) :
    (ConditionalHeaders.fromRequest dates method req).evaluateRange dates (current.map EntityTag.text) lastModified
      rangeRequested =
      if rangeRequested && conditions.range && !conditions.rangeApplies current lastModified then .ignoreRange
      else .proceed := by
  have hrange : (ConditionalHeaders.fromRequest dates method req).hasRange = conditions.range := by
    show (req.header "range").isSome = _
    rw [hreq.header_eq "range", h.range]
    cases req.headersAll "range" with
    | nil => rfl
    | cons line lines => rw [List.getLast?_cons, Option.isSome_some, isEmpty_cons, Bool.not_false]
  have hstate : (ConditionalHeaders.fromRequest dates method req).ifRange =
      req.singletonRequestHeaderState "if-range" := rfl
  unfold ConditionalHeaders.evaluateRange Conditions.rangeApplies
  rw [hrange, hstate]
  cases rangeRequested && conditions.range with
  | false => rfl
  | true =>
    rcases singletonRequestHeaderState_written hreq h.ifRange with ⟨hnone, hmissing⟩ | ⟨range, line, hsome, hvalue, hline⟩
    · rw [hnone, hmissing]
      rfl
    · obtain ⟨line', heq, hmatches⟩ := ifRangeMatches_written hline current hmodified
      cases heq
      rw [hsome, hvalue]
      dsimp only
      rw [hmatches, Bool.true_and]
      rfl

theorem evaluateNoneMatch_written (hreq : req.Agrees) (h : conditions.CarriedBy dates req)
    (hmodified : ∀ modified ∈ lastModified, 0 ≤ modified) :
    let retrieves := method == "GET" || method == "HEAD"
    (ConditionalHeaders.fromRequest dates method req).evaluateNoneMatch dates (current.map EntityTag.text) true
      lastModified rangeRequested =
      if !conditions.changed current lastModified retrieves then if retrieves then .notModified else .failed
      else (ConditionalHeaders.fromRequest dates method req).evaluateRange dates (current.map EntityTag.text) lastModified
        rangeRequested := by
  intro retrieves
  have htags : (ConditionalHeaders.fromRequest dates method req).ifNoneMatch =
      conditions.ifNoneMatch.map fun _ => ",".intercalate (req.headersAll "if-none-match") :=
    combinedHeader_written hreq h.ifNoneMatch
  have hdate : (ConditionalHeaders.fromRequest dates method req).ifModifiedSince = conditions.ifModifiedSince :=
    singletonRequestHeader_written hreq h.ifModifiedSince
  have hmethod : (ConditionalHeaders.fromRequest dates method req).method = method := rfl
  unfold ConditionalHeaders.evaluateNoneMatch Conditions.changed
  dsimp only
  rw [htags, hdate, hmethod]
  cases hcondition : conditions.ifNoneMatch with
  | some tags =>
    show _ = if !!tags.lists .weak current then _ else _
    dsimp only [Option.map_some]
    rw [entityTagListMatches_field h.ifNoneMatch hcondition current .weak]
    cases tags.lists .weak current <;> rfl
  | none =>
    dsimp only [Option.map_none]
    cases hdated : conditions.ifModifiedSince with
    | none => exact ite_self _
    | some date =>
      cases lastModified with
      | none => exact ite_self _
      | some modified =>
        dsimp only
        rw [notModifiedSince_eq (hmodified modified rfl) (date_nonneg h.ifModifiedSince date hdated)]
        show (if retrieves = true then _ else _) =
          if !(!retrieves || decide (wholeSecond date < wholeSecond modified)) then _ else _
        cases retrieves <;> cases decide (wholeSecond date < wholeSecond modified) <;> rfl

theorem evaluate_written (hreq : req.Agrees) (h : conditions.CarriedBy dates req)
    (hmodified : ∀ modified ∈ lastModified, 0 ≤ modified) :
    (ConditionalHeaders.fromRequest dates method req).evaluate dates (current.map EntityTag.text) lastModified
      rangeRequested =
      if !conditions.selected current lastModified then .failed
      else (ConditionalHeaders.fromRequest dates method req).evaluateNoneMatch dates (current.map EntityTag.text) true
        lastModified rangeRequested := by
  have htags : (ConditionalHeaders.fromRequest dates method req).ifMatch =
      conditions.ifMatch.map fun _ => ",".intercalate (req.headersAll "if-match") :=
    combinedHeader_written hreq h.ifMatch
  have hdate : (ConditionalHeaders.fromRequest dates method req).ifUnmodifiedSince = conditions.ifUnmodifiedSince :=
    singletonRequestHeader_written hreq h.ifUnmodifiedSince
  unfold ConditionalHeaders.evaluate ConditionalHeaders.evaluateWithResponseValidators Conditions.selected
  dsimp only
  rw [htags, hdate]
  cases hcondition : conditions.ifMatch with
  | some tags =>
    show _ = if !tags.lists .strong current then _ else _
    dsimp only [Option.map_some]
    rw [entityTagListMatches_field h.ifMatch hcondition current .strong]
    cases tags.lists .strong current <;> rfl
  | none =>
    dsimp only [Option.map_none]
    cases hdated : conditions.ifUnmodifiedSince with
    | none => rfl
    | some date =>
      cases lastModified with
      | none => rfl
      | some modified =>
        dsimp only
        rw [modifiedAfter_eq (hmodified modified rfl) (date_nonneg h.ifUnmodifiedSince date hdated)]

end Steps

/-! ## The result -/

/-- **Preconditions in order.** For every request that carries conditions, and every current entity tag and time of the
last modification, `evaluate_preconditions` gives the result of the evaluation in order; and a list of entity tags
matches exactly when one of its tags compares equal to the current one. -/
theorem preconditions_in_order (dates : HttpDates) (origin : RequestOrigin) (calls : List HeaderCall) (method : String)
    (conditions : Conditions) (current : Option EntityTag) (lastModified : Option ℤ) (rangeRequested : Bool)
    (hcarried : conditions.CarriedBy dates (calls.foldl Request.perform origin.request))
    (hmodified : ∀ modified ∈ lastModified, 0 ≤ modified) :
    evaluatePreconditions dates method (calls.foldl Request.perform origin.request) (current.map EntityTag.text)
        lastModified rangeRequested = conditions.evaluate method current lastModified rangeRequested ∧
      ∀ (comparison : TagComparison) (listed : List EntityTag) (lines : List String),
        (TagCondition.tags listed).Written lines →
        (entityTagListMatches (",".intercalate lines).toList (current.map EntityTag.text) true comparison = some true ↔
          ∃ tag ∈ listed, ∃ now, current = some now ∧ EntityTag.compare comparison tag now = true) := by
  have hreq := agrees_run origin calls
  refine ⟨?_, fun comparison listed lines hlines => ?_⟩
  · rw [evaluatePreconditions, evaluate_written hreq hcarried hmodified, evaluateNoneMatch_written hreq hcarried hmodified,
      evaluateRange_written hreq hcarried hmodified]
    rfl
  · rw [entityTagListMatches_written hlines, Option.some_inj, TagCondition.lists, any_eq_true]
    refine exists_congr fun tag => and_congr_right fun _ => ?_
    rw [Option.any_eq_true]

def oneDate : HttpDates where
  parse text := if text = "Sun, 06 Nov 1994 08:49:37 GMT" then some (784111777 * 10 ^ 9) else none
  parse_trim text date h := by
    split at h
    · next hdate => rw [hdate, ← h]; decide
    · cases h
  not_tag text h := by
    split at h
    · next hdate => rw [hdate]; decide
    · cases h
  nonneg text date h := by
    split at h
    · cases h; decide
    · cases h

/-- `If-Match` on two lines, with a comma in the tag that matches, and `If-Modified-Since`. -/
theorem preconditions_in_order_two :
    let builder := ((RequestBuilder.new.header "If-Match" "W/\"x\", ").header "If-Match" " \"a,b\"").header
      "If-Modified-Since" "Sun, 06 Nov 1994 08:49:37 GMT"
    evaluatePreconditions oneDate "GET" builder.build (some "\"a,b\"".toList) (some 784111777500000000) false =
      .notModified := by
  intro builder
  let weak : EntityTag := ⟨true, ['x'], all_eq_true.1 (by decide)⟩
  let strong : EntityTag := ⟨false, ['a', ',', 'b'], all_eq_true.1 (by decide)⟩
  let conditions : Conditions := {
    ifMatch := some (.tags [weak, strong])
    ifUnmodifiedSince := none
    ifNoneMatch := none
    ifModifiedSince := some (784111777 * 10 ^ 9)
    ifRange := none
    range := false }
  let lines : List (List ListElement) := [[⟨[], some weak, [], all_eq_true.1 (by decide)⟩,
    ⟨[' '], none, [], all_eq_true.1 (by decide)⟩], [⟨[' '], some strong, [], all_eq_true.1 (by decide)⟩]]
  have hne : lines ≠ [] := cons_ne_nil _ _
  have hlines : (TagCondition.tags [weak, strong]).Written (lines.map listLine) := .tags hne (by simp [lines])
  have hdate : oneDate.parse "Sun, 06 Nov 1994 08:49:37 GMT" = some (784111777 * 10 ^ 9) := by decide
  have hcarried : conditions.CarriedBy oneDate ([].foldl Request.perform (RequestOrigin.built builder).request) := {
    ifMatch := .present hlines
    ifUnmodifiedSince := .missing
    ifNoneMatch := .missing
    ifModifiedSince := .present (.date hdate)
    ifRange := .missing
    range := rfl }
  exact (preconditions_in_order oneDate (.built builder) [] "GET" conditions (some strong) (some 784111777500000000) false
    hcarried (by simp)).1

end RustRest
