import RustRest.Lib.EventStream
import RustRest.Text

/-!
# Server-sent events

`SseEvent` and its text, and what a client reads from the texts of a list of events.

Main result: **`sse_round_trip`**.
-/

namespace RustRest

open EventStream List

/-! ## Model -/

/-- `SseEvent`. -/
structure SseEvent where
  data : String
  event : Option String := none
  id : Option String := none
  retry : Option ℕ := none
  comment : Option String := none
  deriving DecidableEq

structure SseError where
  message : String
  deriving DecidableEq

def SseError.invalidField (field : String) : SseError :=
  ⟨"El campo SSE " ++ field ++ " no puede contener saltos de linea"⟩

def validateSingleLine (field value : String) : Except SseError Unit :=
  if '\r' ∈ value.toList ∨ '\n' ∈ value.toList then .error (.invalidField field) else .ok ()

def fieldText (field value : String) : String := field ++ ": " ++ value ++ "\n"

def pushField (out field : String) : Option String → Except SseError String
  | none => .ok out
  | some value => do
    validateSingleLine field value
    return out ++ fieldText field value

def appendDataLinesFrom (out line : String) : List Char → String
  | [] => out ++ fieldText "data" line
  | '\r' :: '\n' :: rest => appendDataLinesFrom (out ++ fieldText "data" line) "" rest
  | '\r' :: rest => appendDataLinesFrom (out ++ fieldText "data" line) "" rest
  | '\n' :: rest => appendDataLinesFrom (out ++ fieldText "data" line) "" rest
  | c :: rest => appendDataLinesFrom out (line.push c) rest

/-- One `data` line for each line of the text. -/
def appendDataLines (out data : String) : String := appendDataLinesFrom out "" data.toList

namespace SseEvent

/-- The lines of an event, and an empty one. -/
def tryFormat (event : SseEvent) : Except SseError String :=
  match event.comment with
  | some comment => do
    validateSingleLine "comment" comment
    return ": " ++ comment ++ "\n" ++ "\n"
  | none => do
    let out ← pushField "" "id" event.id
    let out ← pushField out "event" event.event
    let out := match event.retry with
      | some retry => out ++ fieldText "retry" (decimalText retry)
      | none => out
    return appendDataLines out event.data ++ "\n"

def singleLines (event : SseEvent) : List String :=
  match event.comment with
  | some comment => [comment]
  | none => event.id.toList ++ event.event.toList

def effects (event : SseEvent) (last : List Char) : List Effect :=
  (event.id.map fun id => Effect.lastEventId id.toList).toList ++
    ((event.retry.map Effect.reconnectionTime).toList ++
      [.message { name := (event.event.filter (· ≠ "")).map String.toList, data := normalizeNewlines event.data.toList,
                  lastEventId := (event.id.map String.toList).getD last }])

end SseEvent

def effectsOf (last : List Char) : List SseEvent → List Effect
  | [] => []
  | event :: events =>
    match event.comment with
    | some _ => effectsOf last events
    | none => event.effects last ++ effectsOf ((event.id.map String.toList).getD last) events

/-! ## The text as lines -/

def fieldLine (field value : String) : List Char := field.toList ++ ':' :: ' ' :: value.toList

theorem toList_fieldText (field value : String) : (fieldText field value).toList = fieldLine field value ++ ['\n'] := by
  simp [fieldText, fieldLine]

theorem toList_appendDataLinesFrom (out line : String) (rest : List Char) :
    (appendDataLinesFrom out line rest).toList =
      out.toList ++ ((piecesFrom line.toList rest).map ("data".toList ++ ':' :: ' ' :: ·)).flatMap (· ++ ['\n']) := by
  fun_induction appendDataLinesFrom out line rest with
  | case1 out line => simp [piecesFrom, toList_fieldText, fieldLine]
  | case2 out line rest ih | case4 out line rest ih =>
    rw [ih]
    simp [piecesFrom, toList_fieldText, fieldLine]
  | case3 out line rest hnot ih =>
    rw [ih, piecesFrom]
    · simp [toList_fieldText, fieldLine]
    · exact hnot
  | case5 out line c rest hboth hreturn hfeed ih =>
    rw [ih, piecesFrom, String.toList_push]
    · exact hboth
    · exact hreturn
    · exact hfeed

theorem toList_appendDataLines (out data : String) : (appendDataLines out data).toList =
    out.toList ++ ((pieces data.toList).map ("data".toList ++ ':' :: ' ' :: ·)).flatMap (· ++ ['\n']) :=
  toList_appendDataLinesFrom out "" data.toList

theorem validateSingleLine_ok {field value : String} (h : validateSingleLine field value = .ok ()) :
    Clean value.toList := by
  unfold validateSingleLine at h
  split at h
  · exact nomatch h
  · next hclean => exact not_or.1 hclean

theorem pushField_ok {out field text : String} {value : Option String} (h : pushField out field value = .ok text) :
    text.toList = out.toList ++ (value.toList.map (fieldLine field)).flatMap (· ++ ['\n']) ∧
      ∀ v ∈ value, Clean v.toList := by
  cases value with
  | none =>
    cases h
    simp
  | some value =>
    obtain ⟨u, hvalid, htext⟩ := bind_eq_ok.1 h
    cases htext
    refine ⟨by simp [toList_fieldText], fun v hv => ?_⟩
    cases hv
    exact validateSingleLine_ok hvalid

def SseEvent.writtenLines (event : SseEvent) : List (List Char) :=
  match event.comment with
  | some comment => [':' :: ' ' :: comment.toList, []]
  | none =>
    event.id.toList.map (fieldLine "id") ++ (event.event.toList.map (fieldLine "event") ++
      ((event.retry.map decimalText).toList.map (fieldLine "retry") ++
        ((pieces event.data.toList).map ("data".toList ++ ':' :: ' ' :: ·) ++ [[]])))

/-- The text of an event is the text of its lines. -/
theorem SseEvent.toList_of_tryFormat {event : SseEvent} {text : String} (h : event.tryFormat = .ok text) :
    text.toList = event.writtenLines.flatMap (· ++ ['\n']) ∧ ∀ value ∈ event.singleLines, Clean value.toList := by
  unfold tryFormat at h
  unfold writtenLines singleLines
  split at h
  · next comment hcomment =>
    obtain ⟨hvalid, htext⟩ := bind_unit_eq_ok.1 h
    cases htext
    refine ⟨by simp, fun value hvalue => ?_⟩
    rw [mem_singleton.1 hvalue]
    exact validateSingleLine_ok hvalid
  · next hcomment =>
    obtain ⟨afterId, hid, h⟩ := bind_eq_ok.1 h
    obtain ⟨afterEvent, hevent, htext⟩ := bind_eq_ok.1 h
    cases htext
    obtain ⟨hidText, hidClean⟩ := pushField_ok hid
    obtain ⟨heventText, heventClean⟩ := pushField_ok hevent
    refine ⟨?_, fun value hvalue => ?_⟩
    · cases event.retry <;>
        simp [toList_appendDataLines, hidText, heventText, toList_fieldText]
    · rcases mem_append.1 hvalue with hvalue | hvalue
      · exact hidClean value (Option.mem_toList.1 hvalue)
      · exact heventClean value (Option.mem_toList.1 hvalue)

theorem clean_fieldLine {field value : String} (hfield : Clean field.toList) (hvalue : Clean value.toList) :
    Clean (fieldLine field value) := by
  unfold Clean fieldLine at *
  simp [hfield, hvalue]

theorem clean_decimalText (n : ℕ) : Clean (decimalText n).toList := by
  rw [decimalText, String.toList_ofList]
  exact ⟨fun h => absurd (Nat.isDigit_of_mem_toDigits (by decide) (by decide) h) (by decide),
    fun h => absurd (Nat.isDigit_of_mem_toDigits (by decide) (by decide) h) (by decide)⟩

theorem SseEvent.clean_writtenLines {event : SseEvent} (h : ∀ value ∈ event.singleLines, Clean value.toList) :
    ∀ line ∈ event.writtenLines, Clean line := by
  have hempty : Clean [] := ⟨not_mem_nil, not_mem_nil⟩
  have hfield : ∀ name : String, Clean name.toList → ∀ value : Option String, (∀ v ∈ value, Clean v.toList) →
      ∀ line ∈ value.toList.map (fieldLine name), Clean line := by
    intro name hname value hvalue line hline
    obtain ⟨v, hv, rfl⟩ := mem_map.1 hline
    exact clean_fieldLine hname (hvalue v (Option.mem_toList.1 hv))
  intro line hline
  unfold singleLines at h
  unfold writtenLines at hline
  split at h
  · next comment hcomment =>
    rw [hcomment] at hline
    rcases mem_cons.1 hline with rfl | hline
    · have hclean := h comment mem_cons_self
      exact ⟨by simpa using hclean.1, by simpa using hclean.2⟩
    · exact mem_singleton.1 hline ▸ hempty
  · next hcomment =>
    rw [hcomment] at hline
    rcases mem_append.1 hline with hline | hline
    · exact hfield "id" (by decide) _ (fun v hv => h v (mem_append_left _ (Option.mem_toList.2 hv))) line hline
    rcases mem_append.1 hline with hline | hline
    · exact hfield "event" (by decide) _ (fun v hv => h v (mem_append_right _ (Option.mem_toList.2 hv))) line hline
    rcases mem_append.1 hline with hline | hline
    · refine hfield "retry" (by decide) _ (fun v hv => ?_) line hline
      obtain ⟨n, -, rfl⟩ := Option.map_eq_some_iff.1 hv
      exact clean_decimalText n
    rcases mem_append.1 hline with hline | hline
    · obtain ⟨piece, hpiece, rfl⟩ := mem_map.1 hline
      have hclean := clean_of_mem_pieces hpiece
      exact ⟨by simpa using hclean.1, by simpa using hclean.2⟩
    · exact mem_singleton.1 hline ▸ hempty

theorem pushField_of_clean {value : Option String} (h : ∀ v ∈ value, Clean v.toList) (out field : String) :
    ∃ text, pushField out field value = .ok text := by
  cases value with
  | none => exact ⟨out, rfl⟩
  | some v =>
    have hvalid : validateSingleLine field v = .ok () := if_neg (not_or.2 (h v rfl))
    exact ⟨_, bind_unit_eq_ok.2 ⟨hvalid, rfl⟩⟩

theorem SseEvent.tryFormat_of_clean {event : SseEvent} (h : ∀ value ∈ event.singleLines, Clean value.toList) :
    ∃ text, event.tryFormat = .ok text := by
  unfold singleLines at h
  unfold tryFormat
  cases hcomment : event.comment with
  | some comment =>
    rw [hcomment] at h
    have hvalid : validateSingleLine "comment" comment = .ok () := if_neg (not_or.2 (h comment mem_cons_self))
    exact ⟨_, bind_unit_eq_ok.2 ⟨hvalid, rfl⟩⟩
  | none =>
    rw [hcomment] at h
    obtain ⟨afterId, hid⟩ := pushField_of_clean
      (fun v hv => h v (mem_append_left _ (Option.mem_toList.2 hv))) "" "id"
    obtain ⟨afterEvent, hevent⟩ := pushField_of_clean
      (fun v hv => h v (mem_append_right _ (Option.mem_toList.2 hv))) afterId "event"
    exact ⟨_, bind_eq_ok.2 ⟨afterId, hid, bind_eq_ok.2 ⟨afterEvent, hevent, rfl⟩⟩⟩

theorem SseEvent.tryFormat_error_iff (event : SseEvent) : (∃ error, event.tryFormat = .error error) ↔
    ∃ value ∈ event.singleLines, '\r' ∈ value.toList ∨ '\n' ∈ value.toList := by
  constructor
  · rintro ⟨error, herror⟩
    by_contra hnone
    obtain ⟨text, htext⟩ := tryFormat_of_clean fun value hvalue =>
      not_or.1 fun hend => hnone ⟨value, hvalue, hend⟩
    rw [htext] at herror
    exact nomatch herror
  · rintro ⟨value, hvalue, hend⟩
    cases hformat : event.tryFormat with
    | error error => exact ⟨error, rfl⟩
    | ok text => exact absurd ((toList_of_tryFormat hformat).2 value hvalue) (not_and_or.2 (hend.imp not_not.2 not_not.2))

/-! ## What a client reads -/

theorem run_idLine (b : Buffers) {id : Option String} (hnul : ∀ v ∈ id, '\x00' ∉ v.toList) (rest : List (List Char)) :
    run b (id.toList.map (fieldLine "id") ++ rest) =
      (id.map fun v => Effect.lastEventId v.toList).toList ++
        run { b with lastEventId := (id.map String.toList).getD b.lastEventId } rest := by
  cases id with
  | none => rfl
  | some v =>
    show run b (fieldLine "id" v :: rest) = _
    rw [fieldLine, run_field b (by decide) (by decide), processField, if_neg (by decide), if_neg (by decide),
      if_pos rfl, if_neg (hnul v rfl)]
    rfl

theorem run_eventLine (b : Buffers) (event : Option String) (rest : List (List Char)) :
    run b (event.toList.map (fieldLine "event") ++ rest) =
      run { b with eventType := (event.map String.toList).getD b.eventType } rest := by
  cases event with
  | none => rfl
  | some v =>
    show run b (fieldLine "event" v :: rest) = _
    rw [fieldLine, run_field b (by decide) (by decide)]
    rfl

theorem run_retryLine (b : Buffers) (retry : Option ℕ) (rest : List (List Char)) :
    run b ((retry.map decimalText).toList.map (fieldLine "retry") ++ rest) =
      (retry.map Effect.reconnectionTime).toList ++ run b rest := by
  cases retry with
  | none => rfl
  | some n =>
    have hdigits : Nat.toDigits 10 n ≠ [] ∧ (Nat.toDigits 10 n).all Char.isDigit = true :=
      ⟨Nat.toDigits_ne_nil, all_eq_true.2 fun c hc => Nat.isDigit_of_mem_toDigits (by decide) (by decide) hc⟩
    show run b (fieldLine "retry" (decimalText n) :: rest) = _
    rw [fieldLine, run_field b (by decide) (by decide), processField, if_neg (by decide), if_neg (by decide),
      if_neg (by decide), if_pos rfl, decimalText, String.toList_ofList, if_pos hdigits, Nat.ofDigitChars_ten_toDigits]
    rfl

theorem name_eq_filter (event : Option String) :
    (if (event.map String.toList).getD [] = [] then none else some ((event.map String.toList).getD [])) =
      (event.filter (· ≠ "")).map String.toList := by
  cases event with
  | none => rfl
  | some name =>
    by_cases hname : name = ""
    · rw [hname]
      rfl
    · simp [Option.filter, hname]

theorem run_writtenLines {event : SseEvent} (hnul : ∀ id ∈ event.id, '\x00' ∉ id.toList) (last : List Char)
    (rest : List (List Char)) : run { lastEventId := last } (event.writtenLines ++ rest) =
      match event.comment with
      | some _ => run { lastEventId := last } rest
      | none => event.effects last ++ run { lastEventId := (event.id.map String.toList).getD last } rest := by
  unfold SseEvent.writtenLines
  cases event.comment with
  | some comment =>
    -- without data the empty line behind the comment dispatches nothing
    show run { lastEventId := last } ((':' :: ' ' :: comment.toList) :: [] :: rest) = _
    rw [run_comment]
    rfl
  | none =>
    simp only [append_assoc]
    rw [run_idLine _ hnul, run_eventLine, run_retryLine, run_data, singleton_append,
      run_empty _ (normalizeNewlines event.data.toList) (flatMap_pieces _), name_eq_filter]
    simp only [SseEvent.effects, append_assoc, singleton_append]

theorem run_lines_texts {events : List SseEvent} {texts : List String}
    (h : List.Forall₂ (fun event text => event.tryFormat = .ok text) events texts)
    (hnul : ∀ event ∈ events, ∀ id ∈ event.id, '\x00' ∉ id.toList) (last : List Char) :
    run { lastEventId := last } (lines (texts.flatMap String.toList)) = effectsOf last events := by
  induction h generalizing last with
  | nil => rfl
  | @cons event text events texts hevent _ ih =>
    obtain ⟨htext, hclean⟩ := SseEvent.toList_of_tryFormat hevent
    have hrest := ih fun e he => hnul e (mem_cons_of_mem _ he)
    rw [flatMap_cons, htext, lines_flatMap (SseEvent.clean_writtenLines hclean),
      run_writtenLines (hnul event mem_cons_self), effectsOf]
    cases event.comment with
    | some comment => exact hrest last
    | none =>
      dsimp only
      rw [hrest]

theorem dropBom_writtenLines (event : SseEvent) (rest : List Char) :
    dropBom (event.writtenLines.flatMap (· ++ ['\n']) ++ rest) = event.writtenLines.flatMap (· ++ ['\n']) ++ rest := by
  unfold SseEvent.writtenLines
  obtain ⟨piece, others, hpieces⟩ := exists_cons_of_ne_nil (piecesFrom_ne_nil [] event.data.toList)
  rw [pieces, hpieces]
  cases event.comment with
  | some comment => rfl
  | none =>
    cases event.id with
    | some id => rfl
    | none =>
      cases event.event with
      | some name => rfl
      | none => cases event.retry <;> rfl

/-- **The client sees the events that were sent.** From the texts of a list of events a client reads each event that is
not a comment, in order, with its id, its reconnection time, its name and its data, and nothing else. An event has no
text exactly if a line end stands in its comment, or, without a comment, in its id or name. -/
theorem sse_round_trip (events : List SseEvent) (texts : List String)
    (h : List.Forall₂ (fun event text => event.tryFormat = .ok text) events texts)
    (hnul : ∀ event ∈ events, ∀ id ∈ event.id, '\x00' ∉ id.toList) :
    interpret (texts.flatMap String.toList) = effectsOf [] events ∧
      ∀ event : SseEvent, (∃ error, event.tryFormat = .error error) ↔
        ∃ value ∈ event.singleLines, '\r' ∈ value.toList ∨ '\n' ∈ value.toList := by
  refine ⟨?_, SseEvent.tryFormat_error_iff⟩
  rw [interpret, ← run_lines_texts h hnul []]
  cases h with
  | nil => rfl
  | @cons event text events texts hevent hrest =>
    rw [flatMap_cons, (SseEvent.toList_of_tryFormat hevent).1, dropBom_writtenLines]

theorem sse_round_trip_injection :
    let events : List SseEvent := [⟨"safe\rid: injected\r\n\n", some "", some " 7", some 10, none⟩,
      ⟨"", none, some "8", none, some "ping"⟩, ⟨"", some "tick", none, none, none⟩]
    let texts : List String := ["id:  7\nevent: \nretry: 10\ndata: safe\ndata: id: injected\ndata: \ndata: \n\n",
      ": ping\n\n", "event: tick\ndata: \n\n"]
    interpret (texts.flatMap String.toList) = effectsOf [] events ∧
      ∀ event : SseEvent, (∃ error, event.tryFormat = .error error) ↔
        ∃ value ∈ event.singleLines, '\r' ∈ value.toList ∨ '\n' ∈ value.toList := by
  intro events texts
  refine sse_round_trip events texts ?_ ?_
  · exact .cons (by decide +kernel) (.cons (by decide +kernel) (.cons (by decide +kernel) .nil))
  · decide +kernel

end RustRest
