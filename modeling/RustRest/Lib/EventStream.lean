import Mathlib

/-!
# Event streams

The algorithm by which a client reads a stream of server-sent events: the text is cut into lines, each line changes the
buffers of the client, and an empty line dispatches the event.
-/

namespace EventStream

open List

/-! ## Lines -/

/-- No line end. -/
def Clean (line : List Char) : Prop := '\r' ∉ line ∧ '\n' ∉ line

instance (line : List Char) : Decidable (Clean line) := inferInstanceAs (Decidable ('\r' ∉ line ∧ '\n' ∉ line))

def piecesFrom (line : List Char) : List Char → List (List Char)
  | [] => [line]
  | '\r' :: '\n' :: rest => line :: piecesFrom [] rest
  | '\r' :: rest => line :: piecesFrom [] rest
  | '\n' :: rest => line :: piecesFrom [] rest
  | c :: rest => piecesFrom (line ++ [c]) rest

def pieces (text : List Char) : List (List Char) := piecesFrom [] text

def lines (text : List Char) : List (List Char) := (pieces text).dropLast

def normalizeNewlines : List Char → List Char
  | [] => []
  | '\r' :: '\n' :: rest => '\n' :: normalizeNewlines rest
  | '\r' :: rest => '\n' :: normalizeNewlines rest
  | c :: rest => c :: normalizeNewlines rest

theorem piecesFrom_ne_nil (line text : List Char) : piecesFrom line text ≠ [] := by
  fun_induction piecesFrom line text with
  | case1 | case2 | case3 | case4 => exact cons_ne_nil _ _
  | case5 line c rest _ _ _ ih => exact ih

theorem clean_of_mem_piecesFrom {line text piece : List Char} (hline : Clean line) (h : piece ∈ piecesFrom line text) :
    Clean piece := by
  have hnil : Clean [] := ⟨not_mem_nil, not_mem_nil⟩
  fun_induction piecesFrom line text with
  | case1 line => exact mem_singleton.1 h ▸ hline
  | case2 line rest ih | case3 line rest _ ih | case4 line rest ih =>
    rcases mem_cons.1 h with rfl | h
    · exact hline
    · exact ih hnil h
  | case5 line c rest _ hreturn hfeed ih =>
    refine ih ⟨?_, ?_⟩ h
    · rw [mem_append, mem_singleton, not_or]
      exact ⟨hline.1, fun hc => hreturn hc.symm⟩
    · rw [mem_append, mem_singleton, not_or]
      exact ⟨hline.2, fun hc => hfeed hc.symm⟩

theorem clean_of_mem_pieces {text piece : List Char} (h : piece ∈ pieces text) : Clean piece :=
  clean_of_mem_piecesFrom ⟨not_mem_nil, not_mem_nil⟩ h

theorem piecesFrom_append {line : List Char} (hline : Clean line) (read rest : List Char) :
    piecesFrom read (line ++ '\n' :: rest) = (read ++ line) :: pieces rest := by
  induction line generalizing read with
  | nil => rw [nil_append, piecesFrom, append_nil, pieces]
  | cons c line ih =>
    have hc : c ≠ '\r' ∧ c ≠ '\n' := ⟨fun h => hline.1 (h ▸ mem_cons_self), fun h => hline.2 (h ▸ mem_cons_self)⟩
    have hrest : Clean line := ⟨fun h => hline.1 (mem_cons_of_mem _ h), fun h => hline.2 (mem_cons_of_mem _ h)⟩
    rw [cons_append, piecesFrom, ih hrest, append_assoc, singleton_append]
    · exact fun _ h _ => hc.1 h
    · exact hc.1
    · exact hc.2

/-- A line without line ends is read as it was written. -/
theorem lines_append {line : List Char} (hline : Clean line) (rest : List Char) :
    lines (line ++ '\n' :: rest) = line :: lines rest := by
  rw [lines, pieces, piecesFrom_append hline, nil_append, lines]
  exact dropLast_cons_of_ne_nil (piecesFrom_ne_nil [] rest)

theorem lines_flatMap {written : List (List Char)} (h : ∀ line ∈ written, Clean line) (rest : List Char) :
    lines (written.flatMap (· ++ ['\n']) ++ rest) = written ++ lines rest := by
  induction written with
  | nil => rfl
  | cons line written ih =>
    rw [flatMap_cons, append_assoc, append_assoc, singleton_append,
      lines_append (h line mem_cons_self), ih fun l hl => h l (mem_cons_of_mem _ hl), cons_append]

theorem flatMap_piecesFrom (line text : List Char) :
    (piecesFrom line text).flatMap (· ++ ['\n']) = line ++ (normalizeNewlines text ++ ['\n']) := by
  fun_induction piecesFrom line text with
  | case1 line => simp [normalizeNewlines]
  | case2 line rest ih | case4 line rest ih => simp [normalizeNewlines, ih]
  | case3 line rest hnot ih =>
    rw [normalizeNewlines]
    · simp [ih]
    · exact hnot
  | case5 line c rest hboth hreturn hfeed ih =>
    rw [normalizeNewlines]
    · simp [ih]
    · exact hboth
    · exact hreturn

theorem flatMap_pieces (text : List Char) :
    (pieces text).flatMap (· ++ ['\n']) = normalizeNewlines text ++ ['\n'] :=
  flatMap_piecesFrom [] text

/-! ## Interpretation -/

/-- What the client keeps between two lines. -/
structure Buffers where
  data : List Char := []
  eventType : List Char := []
  lastEventId : List Char := []

structure Message where
  name : Option (List Char)
  data : List Char
  lastEventId : List Char
  deriving DecidableEq

inductive Effect
  | lastEventId (id : List Char)
  | reconnectionTime (time : ℕ)
  | message (message : Message)
  deriving DecidableEq

def dispatch (b : Buffers) : Buffers × List Effect :=
  ({ lastEventId := b.lastEventId },
    if b.data = [] then []
    else
      let data := if b.data.getLast? = some '\n' then b.data.dropLast else b.data
      let name := if b.eventType = [] then none else some b.eventType
      [.message { name, data, lastEventId := b.lastEventId }])

def processField (b : Buffers) (field value : List Char) : Buffers × List Effect :=
  if field = "event".toList then ({ b with eventType := value }, [])
  else if field = "data".toList then ({ b with data := b.data ++ (value ++ ['\n']) }, [])
  else if field = "id".toList then
    if '\x00' ∈ value then (b, []) else ({ b with lastEventId := value }, [.lastEventId value])
  else if field = "retry".toList then
    if value ≠ [] ∧ value.all Char.isDigit then (b, [.reconnectionTime (Nat.ofDigitChars 10 value 0)]) else (b, [])
  else (b, [])

/-- A value without the space after the colon. -/
def dropSpace : List Char → List Char
  | ' ' :: value => value
  | value => value

def processLine (b : Buffers) : List Char → Buffers × List Effect
  | [] => dispatch b
  | ':' :: _ => (b, [])
  | line => processField b (line.takeWhile (· ≠ ':')) (dropSpace ((line.dropWhile (· ≠ ':')).drop 1))

def run (b : Buffers) : List (List Char) → List Effect
  | [] => []
  | line :: lines => (processLine b line).2 ++ run (processLine b line).1 lines

/-- A decoded text without the byte order mark. -/
def dropBom : List Char → List Char
  | '\uFEFF' :: text => text
  | text => text

def interpret (text : List Char) : List Effect := run {} (lines (dropBom text))

/-! ## Runs -/

theorem run_comment (b : Buffers) (text : List Char) (rest : List (List Char)) :
    run b ((':' :: text) :: rest) = run b rest := by
  rw [run, processLine, nil_append]

theorem processLine_field (b : Buffers) {field : List Char} (hne : field ≠ []) (hcolon : ':' ∉ field) (value : List Char) :
    processLine b (field ++ ':' :: ' ' :: value) = processField b field value := by
  obtain ⟨c, field, rfl⟩ := exists_cons_of_ne_nil hne
  have hother : ∀ d ∈ c :: field, decide (d ≠ ':') = true := fun d hd => by
    rw [decide_eq_true_eq]
    exact fun h => hcolon (h ▸ hd)
  have hfield : ((c :: field) ++ ':' :: ' ' :: value).takeWhile (· ≠ ':') = c :: field := by
    rw [takeWhile_append_of_pos hother, takeWhile_cons_of_neg (by decide), append_nil]
  have hvalue : ((c :: field) ++ ':' :: ' ' :: value).dropWhile (· ≠ ':') = ':' :: ' ' :: value := by
    rw [dropWhile_append_of_pos hother, dropWhile_cons_of_neg (by decide)]
  rw [cons_append, processLine, ← cons_append, hfield, hvalue]
  · rfl
  · exact cons_ne_nil _ _
  · exact fun _ h => hcolon ((List.cons.inj h).1 ▸ mem_cons_self)

/-- A field line. -/
theorem run_field (b : Buffers) {field : List Char} (hne : field ≠ []) (hcolon : ':' ∉ field) (value : List Char)
    (rest : List (List Char)) : run b ((field ++ ':' :: ' ' :: value) :: rest) =
      (processField b field value).2 ++ run (processField b field value).1 rest := by
  rw [run, processLine_field b hne hcolon]

/-- The data lines fill the data buffer. -/
theorem run_data (b : Buffers) (values rest : List (List Char)) :
    run b (values.map ("data".toList ++ ':' :: ' ' :: ·) ++ rest) =
      run { b with data := b.data ++ values.flatMap (· ++ ['\n']) } rest := by
  induction values generalizing b with
  | nil => simp
  | cons value values ih =>
    rw [map_cons, cons_append, run_field b (by decide) (by decide)]
    show [] ++ run { b with data := b.data ++ (value ++ ['\n']) } _ = _
    rw [nil_append, ih, flatMap_cons, append_assoc]

/-- The empty line behind an event dispatches it. -/
theorem run_empty (b : Buffers) (data : List Char) (hdata : b.data = data ++ ['\n']) (rest : List (List Char)) :
    run b ([] :: rest) =
      .message ⟨if b.eventType = [] then none else some b.eventType, data, b.lastEventId⟩ ::
        run { lastEventId := b.lastEventId } rest := by
  have hne : b.data ≠ [] := by
    rw [hdata]
    exact append_ne_nil_of_right_ne_nil _ (cons_ne_nil _ _)
  rw [run, processLine, dispatch, if_neg hne, hdata, List.getLast?_concat, if_pos rfl, dropLast_concat]
  rfl

end EventStream
