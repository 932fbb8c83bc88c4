import RustRest.Http1.ContentLength

/-!
# The body of a request

A body is read in one of two ways: `collect` gathers its chunks in a buffer, `take_stream` hands them out one by one.
Each has its own check of the limit.

Main result: **`collect_agrees_stream`**.
-/

namespace RustRest

variable {E : Type}

/-! ## The model -/

/-- `BoxError`, as far as `body_read` looks into it: `BodyLimitExceeded`, or an error of the source. -/
inductive BodyError (E : Type) where
  | limitExceeded (limit : ℕ)
  | source (error : E)
  deriving DecidableEq

/-- An `HttpError` with the error that caused it. -/
structure BodyFailure (E : Type) extends HttpError where
  cause : Option (BodyError E)
  deriving DecidableEq

def bodyRead : BodyError E → BodyFailure E
  | .limitExceeded limit => ⟨payloadTooLargeLimit limit, some (.limitExceeded limit)⟩
  | .source error => ⟨.new 400 "body_read" "No se pudo leer el cuerpo de la solicitud", some (.source error)⟩

def bodyAlreadyConsumed : BodyFailure E :=
  ⟨.new 400 "body_already_consumed" "El cuerpo de la solicitud ya fue consumido", none⟩

def bodyTooLarge (limit : ℕ) : BodyFailure E := ⟨payloadTooLargeLimit limit, none⟩

abbrev BodyItem (E : Type) := Except (BodyError E) (List UInt8)

inductive BodyFrame where
  | data (bytes : List UInt8)
  | trailers
  deriving DecidableEq

/-- What a body still holds. -/
inductive BodyState (E : Type) where
  | incoming (frames : List (Except E BodyFrame))
  | buffered (bytes : List UInt8)
  | stream (chunks : List (Except E (List UInt8)))
  | taken

/-- `RequestBody`. A stream is the list of the items it yields. -/
structure RequestBody (E : Type) where
  state : BodyState E
  defaultLimit : ℕ
  limit_le : defaultLimit ≤ u64Max

/-- A chunk of a source, with its error in a box. -/
def boxItem : Except E (List UInt8) → BodyItem E
  | .ok chunk => .ok chunk
  | .error error => .error (.source error)

def dataFrame : Except E BodyFrame → Option (Except E (List UInt8))
  | .ok (.data bytes) => some (.ok bytes)
  | .ok .trailers => none
  | .error error => some (.error error)

def lengthWithin (limit seen length : ℕ) : Option ℕ := (checkedU64 (seen + length)).filter (· ≤ limit)

def scan {S A B : Type} (f : S → A → Option B × S) : S → List A → List B
  | _, [] => []
  | s, a :: rest => match f s a with
    | (none, _) => []
    | (some b, s') => b :: scan f s' rest

def limitItem (limit : ℕ) : ℕ × Bool → BodyItem E → Option (BodyItem E) × (ℕ × Bool)
  | (seen, true), _ => (none, (seen, true))
  | (seen, false), .ok chunk => match lengthWithin limit seen chunk.length with
    | some length => (some (.ok chunk), (length, false))
    | none => (some (.error (.limitExceeded limit)), (seen, true))
  | (seen, false), .error error => (some (.error error), (seen, false))

/-- `limit_stream`: one error past the limit, then nothing. -/
def limitStream (stream : List (BodyItem E)) (limit : ℕ) : List (BodyItem E) := scan (limitItem limit) (0, false) stream

/-- The loop of `collect`. -/
def collectLoop (limit : ℕ) : List (BodyItem E) → List UInt8 → Except (BodyFailure E) (List UInt8)
  | [], output => .ok output
  | .error error :: _, _ => .error (bodyRead error)
  | .ok chunk :: rest, output => match lengthWithin limit output.length chunk.length with
    | some _ => collectLoop limit rest (output ++ chunk)
    | none => .error (bodyTooLarge limit)

namespace RequestBody

/-- The body as a stream without a limit. -/
def takeRawStream (body : RequestBody E) : Except (BodyFailure E) (List (BodyItem E)) × RequestBody E :=
  let taken := { body with state := .taken }
  match body.state with
  | .incoming frames => (.ok ((frames.filterMap dataFrame).map boxItem), taken)
  | .buffered bytes => (.ok [.ok bytes], taken)
  | .stream chunks => (.ok (chunks.map boxItem), taken)
  | .taken => (.error bodyAlreadyConsumed, taken)

/-- The body as a stream that fails past the limit. -/
def takeStream (body : RequestBody E) : Except (BodyFailure E) (List (BodyItem E)) × RequestBody E :=
  let (stream, taken) := body.takeRawStream
  (stream.map (limitStream · body.defaultLimit), taken)

/-- `RequestBody::collect`: the whole body, within a limit. -/
def collect (body : RequestBody E) (limit : ℕ) : Except (BodyFailure E) (List UInt8) × RequestBody E :=
  let limit := min limit body.defaultLimit
  match body.state with
  | .buffered bytes =>
    if bytes.length > limit then (.error (bodyTooLarge limit), body) else (.ok bytes, body)
  | _ => match body.takeRawStream with
    | (.error failure, taken) => (.error failure, taken)
    | (.ok stream, taken) => match collectLoop limit stream [] with
      | .error failure => (.error failure, taken)
      | .ok bytes => (.ok bytes, { taken with state := .buffered bytes })

/-- `collect` with the limit of the request. -/
def collectDefault (body : RequestBody E) : Except (BodyFailure E) (List UInt8) × RequestBody E :=
  body.collect body.defaultLimit

end RequestBody

/-! ## Draining a stream -/

def firstError : List (BodyItem E) → Option (BodyError E)
  | [] => none
  | .ok _ :: rest => firstError rest
  | .error error :: _ => some error

def yieldedBytes : List (BodyItem E) → List UInt8
  | [] => []
  | .ok chunk :: rest => chunk ++ yieldedBytes rest
  | .error _ :: rest => yieldedBytes rest

def readToEnd (output : List UInt8) (items : List (BodyItem E)) : Except (BodyFailure E) (List UInt8) :=
  match firstError items with
  | none => .ok (output ++ yieldedBytes items)
  | some (.limitExceeded limit) => .error (bodyTooLarge limit)
  | some (.source error) => .error (bodyRead (.source error))

theorem readToEnd_ok_cons (output chunk : List UInt8) (items : List (BodyItem E)) :
    readToEnd output (.ok chunk :: items) = readToEnd (output ++ chunk) items := by
  unfold readToEnd
  rw [firstError, yieldedBytes, List.append_assoc]

variable {items : List (BodyItem E)}

theorem firstError_eq_none :
    firstError items = none ↔ ∃ chunks : List (List UInt8), items = chunks.map .ok := by
  induction items with
  | nil => exact ⟨fun _ => ⟨[], rfl⟩, fun _ => rfl⟩
  | cons item items ih =>
    cases item with
    | error error =>
      refine ⟨fun h => (by cases h), ?_⟩
      rintro ⟨_ | ⟨_, _⟩, h⟩ <;> cases h
    | ok chunk =>
      rw [firstError, ih]
      constructor
      · rintro ⟨chunks, rfl⟩
        exact ⟨chunk :: chunks, rfl⟩
      · rintro ⟨_ | ⟨first, chunks⟩, h⟩
        · cases h
        · exact ⟨chunks, (List.cons.inj h).2⟩

theorem yieldedBytes_map_ok (chunks : List (List UInt8)) :
    yieldedBytes (chunks.map .ok : List (BodyItem E)) = chunks.flatten := by
  induction chunks with
  | nil => rfl
  | cons chunk chunks ih => rw [List.map_cons, yieldedBytes, ih, List.flatten_cons]

/-! ## The two readers -/

section Readers

variable {limit : ℕ}

theorem lengthWithin_eq_some {seen length total : ℕ} :
    lengthWithin limit seen length = some total ↔ total = seen + length ∧ total ≤ u64Max ∧ total ≤ limit := by
  unfold lengthWithin checkedU64
  rw [Option.filter_eq_some_iff, Option.ite_none_right_eq_some, Option.some_inj, decide_eq_true_eq]
  constructor
  · rintro ⟨⟨hle, rfl⟩, hlimit⟩
    exact ⟨rfl, hle, hlimit⟩
  · rintro ⟨rfl, hle, hlimit⟩
    exact ⟨⟨hle, rfl⟩, hlimit⟩

def limitItems (limit seen : ℕ) (items : List (BodyItem E)) : List (BodyItem E) :=
  scan (limitItem limit) (seen, false) items

theorem limitItems_within {seen length : ℕ} {chunk : List UInt8} (h : lengthWithin limit seen chunk.length = some length)
    (items : List (BodyItem E)) :
    limitItems limit seen (.ok chunk :: items) = .ok chunk :: limitItems limit length items := by
  simp only [limitItems, scan, limitItem, h]

theorem limitItems_over {seen : ℕ} {chunk : List UInt8} (h : lengthWithin limit seen chunk.length = none)
    (items : List (BodyItem E)) :
    limitItems limit seen (.ok chunk :: items) = [.error (.limitExceeded limit)] := by
  cases items <;> simp only [limitItems, scan, limitItem, h]

theorem collectLoop_eq_readToEnd (chunks : List (Except E (List UInt8))) (output : List UInt8) :
    collectLoop limit (chunks.map boxItem) output = readToEnd output (limitItems limit output.length (chunks.map boxItem)) := by
  induction chunks generalizing output with
  | nil =>
    show Except.ok output = Except.ok (output ++ [])
    rw [List.append_nil]
  | cons item chunks ih =>
    cases item with
    | error error => rfl
    | ok chunk =>
      rw [List.map_cons, boxItem, collectLoop]
      cases hlength : lengthWithin limit output.length chunk.length with
      | none =>
        rw [limitItems_over hlength]
        rfl
      | some length =>
        obtain ⟨rfl, -⟩ := lengthWithin_eq_some.1 hlength
        rw [limitItems_within hlength, readToEnd_ok_cons, ih, List.length_append]

theorem length_limitItems_le (items : List (BodyItem E)) {seen : ℕ} (hseen : seen ≤ limit) :
    seen + (yieldedBytes (limitItems limit seen items)).length ≤ limit := by
  induction items generalizing seen with
  | nil => exact hseen
  | cons item items ih =>
    cases item with
    | error error => exact ih hseen
    | ok chunk =>
      cases hlength : lengthWithin limit seen chunk.length with
      | none =>
        rw [limitItems_over hlength]
        exact hseen
      | some length =>
        obtain ⟨rfl, -, hlimit⟩ := lengthWithin_eq_some.1 hlength
        have hrest := ih hlimit
        rw [limitItems_within hlength, yieldedBytes, List.length_append]
        omega

/-- The error for the limit is the last item. -/
theorem limitItems_append {chunks : List (Except E (List UInt8))} {seen limit' : ℕ} {before after : List (BodyItem E)}
    (h : limitItems limit seen (chunks.map boxItem) = before ++ .error (.limitExceeded limit') :: after) :
    after = [] ∧ limit' = limit := by
  induction chunks generalizing seen before with
  | nil => cases before <;> cases h
  | cons item chunks ih =>
    -- An item of the source is never the error for the limit, so it stands in front of it.
    have hskip : ∀ {first : BodyItem E} {seen' : ℕ}, first ≠ .error (.limitExceeded limit') →
        first :: limitItems limit seen' (chunks.map boxItem) = before ++ .error (.limitExceeded limit') :: after →
        after = [] ∧ limit' = limit := by
      intro first seen' hfirst hitems
      cases before with
      | nil => exact absurd (List.cons.inj hitems).1 hfirst
      | cons _ before => exact ih (List.cons.inj hitems).2
    cases item with
    | error error => exact hskip (by simp) h
    | ok chunk =>
      cases hlength : lengthWithin limit seen chunk.length with
      | none =>
        rw [List.map_cons, boxItem, limitItems_over hlength] at h
        cases before with
        | nil =>
          cases h
          exact ⟨rfl, rfl⟩
        | cons _ before => cases before <;> cases h
      | some length =>
        rw [List.map_cons, boxItem, limitItems_within hlength] at h
        exact hskip (by simp) h

end Readers

/-! ## Bodies -/

namespace RequestBody

variable {body : RequestBody E}

theorem takeRawStream_eq (h : body.state ≠ .taken) : ∃ chunks : List (Except E (List UInt8)),
    body.takeRawStream = (.ok (chunks.map boxItem), { body with state := .taken }) := by
  obtain ⟨state, limit, hlimit⟩ := body
  cases state with
  | incoming frames => exact ⟨frames.filterMap dataFrame, rfl⟩
  | buffered bytes => exact ⟨[.ok bytes], rfl⟩
  | stream chunks => exact ⟨chunks, rfl⟩
  | taken => exact absurd rfl h

theorem collect_eq_collectLoop {stream : List (BodyItem E)} {taken : RequestBody E}
    (h : body.takeRawStream = (.ok stream, taken)) (n : ℕ) :
    (body.collect n).1 = collectLoop (min n body.defaultLimit) stream [] := by
  obtain ⟨state, limit, hlimit⟩ := body
  cases state with
  | buffered bytes =>
    cases h
    unfold collect collectLoop
    dsimp only
    by_cases hle : bytes.length ≤ min n limit
    · have hwithin : lengthWithin (min n limit) ([] : List UInt8).length bytes.length = some bytes.length :=
        lengthWithin_eq_some.2 ⟨(Nat.zero_add _).symm, by omega, hle⟩
      rw [if_neg (by omega), hwithin]
      rfl
    · have hover : lengthWithin (min n limit) ([] : List UInt8).length bytes.length = none := by
        refine Option.eq_none_iff_forall_ne_some.2 fun total htotal => hle ?_
        obtain ⟨rfl, -, hwithin⟩ := lengthWithin_eq_some.1 htotal
        exact Nat.zero_add bytes.length ▸ hwithin
      rw [if_pos (by omega), hover]
  | incoming frames | stream chunks =>
    unfold collect
    dsimp only
    rw [h]
    dsimp only
    cases collectLoop (min n limit) stream [] <;> rfl
  | taken => cases h

theorem collect_of_le (body : RequestBody E) {n : ℕ} (h : body.defaultLimit ≤ n) : body.collect n = body.collectDefault := by
  unfold collectDefault collect
  rw [Nat.min_eq_right h, Nat.min_self]

theorem collectDefault_eq_readToEnd (h : body.state ≠ .taken) :
    ∃ chunks : List (Except E (List UInt8)),
      body.takeStream.1 = .ok (limitItems body.defaultLimit 0 (chunks.map boxItem)) ∧
      body.collectDefault.1 = readToEnd [] (limitItems body.defaultLimit 0 (chunks.map boxItem)) := by
  obtain ⟨chunks, hraw⟩ := takeRawStream_eq h
  refine ⟨chunks, ?_, ?_⟩
  · unfold takeStream
    rw [hraw]
    rfl
  · rw [collectDefault, collect_eq_collectLoop hraw, Nat.min_self, collectLoop_eq_readToEnd]
    rfl

end RequestBody

theorem readToEnd_eq_ok {bytes : List UInt8} :
    readToEnd [] items = .ok bytes ↔ ∃ chunks : List (List UInt8), items = chunks.map .ok ∧ chunks.flatten = bytes := by
  unfold readToEnd
  rw [List.nil_append]
  constructor
  · intro h
    split at h
    · next hnone =>
      obtain ⟨chunks, rfl⟩ := firstError_eq_none.1 hnone
      exact ⟨chunks, rfl, (yieldedBytes_map_ok chunks).symm.trans (Except.ok.inj h)⟩
    · cases h
    · cases h
  · rintro ⟨chunks, rfl, rfl⟩
    rw [firstError_eq_none.2 ⟨chunks, rfl⟩]
    exact congrArg Except.ok (yieldedBytes_map_ok chunks)

theorem readToEnd_eq_error {output : List UInt8} {failure : BodyFailure E} :
    readToEnd output items = .error failure ↔
      (∃ limit, firstError items = some (.limitExceeded limit) ∧ failure = bodyTooLarge limit) ∨
        ∃ error, firstError items = some (.source error) ∧ failure = bodyRead (.source error) := by
  unfold readToEnd
  split <;> simp [*, eq_comm]

/-- **The buffer and the stream agree.** From the same body, `collect_default` returns bytes exactly if the stream yields
only chunks and they make up these bytes. It fails with 413 exactly if the first error of the stream is the one for the
limit, and with the error of the source exactly if that is the first one. The stream yields no more bytes than the
limit, its error for the limit is the last item, and a larger argument of `collect` is no different from none. -/
theorem collect_agrees_stream (body : RequestBody E) (hbody : body.state ≠ .taken) :
    ∃ items, body.takeStream.1 = .ok items ∧
      (∀ bytes, body.collectDefault.1 = .ok bytes ↔
        ∃ chunks : List (List UInt8), items = chunks.map .ok ∧ chunks.flatten = bytes) ∧
      (∀ failure, body.collectDefault.1 = .error failure → failure.code = "payload_too_large" ∨ failure.code = "body_read") ∧
      ((∃ failure, body.collectDefault.1 = .error failure ∧ failure.code = "payload_too_large") ↔
        ∃ limit, firstError items = some (.limitExceeded limit)) ∧
      ((∃ failure, body.collectDefault.1 = .error failure ∧ failure.code = "body_read") ↔
        ∃ error, firstError items = some (.source error)) ∧
      (∀ error, firstError items = some (.source error) →
        body.collectDefault.1 = .error (bodyRead (.source error))) ∧
      (yieldedBytes items).length ≤ body.defaultLimit ∧
      (∀ before after limit, items = before ++ .error (.limitExceeded limit) :: after →
        after = [] ∧ limit = body.defaultLimit) ∧
      ∀ n, body.defaultLimit ≤ n → body.collect n = body.collectDefault := by
  obtain ⟨chunks, hstream, hcollect⟩ := RequestBody.collectDefault_eq_readToEnd hbody
  have hbound := length_limitItems_le (chunks.map boxItem) (Nat.zero_le body.defaultLimit)
  rw [Nat.zero_add] at hbound
  rw [hcollect]
  refine ⟨_, hstream, fun _ => readToEnd_eq_ok, ?_, ?_, ?_, ?_, hbound, fun _ _ _ => limitItems_append, fun _ =>
    body.collect_of_le⟩
  · intro failure hfailure
    obtain ⟨limit, -, rfl⟩ | ⟨error, -, rfl⟩ := readToEnd_eq_error.1 hfailure
    · exact .inl rfl
    · exact .inr rfl
  · constructor
    · rintro ⟨failure, hfailure, hcode⟩
      obtain ⟨limit, hfirst, -⟩ | ⟨error, -, rfl⟩ := readToEnd_eq_error.1 hfailure
      · exact ⟨limit, hfirst⟩
      · exact absurd hcode (show "body_read" ≠ "payload_too_large" by decide)
    · rintro ⟨limit, hfirst⟩
      exact ⟨_, readToEnd_eq_error.2 (.inl ⟨limit, hfirst, rfl⟩), rfl⟩
  · constructor
    · rintro ⟨failure, hfailure, hcode⟩
      obtain ⟨limit, -, rfl⟩ | ⟨error, hfirst, -⟩ := readToEnd_eq_error.1 hfailure
      · exact absurd hcode (show "payload_too_large" ≠ "body_read" by decide)
      · exact ⟨error, hfirst⟩
    · rintro ⟨error, hfirst⟩
      exact ⟨_, readToEnd_eq_error.2 (.inr ⟨error, hfirst, rfl⟩), rfl⟩
  · exact fun error hfirst => readToEnd_eq_error.2 (.inr ⟨error, hfirst, rfl⟩)

/-- A body of exactly its limit, with an empty chunk and an error of its source behind. -/
theorem collect_agrees_stream_at_limit : ∃ items : List (BodyItem String),
    (⟨.stream [.ok [1, 2], .ok [], .error "reset", .ok [3]], 2, by decide⟩ : RequestBody String).takeStream.1 = .ok items ∧
    (∃ failure, (⟨.stream [.ok [1, 2], .ok [], .error "reset", .ok [3]], 2, by decide⟩ :
      RequestBody String).collectDefault.1 = .error failure ∧ failure.code = "body_read") ∧
    (yieldedBytes items).length ≤ 2 ∧ items ≠ [] := by
  obtain ⟨items, hstream, -, -, -, hread, -, hbound, -⟩ :=
    collect_agrees_stream ⟨.stream [.ok [1, 2], .ok [], .error "reset", .ok [3]], 2, by decide⟩ (by intro h; cases h)
  have hitems : [.ok [1, 2], .ok [], .error (.source "reset"), .error (.limitExceeded 2)] = items :=
    Except.ok.inj hstream
  subst hitems
  exact ⟨_, hstream, hread.2 ⟨"reset", rfl⟩, hbound, List.cons_ne_nil _ _⟩

end RustRest
