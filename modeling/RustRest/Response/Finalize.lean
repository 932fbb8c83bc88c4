import RustRest.Header

/-!
# The final form of a response

`Response::finalize` checks the status, the trailers and the framing of a response and fills in the fields that follow
from its body. A response that fails a check is replaced by an error response, which is finalized in turn.

Main result: **`finalize_spec`**.
-/

namespace RustRest

open List

/-! ## Responses -/

structure Bytes where
  data : List UInt8
  bounded : data.length < 2 ^ 63

theorem Bytes.nil_bounded : ([] : List UInt8).length < 2 ^ 63 := by decide

/-- `BodyKind`, over the streams. -/
inductive BodyKind (Stream : Type) where
  | bytes (bytes : Bytes)
  | stream (stream : Stream)
  | empty

/-- `ResponseBuildError`, by its constructors. -/
inductive ResponseBuildError where
  | invalidStatus
  | invalidHeaderName
  | invalidHeaderValue
  | invalidTrailerName (name : String)
  | invalidContentLength
  | invalidContentLengthValue (value : String)
  | conflictingContentLength
  | contentLengthMismatch (declared actual : ℕ)
  | explicitTransferEncoding
  | contentLengthWithTrailers
  | interimStatus (status : ℕ)
  | invalidSwitchingProtocols
  | trailerWithoutFields
  | builder

/-- `Response`. -/
structure Response (Stream : Type) where
  status : ℕ
  contentType : String
  headers : HeaderMap
  bodyKind : BodyKind Stream
  trailers : Option HeaderMap
  error : Option HttpError
  buildError : Option ResponseBuildError
  websocketUpgradeAuthorized : Bool

namespace HeaderName

def connection : HeaderName := ⟨"connection", by decide, by decide, by decide⟩
def upgrade : HeaderName := ⟨"upgrade", by decide, by decide, by decide⟩
def secWebsocketAccept : HeaderName := ⟨"sec-websocket-accept", by decide, by decide, by decide⟩
def contentLength : HeaderName := ⟨"content-length", by decide, by decide, by decide⟩
def contentType : HeaderName := ⟨"content-type", by decide, by decide, by decide⟩
def transferEncoding : HeaderName := ⟨"transfer-encoding", by decide, by decide, by decide⟩
def trailer : HeaderName := ⟨"trailer", by decide, by decide, by decide⟩

end HeaderName

structure ResponseCrates where
  problem : HttpError → Bytes
  base64 : List Char → Option (List UInt8)

/-! ## Trailers -/

/-- Fields that a trailer must not carry. -/
def isForbiddenTrailer (name : HeaderName) : Bool :=
  ["access-control-", "cross-origin-", "proxy-", "sec-websocket-"].any
    (fun start => start.toList.isPrefixOf name.text.toList) ||
  ["accept-ranges", "age", "allow", "alt-svc", "authorization", "cache-control", "connection", "content-disposition",
    "content-encoding", "content-language", "content-length", "content-location", "content-range",
    "content-security-policy", "content-type", "cookie", "date", "expect", "expires", "host", "if-match",
    "if-modified-since", "if-none-match", "if-range", "if-unmodified-since", "keep-alive", "last-modified", "link",
    "location", "max-forwards", "permissions-policy", "pragma", "range", "referrer-policy", "refresh", "retry-after",
    "server", "set-cookie", "strict-transport-security", "te", "trailer", "transfer-encoding", "upgrade", "vary",
    "warning", "www-authenticate", "x-content-type-options", "x-frame-options"].contains name.text

/-- No trailer has a forbidden name. -/
def validateTrailers (trailers : HeaderMap) : Except ResponseBuildError Unit :=
  match trailers.keys.find? isForbiddenTrailer with
  | some name => .error (.invalidTrailerName name.text)
  | none => .ok ()

/-- The names that `Connection` lists. -/
def connectionNominatedHeaders (headers : HeaderMap) : List HeaderName :=
  (((headers.getAll .connection).filterMap HeaderValue.toStr).flatMap (List.splitOn ',')).filterMap fun name =>
    HeaderName.ofStr (String.ofList (trim name))

/-- Nor one that `Connection` names. -/
def validateResponseTrailers (headers trailers : HeaderMap) : Except ResponseBuildError Unit := do
  validateTrailers trailers
  match (connectionNominatedHeaders headers).find? fun name => name ∈ trailers with
  | some name => .error (.invalidTrailerName name.text)
  | none => .ok ()

def trailerText (trailers : HeaderMap) : List Char :=
  [',', ' '].intercalate (trailers.keys.map fun name => name.text.toList)

theorem isVisibleChar_of_isTokenChar {c : Char} (h : isTokenChar c = true) : isVisibleChar c = true :=
  forall_ascii (P := fun c => isTokenChar c = true → isVisibleChar c = true) (by decide +kernel)
    (toNat_lt_of_isTokenChar h) h

theorem trailerText_visible (trailers : HeaderMap) : (trailerText trailers).all isVisibleChar = true := by
  have hjoin : ∀ names : List HeaderName,
      ([',', ' '].intercalate (names.map fun name => name.text.toList)).all isVisibleChar = true := by
    intro names
    have hname : ∀ name : HeaderName, name.text.toList.all isVisibleChar = true := fun name =>
      all_eq_true.2 fun c hc => isVisibleChar_of_isTokenChar (all_eq_true.1 name.token c hc)
    induction names with
    | nil => rfl
    | cons name names ih =>
      cases names with
      | nil => simpa using hname name
      | cons next rest =>
        rw [map_cons, map_cons, intercalate_cons_cons, all_append, all_append, hname name]
        exact ih
  exact hjoin trailers.keys

/-- The value of the `Trailer` field. -/
def trailerNames (trailers : HeaderMap) : HeaderValue := .ofVisible (trailerText trailers) (trailerText_visible trailers)

/-! ## Switching protocols -/

def responseHeaderContainsToken (headers : HeaderMap) (name : HeaderName) (expected : String) : Bool :=
  (headers.getAll name).any fun value => value.toStr.any fun text =>
    (text.splitOn ',').any fun token => eqIgnoreAsciiCase (String.ofList (trim token)) expected

/-- The fields that a WebSocket `101` has. -/
def validWebsocketSwitchingProtocols (crates : ResponseCrates) (headers : HeaderMap) : Bool :=
  responseHeaderContainsToken headers .connection "upgrade" &&
  responseHeaderContainsToken headers .upgrade "websocket" &&
  (headers.getAll .secWebsocketAccept).length == 1 &&
  (((headers.get .secWebsocketAccept).bind HeaderValue.toStr).bind fun value => crates.base64 (trim value)).any
    fun accept => accept.length == 20

/-! ## The content length -/

theorem isDigit_cases {c : Char} (h : c.isDigit = true) :
    isVisibleChar c = true ∧ isWhitespace c = false ∧ c ≠ ',' := by
  have hrange : 48 ≤ c.toNat ∧ c.toNat ≤ 57 := by
    simpa [Char.isDigit, UInt32.le_iff_toNat_le] using h
  exact forall_ascii (P := fun c => c.isDigit = true → isVisibleChar c = true ∧ isWhitespace c = false ∧ c ≠ ',')
    (by decide +kernel) (by omega) h

theorem isDigit_toDigits {n : ℕ} {c : Char} (h : c ∈ Nat.toDigits 10 n) : c.isDigit = true :=
  Nat.isDigit_of_mem_toDigits (by decide) (by decide) h

theorem toDigits_visible (n : ℕ) : (Nat.toDigits 10 n).all isVisibleChar = true :=
  all_eq_true.2 fun _ hc => (isDigit_cases (isDigit_toDigits hc)).1

/-- A decimal content length as a header value. -/
def decimalValue (n : ℕ) : HeaderValue := .ofVisible (Nat.toDigits 10 n) (toDigits_visible n)

def parseCandidate (parsed : Option ℕ) (candidate : List Char) : Except ResponseBuildError (Option ℕ) :=
  let candidate := trim candidate
  if candidate.isEmpty || !candidate.all Char.isDigit then
    .error (.invalidContentLengthValue (String.ofList candidate))
  else
    let length := Nat.ofDigitChars 10 candidate 0
    if 2 ^ 64 ≤ length then .error .invalidContentLength
    else if parsed.any (· != length) then .error .conflictingContentLength
    else .ok (some length)

def parseLengthValue (parsed : Option ℕ) (value : HeaderValue) : Except ResponseBuildError (Option ℕ) :=
  match value.toStr with
  | none => .error .invalidContentLength
  | some text => (text.splitOn ',').foldlM parseCandidate parsed

/-- `parse_content_length`: the length, and the headers with one value in place of all. -/
def Response.parseContentLength (headers : HeaderMap) : Except ResponseBuildError (HeaderMap × Option ℕ) := do
  let parsed ← (headers.getAll .contentLength).foldlM parseLengthValue none
  match parsed with
  | some length => .ok (headers.insert .contentLength (decimalValue length), some length)
  | none => .ok (headers, none)

/-! ## Checks -/

def isInformational (status : ℕ) : Bool := 100 ≤ status && status < 200

/-- Interim, 204, 205 and 304. -/
def statusHasNoContent (status : ℕ) : Bool :=
  isInformational status || status == 204 || status == 205 || status == 304

namespace Response

variable {Stream : Type} (crates : ResponseCrates)

/-- `Response::bytes`. -/
def bytes (bytes : Bytes) (contentType : String) : Response Stream :=
  { status := 200, contentType, headers := ∅, bodyKind := .bytes bytes, trailers := none, error := none,
    buildError := none, websocketUpgradeAuthorized := false }

/-- `Response::from_error`. -/
def fromError (error : HttpError) : Response Stream :=
  { bytes (crates.problem error) "application/problem+json" with
    status := error.status, headers := error.headers, error := some error }

/-- `Response::internal_server_error`. -/
def internalServerError : Response Stream := fromError crates (.internalServerError "Internal Server Error")

def checkStatus (r : Response Stream) : Except ResponseBuildError Unit :=
  match r.buildError with
  | some error => .error error
  | none =>
    if ¬ (100 ≤ r.status ∧ r.status ≤ 999) then .error .invalidStatus
    else if isInformational r.status ∧ r.status ≠ 101 then .error (.interimStatus r.status)
    else if r.status = 101 ∧ ¬ validWebsocketSwitchingProtocols crates r.headers then .error .invalidSwitchingProtocols
    else .ok ()

/-- The `Trailer` field names the trailers. -/
def announceTrailers (r : Response Stream) : Except ResponseBuildError (Response Stream) :=
  match r.trailers with
  | some trailers => do
    validateResponseTrailers r.headers trailers
    .ok { r with headers := r.headers.insert .trailer (trailerNames trailers) }
  | none => if HeaderName.trailer ∈ r.headers then .error .trailerWithoutFields else .ok r

def checkDeclared (r : Response Stream) (contentLength : Option ℕ) : Except ResponseBuildError Unit :=
  match contentLength, r.bodyKind with
  | some expected, .bytes bytes =>
    if expected ≠ bytes.data.length then .error (.contentLengthMismatch expected bytes.data.length) else .ok ()
  | _, _ => .ok ()

/-- The headers of a response without content. -/
def strip (headers : HeaderMap) (status : ℕ) : HeaderMap :=
  let headers := (headers.remove .trailer).remove .transferEncoding
  if status ≠ 304 then headers.remove .contentLength else headers

/-- Length and transfer coding agree with the body. -/
def finalizeFraming (r : Response Stream) : Except ResponseBuildError (Response Stream) := do
  let (headers, contentLength) ← parseContentLength r.headers
  let r := { r with headers }
  if HeaderName.transferEncoding ∈ r.headers then .error .explicitTransferEncoding
  else if contentLength.isSome ∧ r.trailers.isSome then .error .contentLengthWithTrailers
  else if statusHasNoContent r.status then do
    -- a 304 may carry the length of the representation
    (if r.status = 304 then r.checkDeclared contentLength else .ok ())
    .ok { r with bodyKind := .empty, trailers := none, headers := strip r.headers r.status }
  else do
    r.checkDeclared contentLength
    .ok r

def addContentType (r : Response Stream) : Except ResponseBuildError (Response Stream) :=
  if ¬ statusHasNoContent r.status ∧ HeaderName.contentType ∉ r.headers then
    match HeaderValue.fromStr r.contentType with
    | some contentType => .ok { r with headers := r.headers.insert .contentType contentType }
    | none => .error .invalidHeaderValue
  else .ok r

def addContentLength (r : Response Stream) : Response Stream :=
  if ¬ statusHasNoContent r.status ∧ HeaderName.contentLength ∉ r.headers ∧ r.trailers = none then
    match r.bodyKind with
    | .bytes bytes => { r with headers := r.headers.insert .contentLength (decimalValue bytes.data.length) }
    | _ => r
  else r

/-- One pass of `finalize`. -/
def checked (r : Response Stream) : Except ResponseBuildError (Response Stream) := do
  r.checkStatus crates
  let r ← r.announceTrailers
  let r ← r.finalizeFraming
  let r ← r.addContentType
  .ok r.addContentLength

end Response

/-! ## The content length is read back -/

theorem decimalValue_injective {n m : ℕ} (h : decimalValue n = decimalValue m) : n = m := by
  have htext := congrArg HeaderValue.toStr h
  rw [decimalValue, decimalValue, HeaderValue.toStr_ofVisible, HeaderValue.toStr_ofVisible, Option.some_inj] at htext
  rw [← Nat.ofDigitChars_ten_toDigits (n := n), htext, Nat.ofDigitChars_ten_toDigits]

theorem parseLengthValue_decimalValue {n : ℕ} (h : n < 2 ^ 64) : parseLengthValue none (decimalValue n) = .ok (some n) := by
  have hdigits : ∀ c ∈ Nat.toDigits 10 n, c.isDigit = true := fun c hc => isDigit_toDigits hc
  have htrim : trim (Nat.toDigits 10 n) = Nat.toDigits 10 n :=
    trim_of_bare (bare_of_forall fun c hc => (isDigit_cases (hdigits c hc)).2.1)
  have hsplit : (Nat.toDigits 10 n).splitOn ',' = [Nat.toDigits 10 n] :=
    splitOn_eq_singleton fun hc => (isDigit_cases (hdigits _ hc)).2.2 rfl
  have hvalid : ((Nat.toDigits 10 n).isEmpty || !(Nat.toDigits 10 n).all Char.isDigit) = false := by
    rw [Bool.or_eq_false_iff, isEmpty_eq_false_iff, Bool.not_eq_false', all_eq_true]
    exact ⟨Nat.toDigits_ne_nil, hdigits⟩
  unfold parseLengthValue
  rw [decimalValue, HeaderValue.toStr_ofVisible]
  dsimp only
  rw [hsplit, foldlM_cons]
  unfold parseCandidate
  dsimp only
  rw [htrim, hvalid, if_neg Bool.false_ne_true, Nat.ofDigitChars_ten_toDigits, if_neg (Nat.not_le.2 h)]
  rfl

theorem Response.parseContentLength_none {headers : HeaderMap} (h : HeaderName.contentLength ∉ headers) :
    Response.parseContentLength headers = .ok (headers, none) := by
  unfold Response.parseContentLength
  rw [MultiMap.getAll_of_not_mem h]
  rfl

theorem Response.parseContentLength_decimalValue {headers : HeaderMap} {n : ℕ} (hn : n < 2 ^ 64)
    (h : headers.getAll .contentLength = [decimalValue n]) :
    Response.parseContentLength headers = .ok (headers, some n) := by
  unfold Response.parseContentLength
  rw [h, foldlM_cons, parseLengthValue_decimalValue hn]
  show Except.ok (headers.insert .contentLength (decimalValue n), some n) = _
  rw [MultiMap.insert_of_getAll h]

theorem foldlM_ok {ε α β : Type} {f : β → α → Except ε β} {P : β → Prop} (hf : ∀ b a b', f b a = .ok b' → P b') :
    ∀ {l : List α} {b b' : β}, l ≠ [] → l.foldlM f b = .ok b' → P b'
  | [a], b, b', _, h => by
    rw [foldlM_cons] at h
    obtain ⟨c, hc, hdone⟩ := bind_eq_ok.1 h
    cases hdone
    exact hf b a _ hc
  | a :: next :: rest, b, b', _, h => by
    rw [foldlM_cons] at h
    obtain ⟨c, -, hrest⟩ := bind_eq_ok.1 h
    exact foldlM_ok hf (cons_ne_nil next rest) hrest

theorem parseCandidate_ok {parsed parsed' : Option ℕ} {candidate : List Char}
    (h : parseCandidate parsed candidate = .ok parsed') : ∃ n < 2 ^ 64, parsed' = some n := by
  unfold parseCandidate at h
  dsimp only at h
  split at h
  · cases h
  · split at h
    · cases h
    · next hlt =>
      split at h
      · cases h
      · cases h
        exact ⟨_, Nat.not_le.1 hlt, rfl⟩

theorem parseLengthValue_ok {parsed parsed' : Option ℕ} {value : HeaderValue}
    (h : parseLengthValue parsed value = .ok parsed') : ∃ n < 2 ^ 64, parsed' = some n := by
  unfold parseLengthValue at h
  split at h
  · cases h
  · exact foldlM_ok (fun _ _ _ => parseCandidate_ok) (splitOn_ne_nil _ _) h

theorem Response.parseContentLength_ok {headers headers' : HeaderMap} {parsed : Option ℕ}
    (h : Response.parseContentLength headers = .ok (headers', parsed)) :
    (HeaderName.contentLength ∉ headers ∧ headers' = headers ∧ parsed = none) ∨
    ∃ n < 2 ^ 64, headers' = headers.insert .contentLength (decimalValue n) ∧ parsed = some n := by
  by_cases hmem : HeaderName.contentLength ∈ headers
  · obtain ⟨result, hresult, h⟩ := bind_eq_ok.1 h
    obtain ⟨n, hn, rfl⟩ := foldlM_ok (fun _ _ _ => parseLengthValue_ok) (MultiMap.mem_iff_getAll.1 hmem) hresult
    cases h
    exact .inr ⟨n, hn, rfl, rfl⟩
  · rw [Response.parseContentLength_none hmem] at h
    cases h
    exact .inl ⟨hmem, rfl, rfl⟩

/-! ## What a pass establishes -/

namespace Response

variable {Stream : Type} {crates : ResponseCrates} {r r' : Response Stream}

/-- The names that `finalize` changes. -/
def touched : List HeaderName := [.trailer, .transferEncoding, .contentLength, .contentType]

structure Framed (crates : ResponseCrates) (r : Response Stream) : Prop where
  status : r.checkStatus crates = .ok ()
  noTransferEncoding : HeaderName.transferEncoding ∉ r.headers
  oneLength : HeaderName.contentLength ∈ r.headers → ∃ n < 2 ^ 64, r.headers.getAll .contentLength = [decimalValue n]
  announced : ∀ trailers, r.trailers = some trailers → validateResponseTrailers r.headers trailers = .ok () ∧
    r.headers.getAll .trailer = [trailerNames trailers] ∧ HeaderName.contentLength ∉ r.headers
  notAnnounced : r.trailers = none → HeaderName.trailer ∉ r.headers
  noContent : statusHasNoContent r.status = true → r.bodyKind = .empty ∧ r.trailers = none ∧
    (r.status ≠ 304 → HeaderName.contentLength ∉ r.headers)
  declared : ∀ bytes, r.bodyKind = .bytes bytes → HeaderName.contentLength ∈ r.headers →
    r.headers.getAll .contentLength = [decimalValue bytes.data.length]

/-- A response in its final form. -/
structure Finalized (crates : ResponseCrates) (r : Response Stream) : Prop extends Framed crates r where
  typed : statusHasNoContent r.status = false → HeaderName.contentType ∈ r.headers
  counted : ∀ bytes, r.bodyKind = .bytes bytes → r.trailers = none → HeaderName.contentLength ∈ r.headers

theorem validateResponseTrailers_congr {headers headers' : HeaderMap} (trailers : HeaderMap)
    (h : headers'.getAll .connection = headers.getAll .connection) :
    validateResponseTrailers headers' trailers = validateResponseTrailers headers trailers := by
  unfold validateResponseTrailers connectionNominatedHeaders
  rw [h]

theorem checkStatus_ok (hr : r.checkStatus crates = .ok ()) (hbuild : r'.buildError = r.buildError)
    (hstatus : r'.status = r.status) (h : ∀ name, name ∉ touched → r'.headers.getAll name = r.headers.getAll name) :
    r'.checkStatus crates = .ok () := by
  have hswitch : validWebsocketSwitchingProtocols crates r'.headers = validWebsocketSwitchingProtocols crates r.headers := by
    unfold validWebsocketSwitchingProtocols responseHeaderContainsToken MultiMap.get
    rw [h .connection (by decide), h .upgrade (by decide), h .secWebsocketAccept (by decide)]
  rw [← hr]
  unfold checkStatus
  rw [hbuild, hstatus, hswitch]

/-! ### The stages -/

theorem checked_eq {r₁ r₂ r₃ : Response Stream} (hstatus : r.checkStatus crates = .ok ())
    (hannounce : r.announceTrailers = .ok r₁) (hframing : r₁.finalizeFraming = .ok r₂)
    (htype : r₂.addContentType = .ok r₃) : r.checked crates = .ok r₃.addContentLength := by
  unfold checked
  rw [hstatus, hannounce]
  show r₁.finalizeFraming >>= _ = _
  rw [hframing]
  show r₂.addContentType >>= _ = _
  rw [htype]
  rfl

theorem announceTrailers_ok (h : r.announceTrailers = .ok r') :
    (r' = { r with headers := r'.headers }) ∧
    (∀ name, name ≠ .trailer → r'.headers.getAll name = r.headers.getAll name) ∧
    (∀ trailers, r.trailers = some trailers → validateResponseTrailers r.headers trailers = .ok () ∧
      r'.headers.getAll .trailer = [trailerNames trailers]) ∧
    (r.trailers = none → HeaderName.trailer ∉ r'.headers) := by
  unfold announceTrailers at h
  split at h
  · next trailers htrailers =>
    obtain ⟨hvalid, h⟩ := bind_unit_eq_ok.1 h
    cases h
    refine ⟨rfl, fun name hname => ?_, fun trailers' heq => ?_, fun hnone => ?_⟩
    · rw [MultiMap.getAll_insert, if_neg hname]
    · cases htrailers.symm.trans heq
      exact ⟨hvalid, by rw [MultiMap.getAll_insert_self]⟩
    · cases htrailers.symm.trans hnone
  · next hnone =>
    split at h
    · cases h
    · next hmem =>
      cases h
      refine ⟨rfl, fun _ _ => rfl, fun trailers heq => ?_, fun _ => hmem⟩
      cases hnone.symm.trans heq

theorem checkDeclared_ok {contentLength : Option ℕ} (h : r.checkDeclared contentLength = .ok ()) {n : ℕ} {bytes : Bytes}
    (hlength : contentLength = some n) (hbody : r.bodyKind = .bytes bytes) : n = bytes.data.length := by
  unfold checkDeclared at h
  rw [hlength, hbody] at h
  dsimp only at h
  by_contra hne
  rw [if_pos hne] at h
  cases h

theorem finalizeFraming_ok (h : r.finalizeFraming = .ok r') :
    ∃ headers contentLength, parseContentLength r.headers = .ok (headers, contentLength) ∧
      HeaderName.transferEncoding ∉ headers ∧ ¬ (contentLength.isSome ∧ r.trailers.isSome) ∧
      ((statusHasNoContent r.status = true ∧
          r' = { r with bodyKind := .empty, trailers := none, headers := strip headers r.status }) ∨
        (statusHasNoContent r.status = false ∧ r.checkDeclared contentLength = .ok () ∧ r' = { r with headers })) := by
  obtain ⟨⟨headers, contentLength⟩, hparse, h⟩ := bind_eq_ok.1 h
  refine ⟨headers, contentLength, hparse, ?_⟩
  dsimp only at h
  split at h
  · cases h
  · next hte =>
    split at h
    · cases h
    · next hboth =>
      refine ⟨hte, hboth, ?_⟩
      split at h
      · next hno =>
        obtain ⟨-, h⟩ := bind_unit_eq_ok.1 h
        cases h
        exact .inl ⟨hno, rfl⟩
      · next hcontent =>
        obtain ⟨hdeclared, h⟩ := bind_unit_eq_ok.1 h
        cases h
        exact .inr ⟨Bool.eq_false_iff.2 hcontent, hdeclared, rfl⟩

theorem addContentType_ok (h : r.addContentType = .ok r') :
    r' = { r with headers := r'.headers } ∧
    (∀ name, name ≠ .contentType → r'.headers.getAll name = r.headers.getAll name) ∧
    (statusHasNoContent r.status = false → HeaderName.contentType ∈ r'.headers) ∧
    (statusHasNoContent r.status = true → r' = r) := by
  unfold addContentType at h
  split at h
  · next hcond =>
    split at h
    · cases h
      refine ⟨rfl, fun name hname => ?_, fun _ => MultiMap.mem_insert.2 (.inl rfl), fun hno => absurd hno hcond.1⟩
      rw [MultiMap.getAll_insert, if_neg hname]
    · cases h
  · next hcond =>
    cases h
    refine ⟨rfl, fun _ _ => rfl, fun hcontent => ?_, fun _ => rfl⟩
    by_contra hmem
    exact hcond ⟨Bool.eq_false_iff.1 hcontent, hmem⟩

theorem parseContentLength_getAll {headers headers' : HeaderMap} {parsed : Option ℕ}
    (h : parseContentLength headers = .ok (headers', parsed)) {name : HeaderName} (hname : name ≠ .contentLength) :
    headers'.getAll name = headers.getAll name := by
  obtain ⟨-, rfl, -⟩ | ⟨n, -, rfl, -⟩ := parseContentLength_ok h
  · rfl
  · rw [MultiMap.getAll_insert, if_neg hname]

theorem parseContentLength_mem {headers headers' : HeaderMap} {parsed : Option ℕ}
    (h : parseContentLength headers = .ok (headers', parsed)) (hmem : HeaderName.contentLength ∈ headers') :
    ∃ n < 2 ^ 64, headers'.getAll .contentLength = [decimalValue n] ∧ parsed = some n := by
  obtain ⟨hnot, rfl, -⟩ | ⟨n, hn, rfl, hparsed⟩ := parseContentLength_ok h
  · exact absurd hmem hnot
  · exact ⟨n, hn, by rw [MultiMap.getAll_insert_self], hparsed⟩

theorem strip_getAll {headers : HeaderMap} {status : ℕ} {name : HeaderName} (hname : name ∉ touched) :
    (strip headers status).getAll name = headers.getAll name := by
  have hne : name ≠ .trailer ∧ name ≠ .transferEncoding ∧ name ≠ .contentLength := by
    simp only [touched, mem_cons, not_or] at hname
    exact ⟨hname.1, hname.2.1, hname.2.2.1⟩
  unfold strip
  dsimp only
  split
  · rw [MultiMap.getAll_remove, if_neg hne.2.2, MultiMap.getAll_remove, if_neg hne.2.1, MultiMap.getAll_remove,
      if_neg hne.1]
  · rw [MultiMap.getAll_remove, if_neg hne.2.1, MultiMap.getAll_remove, if_neg hne.1]

theorem strip_contentLength (headers : HeaderMap) (status : ℕ) :
    (strip headers status).getAll .contentLength = if status = 304 then headers.getAll .contentLength else [] := by
  unfold strip
  dsimp only
  by_cases h : status = 304
  · rw [if_neg (not_not.2 h), if_pos h, MultiMap.getAll_remove, if_neg (by decide), MultiMap.getAll_remove,
      if_neg (by decide)]
  · rw [if_pos h, if_neg h, MultiMap.getAll_remove, if_pos rfl]

theorem not_mem_strip (headers : HeaderMap) (status : ℕ) :
    HeaderName.trailer ∉ strip headers status ∧ HeaderName.transferEncoding ∉ strip headers status := by
  unfold strip
  dsimp only
  split <;> simp [MultiMap.mem_remove]

theorem framed_of_finalizeFraming (hstatus : r.checkStatus crates = .ok ())
    (hsome : ∀ trailers, r.trailers = some trailers → validateResponseTrailers r.headers trailers = .ok () ∧
      r.headers.getAll .trailer = [trailerNames trailers])
    (hnone : r.trailers = none → HeaderName.trailer ∉ r.headers) (h : r.finalizeFraming = .ok r') :
    r'.Framed crates := by
  obtain ⟨headers, contentLength, hparse, hte, hboth, hcases⟩ := finalizeFraming_ok h
  have hother : ∀ {name}, name ≠ .contentLength → headers.getAll name = r.headers.getAll name := fun hname =>
    parseContentLength_getAll hparse hname
  have huntouched : ∀ name, name ∉ touched → headers.getAll name = r.headers.getAll name := by
    intro name hname
    refine hother ?_
    rintro rfl
    exact hname (by decide)
  have hlength := parseContentLength_mem hparse
  rcases hcases with ⟨hno, rfl⟩ | ⟨hcontent, hdeclared, rfl⟩
  · -- no content: the body, the trailers and their field are gone
    have hstripped := strip_contentLength headers r.status
    exact
      { status := checkStatus_ok hstatus rfl rfl fun name hname => (strip_getAll hname).trans (huntouched name hname)
        noTransferEncoding := (not_mem_strip _ _).2
        oneLength := by
          intro hmem
          dsimp only at hmem ⊢
          rw [MultiMap.mem_iff_getAll, hstripped] at hmem
          rw [hstripped]
          split at hmem
          · next h304 =>
            rw [if_pos h304]
            obtain ⟨n, hn, hget, -⟩ := hlength (MultiMap.mem_iff_getAll.2 hmem)
            exact ⟨n, hn, hget⟩
          · exact absurd rfl hmem
        announced := nofun
        notAnnounced := fun _ => (not_mem_strip _ _).1
        noContent := by
          refine fun _ => ⟨rfl, rfl, fun h304 hmem => ?_⟩
          rw [MultiMap.mem_iff_getAll, hstripped, if_neg h304] at hmem
          exact hmem rfl
        declared := nofun }
  · -- content: only the length has changed, to the one that was checked
    exact
      { status := checkStatus_ok hstatus rfl rfl huntouched
        noTransferEncoding := hte
        oneLength := fun hmem => (hlength hmem).imp fun n hn => ⟨hn.1, hn.2.1⟩
        announced := by
          intro trailers htrailers
          obtain ⟨hvalid, hnames⟩ := hsome trailers htrailers
          refine ⟨?_, (hother (by decide)).trans hnames, fun hmem => ?_⟩
          · rw [validateResponseTrailers_congr trailers (hother (by decide))]
            exact hvalid
          · obtain ⟨n, -, -, hparsed⟩ := hlength hmem
            exact hboth ⟨by rw [hparsed]; rfl, by rw [show r.trailers = _ from htrailers]; rfl⟩
        notAnnounced := by
          intro htrailers
          rw [MultiMap.mem_congr (hother (by decide))]
          exact hnone htrailers
        noContent := fun hno => absurd (hno.symm.trans hcontent) (by decide)
        declared := by
          intro bytes hbody hmem
          obtain ⟨n, -, hget, hparsed⟩ := hlength hmem
          rw [hget, checkDeclared_ok hdeclared hparsed hbody] }

theorem framed_of_addContentType (hr : r.Framed crates) (h : r.addContentType = .ok r') : r'.Framed crates := by
  obtain ⟨heq, hother, -, -⟩ := addContentType_ok h
  have hlength : r'.headers.getAll .contentLength = r.headers.getAll .contentLength := hother _ (by decide)
  have hmem : HeaderName.contentLength ∈ r'.headers ↔ HeaderName.contentLength ∈ r.headers := MultiMap.mem_congr hlength
  have huntouched : ∀ name, name ∉ touched → r'.headers.getAll name = r.headers.getAll name := by
    intro name hname
    refine hother name ?_
    rintro rfl
    exact hname (by decide)
  rw [heq]
  exact
    { status := checkStatus_ok hr.status rfl rfl huntouched
      noTransferEncoding := by
        rw [MultiMap.mem_congr (hother _ (by decide))]
        exact hr.noTransferEncoding
      oneLength := by
        rw [hmem, hlength]
        exact hr.oneLength
      announced := by
        intro trailers htrailers
        rw [validateResponseTrailers_congr trailers (hother _ (by decide)), hother .trailer (by decide), hmem]
        exact hr.announced trailers htrailers
      notAnnounced := by
        intro htrailers
        rw [MultiMap.mem_congr (hother _ (by decide))]
        exact hr.notAnnounced htrailers
      noContent := by
        rw [hmem]
        exact hr.noContent
      declared := by
        rw [hmem, hlength]
        exact hr.declared }

theorem finalized_addContentLength (hr : r.Framed crates)
    (htyped : statusHasNoContent r.status = false → HeaderName.contentType ∈ r.headers) :
    r.addContentLength.Finalized crates := by
  unfold addContentLength
  split
  · next hcond =>
    split
    · next bytes hbody =>
      have hlength : (r.headers.insert .contentLength (decimalValue bytes.data.length)).getAll .contentLength =
          [decimalValue bytes.data.length] := by rw [MultiMap.getAll_insert_self]
      have hother : ∀ name, name ≠ .contentLength →
          (r.headers.insert .contentLength (decimalValue bytes.data.length)).getAll name = r.headers.getAll name :=
        fun name hname => by rw [MultiMap.getAll_insert, if_neg hname]
      exact
        { status := by
            refine checkStatus_ok hr.status rfl rfl fun name hname => hother name ?_
            rintro rfl
            exact hname (by decide)
          noTransferEncoding := by
            rw [MultiMap.mem_congr (hother _ (by decide))]
            exact hr.noTransferEncoding
          oneLength := fun _ => ⟨_, by have := bytes.bounded; omega, hlength⟩
          announced := fun trailers htrailers => absurd (htrailers.symm.trans hcond.2.2) nofun
          notAnnounced := by
            intro htrailers
            rw [MultiMap.mem_congr (hother _ (by decide))]
            exact hr.notAnnounced htrailers
          noContent := fun hno => absurd hno hcond.1
          declared := by
            intro bytes' hbody' _
            cases hbody.symm.trans hbody'
            exact hlength
          typed := by
            intro hcontent
            rw [MultiMap.mem_congr (hother _ (by decide))]
            exact htyped hcontent
          counted := fun _ _ _ => MultiMap.mem_insert.2 (.inl rfl) }
    · next hbytes => exact { hr with typed := htyped, counted := fun bytes hbody => absurd hbody (hbytes bytes) }
  · next hcond =>
    refine { hr with typed := htyped, counted := fun bytes hbody htrailers => ?_ }
    by_contra hmem
    refine hcond ⟨fun hno => ?_, hmem, htrailers⟩
    cases hbody.symm.trans (hr.noContent hno).1

/-- A response that passes is in its final form. -/
theorem finalized_of_checked (h : r.checked crates = .ok r') : r'.Finalized crates := by
  obtain ⟨hstatus, h⟩ := bind_unit_eq_ok.1 h
  obtain ⟨r₁, h₁, h⟩ := bind_eq_ok.1 h
  obtain ⟨r₂, h₂, h⟩ := bind_eq_ok.1 h
  obtain ⟨r₃, h₃, h⟩ := bind_eq_ok.1 h
  cases h
  have hframed : r₂.Framed crates := by
    obtain ⟨heq, hother, hsome, hnone⟩ := announceTrailers_ok h₁
    have htrailers : r₁.trailers = r.trailers := by rw [heq]
    refine framed_of_finalizeFraming ?_ (fun trailers htr => ?_) (fun htr => hnone (htrailers ▸ htr)) h₂
    · refine checkStatus_ok hstatus (by rw [heq]) (by rw [heq]) fun name hname => hother name ?_
      rintro rfl
      exact hname (by decide)
    · obtain ⟨hvalid, hnames⟩ := hsome trailers (htrailers ▸ htr)
      rw [validateResponseTrailers_congr trailers (hother _ (by decide))]
      exact ⟨hvalid, hnames⟩
  obtain ⟨heq, -, htyped, -⟩ := addContentType_ok h₃
  have hstatus₃ : r₃.status = r₂.status := by rw [heq]
  exact finalized_addContentLength (framed_of_addContentType hframed h₃) fun hcontent => htyped (hstatus₃ ▸ hcontent)

/-! ## A further pass changes nothing -/

theorem announceTrailers_of_finalized (h : r.Finalized crates) : r.announceTrailers = .ok r := by
  unfold announceTrailers
  split
  · next trailers htrailers =>
    obtain ⟨hvalid, hnames, -⟩ := h.announced trailers htrailers
    rw [hvalid]
    show Except.ok { r with headers := r.headers.insert .trailer (trailerNames trailers) } = _
    rw [MultiMap.insert_of_getAll hnames]
  · next htrailers => rw [if_neg (h.notAnnounced htrailers)]

theorem strip_of_finalized (h : r.Finalized crates) (hno : statusHasNoContent r.status = true) :
    strip r.headers r.status = r.headers := by
  obtain ⟨-, htrailers, hlength⟩ := h.noContent hno
  unfold strip
  dsimp only
  rw [MultiMap.remove_of_not_mem (h.notAnnounced htrailers), MultiMap.remove_of_not_mem h.noTransferEncoding]
  split
  · next h304 => rw [MultiMap.remove_of_not_mem (hlength h304)]
  · rfl

theorem parseContentLength_of_finalized (h : r.Finalized crates) : ∃ contentLength,
    parseContentLength r.headers = .ok (r.headers, contentLength) ∧
    ¬ (contentLength.isSome ∧ r.trailers.isSome) ∧ r.checkDeclared contentLength = .ok () := by
  by_cases hmem : HeaderName.contentLength ∈ r.headers
  · obtain ⟨n, hn, hget⟩ := h.oneLength hmem
    refine ⟨some n, parseContentLength_decimalValue hn hget, fun hboth => ?_, ?_⟩
    · obtain ⟨trailers, htrailers⟩ := Option.isSome_iff_exists.1 hboth.2
      exact (h.announced trailers htrailers).2.2 hmem
    · unfold checkDeclared
      cases hbody : r.bodyKind with
      | bytes bytes =>
        have heq : n = bytes.data.length :=
          decimalValue_injective (singleton_injective (hget.symm.trans (h.declared bytes hbody hmem)))
        dsimp only
        rw [if_neg (not_not.2 heq)]
      | stream s | empty => rfl
  · exact ⟨none, parseContentLength_none hmem, fun hboth => Bool.false_ne_true hboth.1, rfl⟩

theorem finalizeFraming_of_finalized (h : r.Finalized crates) : r.finalizeFraming = .ok r := by
  obtain ⟨contentLength, hparse, hboth, hdeclared⟩ := parseContentLength_of_finalized h
  unfold finalizeFraming
  rw [hparse]
  show (if HeaderName.transferEncoding ∈ r.headers then _ else _) = Except.ok r
  rw [if_neg h.noTransferEncoding, if_neg hboth]
  split
  · next hno =>
    obtain ⟨hbody, htrailers, -⟩ := h.noContent hno
    rw [strip_of_finalized h hno, hdeclared, ite_self, ← hbody, ← htrailers]
    rfl
  · rw [hdeclared]
    rfl

/-- A response in its final form passes as it is. -/
theorem checked_of_finalized (h : r.Finalized crates) : r.checked crates = .ok r := by
  have htype : r.addContentType = .ok r := by
    unfold addContentType
    rw [if_neg]
    exact fun hcond => hcond.2 (h.typed (Bool.eq_false_iff.2 hcond.1))
  have hlength : r.addContentLength = r := by
    unfold addContentLength
    split
    · next hcond =>
      split
      · next bytes hbody => exact absurd (h.counted bytes hbody hcond.2.2) hcond.2.1
      · rfl
    · rfl
  rw [checked_eq h.status (announceTrailers_of_finalized h) (finalizeFraming_of_finalized h) htype, hlength]

/-! ## Finalizing -/

theorem checked_fromError (crates : ResponseCrates) (message : String) :
    ∃ r : Response Stream, (fromError crates (.internalServerError message)).checked crates = .ok r := by
  have htype : (utf8 "application/problem+json").all isHeaderValueByte = true := by decide +kernel
  have hvalue : HeaderValue.fromStr "application/problem+json" = some ⟨_, htype⟩ := dif_pos htype
  let r : Response Stream := fromError crates (.internalServerError message)
  have hstatus : r.checkStatus crates = .ok () := rfl
  have hannounce : r.announceTrailers = .ok r := rfl
  have hframing : r.finalizeFraming = .ok r := rfl
  have hadd : r.addContentType = .ok { r with headers := r.headers.insert .contentType ⟨_, htype⟩ } := by
    show (match HeaderValue.fromStr "application/problem+json" with
      | some contentType => Except.ok { r with headers := r.headers.insert .contentType contentType }
      | none => Except.error ResponseBuildError.invalidHeaderValue) = _
    rw [hvalue]
  refine ⟨addContentLength { r with headers := r.headers.insert .contentType ⟨_, htype⟩ }, ?_⟩
  exact checked_eq hstatus hannounce hframing hadd

/-- `invalid_response_value`. The build error becomes the source of the error, which is left out. -/
def invalidResponseValue (crates : ResponseCrates) : Response Stream :=
  match h : (fromError crates (.internalServerError "No se pudo construir la respuesta")).checked crates with
  | .ok r => r
  | .error _ => absurd (h ▸ checked_fromError crates "No se pudo construir la respuesta") nofun

/-- The checks; where one fails, a fixed `500`. -/
def finalize (crates : ResponseCrates) (r : Response Stream) : Response Stream :=
  match r.checked crates with
  | .ok r => r
  | .error _ => invalidResponseValue crates

theorem finalized_finalize (r : Response Stream) : (r.finalize crates).Finalized crates := by
  unfold finalize
  split
  · next h => exact finalized_of_checked h
  · unfold invalidResponseValue
    split
    · next h => exact finalized_of_checked h
    · next error h => exact absurd (h ▸ checked_fromError crates _) nofun

theorem finalize_of_finalized (h : r.Finalized crates) : r.finalize crates = r := by
  unfold finalize
  rw [checked_of_finalized h]

/-! ## The form of a finalized response -/

theorem status_of_checkStatus (h : r.checkStatus crates = .ok ()) : (100 ≤ r.status ∧ r.status ≤ 999) ∧
    (isInformational r.status = true →
      r.status = 101 ∧ validWebsocketSwitchingProtocols crates r.headers = true) := by
  unfold checkStatus at h
  split at h
  · cases h
  · split at h
    · cases h
    · next hvalid =>
      split at h
      · cases h
      · next hinterim =>
        split at h
        · cases h
        · next hswitch =>
          refine ⟨not_not.1 hvalid, fun hinfo => ?_⟩
          have h101 : r.status = 101 := by
            by_contra hne
            exact hinterim ⟨hinfo, hne⟩
          refine ⟨h101, ?_⟩
          by_contra hnot
          exact hswitch ⟨h101, hnot⟩

def listedNames (value : HeaderValue) : Option (List String) :=
  value.toStr.map fun text => ((text.splitOn ',').map fun name => String.ofList (trim name)).filter (· ≠ "")

theorem listedNames_trailerNames (trailers : HeaderMap) :
    listedNames (trailerNames trailers) = some (trailers.keys.map HeaderName.text) := by
  have hname : ∀ name : HeaderName, String.ofList (trim name.text.toList) = name.text := by
    intro name
    have hbare : Bare name.text.toList :=
      bare_of_forall fun c hc => isWhitespace_of_isTokenChar (all_eq_true.1 name.token c hc)
    rw [trim_of_bare hbare, String.ofList_toList]
  unfold listedNames
  rw [trailerNames, HeaderValue.toStr_ofVisible, Option.map_some, trailerText]
  congr 1
  cases hkeys : trailers.keys with
  | nil => rfl
  | cons first rest =>
    have hcomma : ∀ part ∈ (first :: rest).map (fun name => name.text.toList), ',' ∉ part := by
      intro part hpart
      obtain ⟨name, -, rfl⟩ := mem_map.1 hpart
      exact fun hc => absurd (all_eq_true.1 name.token _ hc) (by decide)
    rw [map_splitOn_intercalate (by decide) (fun s => by rw [trim_space_cons]) (by simp) hcomma, map_map]
    have hmap : (first :: rest).map ((fun name => String.ofList (trim name)) ∘ fun name : HeaderName => name.text.toList) =
        (first :: rest).map HeaderName.text := map_congr_left fun name _ => hname name
    rw [hmap, filter_eq_self]
    intro text htext
    obtain ⟨name, -, rfl⟩ := mem_map.1 htext
    exact decide_eq_true name.nonempty

/-- Whatever the response, `finalize` gives it a valid status, which is no interim one, one framing, which agrees with
the body and the trailers, and no content where the status forbids it; and it changes that form no more. -/
theorem finalize_spec (crates : ResponseCrates) (r : Response Stream) :
    let final := r.finalize crates
    (100 ≤ final.status ∧ final.status ≤ 999) ∧
    (isInformational final.status = true →
      final.status = 101 ∧ validWebsocketSwitchingProtocols crates final.headers = true) ∧
    HeaderName.transferEncoding ∉ final.headers ∧
    (final.headers.getAll .contentLength).length ≤ 1 ∧
    (∀ bytes, final.bodyKind = .bytes bytes → final.headers.getAll .contentLength =
      if final.trailers.isNone then [decimalValue bytes.data.length] else []) ∧
    ¬ (HeaderName.contentLength ∈ final.headers ∧ final.trailers.isSome) ∧
    (HeaderName.trailer ∈ final.headers ↔ final.trailers.isSome) ∧
    (∀ trailers, final.trailers = some trailers → ∃ value, final.headers.getAll .trailer = [value] ∧
      listedNames value = some (trailers.keys.map HeaderName.text)) ∧
    (statusHasNoContent final.status = true → final.bodyKind = .empty ∧ final.trailers = none) ∧
    final.finalize crates = final := by
  intro final
  have h : final.Finalized crates := finalized_finalize r
  obtain ⟨hvalid, hinterim⟩ := status_of_checkStatus h.status
  refine ⟨hvalid, hinterim, h.noTransferEncoding, ?_, fun bytes hbody => ?_, fun hboth => ?_, ?_, ?_, ?_, ?_⟩
  · by_cases hmem : HeaderName.contentLength ∈ final.headers
    · obtain ⟨n, -, hget⟩ := h.oneLength hmem
      rw [hget]
      exact le_rfl
    · rw [MultiMap.getAll_of_not_mem hmem]
      exact Nat.zero_le 1
  · cases htrailers : final.trailers with
    | none => exact h.declared bytes hbody (h.counted bytes hbody htrailers)
    | some trailers => exact MultiMap.getAll_of_not_mem (h.announced trailers htrailers).2.2
  · obtain ⟨trailers, htrailers⟩ := Option.isSome_iff_exists.1 hboth.2
    exact (h.announced trailers htrailers).2.2 hboth.1
  · cases htrailers : final.trailers with
    | none => exact ⟨fun hmem => absurd hmem (h.notAnnounced htrailers), nofun⟩
    | some trailers =>
      refine ⟨fun _ => rfl, fun _ => MultiMap.mem_iff_getAll.2 ?_⟩
      rw [(h.announced trailers htrailers).2.1]
      exact cons_ne_nil _ _
  · intro trailers htrailers
    exact ⟨_, (h.announced trailers htrailers).2.1, listedNames_trailerNames trailers⟩
  · intro hno
    obtain ⟨hbody, htrailers, -⟩ := h.noContent hno
    exact ⟨hbody, htrailers⟩
  · exact finalize_of_finalized h

end Response

end RustRest
