import RustRest.Http1.Head
import RustRest.Request.Views
import RustRest.Response.Vary

/-!
# Compression

`compression` negotiates a content coding with the client. What it answers depends on the `Accept-Encoding` fields of
the request, so every response that can have more than one form says so in one `Vary` field.

Main result: **`compression_varies`**.
-/

namespace RustRest

open Response (listedNames)

variable {Stream : Type}

/-! ## Codings -/

inductive Encoding where
  | gzip
  | brotli
  | deflate
  deriving DecidableEq

def Encoding.name : Encoding → String
  | .gzip => "gzip"
  | .brotli => "br"
  | .deflate => "deflate"

/-- Among equal qualities the least one is used. -/
def Encoding.serverPreference : Encoding → ℕ
  | .gzip => 0
  | .brotli => 1
  | .deflate => 2

/-- An element of `Accept-Encoding`. -/
structure AcceptEncodingToken where
  name : String
  quality : ℕ
  clientOrder : ℕ
  deriving DecidableEq

/-- `parse_quality`, in thousandths. -/
def parseQuality (raw : List Char) : Option ℕ :=
  let (whole, fraction) := (splitOnce '.' raw).getD (raw, [])
  let bytes := utf8 (String.ofList fraction)
  if whole = ['0'] then
    if bytes.length > 3 ∨ ¬ bytes.all (fun byte => 0x30 ≤ byte && byte ≤ 0x39) then none
    else some (Nat.ofDigitChars 10 (fraction ++ List.replicate (3 - bytes.length) '0') 0)
  else if whole = ['1'] then
    if bytes.any (fun byte => byte != 0x30) ∨ bytes.length > 3 then none else some 1000
  else none

def tokenParam (quality : ℕ) (param : List Char) : ℕ :=
  match splitOnce '=' (trim param) with
  | none => quality
  | some (key, value) =>
    if eqIgnoreAsciiCase (String.ofList (trim key)) "q" then (parseQuality (trim value)).getD 0 else quality

/-- A coding and its `q` parameter. -/
def parseAcceptEncodingToken (clientOrder : ℕ) (raw : List Char) : Option AcceptEncodingToken :=
  let raw := trim raw
  if raw.isEmpty then none
  else match raw.splitOn ';' with
    | [] => none
    | first :: params =>
      let name := toAsciiLowercase (String.ofList (trim first))
      if name = "" then none else some ⟨name, params.foldl tokenParam 1000, clientOrder⟩

def acceptEncodingTokens (header : String) : List AcceptEncodingToken :=
  (header.toList.splitOn ',').zipIdx.filterMap fun part => parseAcceptEncodingToken part.2 part.1

variable (r : Response Stream) (tokens : List AcceptEncodingToken)

def findToken (name : String) : Option AcceptEncodingToken :=
  tokens.find? fun token => token.name = name

/-- The quality of the uncoded form. -/
def identityQuality : ℕ :=
  ((findToken tokens "identity").map AcceptEncodingToken.quality).getD
    (if (findToken tokens "*").map AcceptEncodingToken.quality = some 0 then 0 else 1000)

/-- A supported coding, as the client ranks it. -/
structure CodingPreference where
  coding : Encoding
  quality : ℕ
  clientOrder : ℕ

/-- The outcome of the negotiation. -/
inductive Negotiation where
  | encode (encoding : Encoding) (identityAcceptable : Bool)
  | identity
  | notAcceptable
  deriving DecidableEq

def codingPreference (coding : Encoding) : Option CodingPreference :=
  let wildcard := findToken tokens "*"
  let explicit := findToken tokens coding.name
  let quality := ((explicit.map AcceptEncodingToken.quality).or (wildcard.map AcceptEncodingToken.quality)).getD 0
  let clientOrder := ((explicit.map AcceptEncodingToken.clientOrder).or
    (wildcard.map AcceptEncodingToken.clientOrder)).getD u64Max
  if quality > 0 then some ⟨coding, quality, clientOrder⟩ else none

def comparePreference (left right : CodingPreference) : Ordering :=
  (compare left.quality right.quality).then
    ((compare right.coding.serverPreference left.coding.serverPreference).then
      (compare right.clientOrder left.clientOrder))

def maxBy {α : Type} (cmp : α → α → Ordering) : List α → Option α
  | [] => none
  | first :: rest => some (rest.foldl (fun best a => if cmp best a = .gt then best else a) first)

/-- `negotiate_encoding`: the supported coding of the best quality. -/
def negotiateEncoding (header : String) (supported : List Encoding) : Negotiation :=
  let tokens := acceptEncodingTokens header
  match maxBy comparePreference (supported.filterMap (codingPreference tokens)) with
  | none => if identityQuality tokens = 0 then .notAcceptable else .identity
  | some best =>
    if ((findToken tokens "identity").map AcceptEncodingToken.quality).any (· > best.quality) then .identity
    else .encode best.coding (identityQuality tokens > 0)

def codingIsAcceptable (coding : String) : Bool :=
  if eqIgnoreAsciiCase coding "identity" then identityQuality tokens > 0
  else
    (((tokens.find? fun token => eqIgnoreAsciiCase token.name coding).map AcceptEncodingToken.quality).or
      ((findToken tokens "*").map AcceptEncodingToken.quality)).getD 0 > 0

/-- Every coding that the response came with is acceptable. -/
def preencodedIsAcceptable (acceptEncoding : Option String) (contentEncoding : Option (List Char)) : Bool :=
  match contentEncoding with
  | none => false
  | some contentEncoding =>
    let codings := ((contentEncoding.splitOn ',').map trim).filter fun coding => !coding.isEmpty
    if codings.isEmpty then false
    else match acceptEncoding with
      | none => true
      | some acceptEncoding =>
        codings.all fun coding => codingIsAcceptable (acceptEncodingTokens acceptEncoding) (String.ofList coding)

/-! ## The middleware -/

namespace HeaderName

def contentEncoding : HeaderName := ⟨"content-encoding", by decide, by decide, by decide⟩
def cacheControl : HeaderName := ⟨"cache-control", by decide, by decide, by decide⟩
def acceptRanges : HeaderName := ⟨"accept-ranges", by decide, by decide, by decide⟩
def contentRange : HeaderName := ⟨"content-range", by decide, by decide, by decide⟩
def etag : HeaderName := ⟨"etag", by decide, by decide, by decide⟩
def contentMd5 : HeaderName := ⟨"content-md5", by decide, by decide, by decide⟩
def digest : HeaderName := ⟨"digest", by decide, by decide, by decide⟩
def contentDigest : HeaderName := ⟨"content-digest", by decide, by decide, by decide⟩
def reprDigest : HeaderName := ⟨"repr-digest", by decide, by decide, by decide⟩

end HeaderName

/-- `combined_request_header`. -/
def Request.combinedHeader (req : Request) (name : String) : Option String :=
  let values := req.headersAll name
  if values.isEmpty then req.header name else some (",".intercalate values)

/-- The loop of `combined_content_encoding`. -/
def combineValues : List HeaderValue → List Char → Option (List Char)
  | [], combined => some combined
  | value :: rest, combined => match value.toStr with
    | none => none
    | some text => combineValues rest ((if combined.isEmpty then combined else combined ++ [',']) ++ text)

def statusHasNoRepresentation (status : ℕ) : Bool :=
  (100 ≤ status && status < 200) || status == 204 || status == 205 || status == 304

def hasNoTransform (cacheControl : List Char) : Bool :=
  (cacheControl.splitOn ',').any fun token => eqIgnoreAsciiCase (String.ofList (trim token)) "no-transform"

namespace Response

/-- The buffered body. -/
def bodyBytes : Option Bytes :=
  match r.bodyKind with
  | .bytes bytes => some bytes
  | .stream _ => none
  | .empty => none

/-- `combined_content_encoding`: nothing without the field, and no text if a value is none. -/
def combinedContentEncoding : Option (Option (List Char)) :=
  let values := r.headers.getAll .contentEncoding
  if values.isEmpty then none else some (combineValues values [])

/-- The response must not be compressed. -/
def shouldSkipTransform (minSize : ℕ) : Bool :=
  r.status == 206 || r.trailers.isSome ||
    ((r.headers.getAll .cacheControl).any fun value => (value.toStr.map hasNoTransform).getD true) ||
    "image/".toList.isPrefixOf (toAsciiLowercase (String.ofList
      (((r.headers.get .contentType).bind HeaderValue.toStr).getD r.contentType.toList))).toList ||
    (r.bodyBytes.map fun body => decide (body.data.length < minSize)).getD true

def replaceBodyBytes (bytes : Bytes) : Response Stream :=
  match r.bodyKind with
  | .bytes _ => { r with bodyKind := .bytes bytes }
  | .stream _ => r
  | .empty => r

/-- Fields that describe the bytes before compression. -/
def removeStaleRepresentationHeaders : Response Stream :=
  { r with headers := [HeaderName.contentLength, .acceptRanges, .contentRange, .etag, .contentMd5, .digest,
      .contentDigest, .reprDigest].foldl MultiMap.remove r.headers }

/-- `not_acceptable_response`. -/
def notAcceptable (crates : ResponseCrates) : Response Stream :=
  { (fromError crates (.new 406 "not_acceptable" "No hay una codificacion de respuesta aceptable") : Response Stream) with
    headers := MultiMap.insert ∅ .vary (.ofVisible "Accept-Encoding".toList (by decide)) }

end Response

/-- `compression_with_min_size_and_supported`. `encode` is `encode_response_body`: the encoders are other crates, and
whether they run in the blocking pool does not change what they give. -/
structure Compression where
  minSize : ℕ
  supported : List Encoding
  encode : Encoding → Bytes → Except HttpError Bytes
  crates : ResponseCrates

/-- `supported_encodings`, with the `brotli` feature or without. -/
def supportedEncodings (brotli : Bool) : List Encoding :=
  if brotli then [.gzip, .brotli, .deflate] else [.gzip, .deflate]

namespace Compression

def gzip (encode : Encoding → Bytes → Except HttpError Bytes) (crates : ResponseCrates) : Compression :=
  ⟨0, [.gzip], encode, crates⟩

/-- `compression_with_min_size`. -/
def withMinSize (minSize : ℕ) (brotli : Bool) (encode : Encoding → Bytes → Except HttpError Bytes)
    (crates : ResponseCrates) : Compression :=
  ⟨minSize, supportedEncodings brotli, encode, crates⟩

/-- `compression`, with `COMPRESSION_MIN_BYTES`. -/
def compression (brotli : Bool) (encode : Encoding → Bytes → Except HttpError Bytes) (crates : ResponseCrates) :
    Compression :=
  withMinSize 1024 brotli encode crates

variable (compression : Compression)

def encodeBody (encoding : Encoding) (res : Response Stream) : Option (Response Stream) :=
  res.bodyBytes.map fun body => match compression.encode encoding body with
    | .ok body => ((res.replaceBodyBytes body).removeStaleRepresentationHeaders).header "content-encoding" encoding.name
    | .error error => .fromError compression.crates error

def negotiated (negotiation : Option Negotiation) (transformSkipped : Bool) (res : Response Stream) :
    Option (Response Stream) :=
  match negotiation with
  | some (.encode encoding identityAcceptable) =>
    if transformSkipped then if identityAcceptable then some res else some (.notAcceptable compression.crates)
    else compression.encodeBody encoding res
  | some .notAcceptable => some (.notAcceptable compression.crates)
  | some .identity => some res
  | none => some res

/-- The middleware, around the next layer. -/
def handle (req : Request) (next : Request → Response Stream) : Option (Response Stream) :=
  let acceptEncoding := req.combinedHeader "accept-encoding"
  let negotiation := acceptEncoding.map (negotiateEncoding · compression.supported)
  let res := next req
  if statusHasNoRepresentation res.status then
    if res.status = 304 then some res.ensureAcceptEncodingVary else some res
  else match res.combinedContentEncoding with
    | some contentEncoding =>
      if preencodedIsAcceptable acceptEncoding contentEncoding then some res.ensureAcceptEncodingVary
      else some (.notAcceptable compression.crates)
    | none =>
      compression.negotiated negotiation (res.shouldSkipTransform compression.minSize) res.ensureAcceptEncodingVary

end Compression

/-! ## The coding that is chosen -/

theorem foldl_best_mem {α : Type} (cmp : α → α → Ordering) : ∀ (rest : List α) (first : α),
    rest.foldl (fun best a => if cmp best a = .gt then best else a) first ∈ first :: rest
  | [], first => List.mem_singleton.2 rfl
  | a :: rest, first => by
    rw [List.foldl_cons]
    split
    · rcases List.mem_cons.1 (foldl_best_mem cmp rest first) with hfirst | hrest
      · rw [hfirst]
        exact List.mem_cons_self
      · exact List.mem_cons_of_mem _ (List.mem_cons_of_mem _ hrest)
    · exact List.mem_cons_of_mem _ (foldl_best_mem cmp rest a)

theorem maxBy_mem {α : Type} {cmp : α → α → Ordering} {l : List α} {best : α} (h : maxBy cmp l = some best) :
    best ∈ l := by
  cases l with
  | nil => cases h
  | cons first rest =>
    obtain rfl := Option.some.inj h
    exact foldl_best_mem cmp rest first

theorem coding_of_codingPreference {tokens : List AcceptEncodingToken} {coding : Encoding} {preference : CodingPreference}
    (h : codingPreference tokens coding = some preference) : preference.coding = coding := by
  obtain ⟨-, hpreference⟩ := Option.ite_none_right_eq_some.1 h
  rw [← Option.some.inj hpreference]

theorem mem_of_negotiateEncoding {header : String} {supported : List Encoding} {encoding : Encoding} {identity : Bool}
    (h : negotiateEncoding header supported = .encode encoding identity) : encoding ∈ supported := by
  unfold negotiateEncoding at h
  dsimp only at h
  cases hbest : maxBy comparePreference (supported.filterMap (codingPreference (acceptEncodingTokens header))) with
  | none =>
    rw [hbest] at h
    dsimp only at h
    split at h <;> cases h
  | some best =>
    rw [hbest] at h
    dsimp only at h
    split at h
    · cases h
    · injection h with hcoding
      obtain ⟨coding, hmem, hpreference⟩ := List.mem_filterMap.1 (maxBy_mem hbest)
      rw [← hcoding, coding_of_codingPreference hpreference]
      exact hmem

/-! ## One field -/

def Response.VariesOnce : Prop :=
  ∃ value, r.headers.getAll .vary = [value] ∧ (value = .wildcard ∨
    ∃ names, listedNames value = some names ∧ ∃ listed ∈ names, eqIgnoreAsciiCase listed "accept-encoding" = true)

namespace Response

theorem VariesOnce.of_getAll {r r' : Response Stream} (h : r.VariesOnce)
    (hvary : r'.headers.getAll .vary = r.headers.getAll .vary) : r'.VariesOnce := by
  unfold VariesOnce
  rw [hvary]
  exact h

theorem variesOnce_ensureAcceptEncodingVary : r.ensureAcceptEncodingVary.VariesOnce := by
  rcases r.ensureAcceptEncodingVary_cases with ⟨headers, heq, hvary, -⟩ | ⟨value, fields, heq, hcombines⟩
  · exact ⟨.wildcard, by rw [heq]; exact hvary, .inl rfl⟩
  · refine ⟨value, ?_, .inr ⟨fields, hcombines.listed, "Accept-Encoding", hcombines.acceptEncoding, by decide⟩⟩
    rw [heq]
    dsimp only
    rw [MultiMap.getAll_insert_self]

theorem bodyBytes_ensureAcceptEncodingVary : r.ensureAcceptEncodingVary.bodyBytes = r.bodyBytes := by
  rcases r.ensureAcceptEncodingVary_cases with ⟨headers, heq, -⟩ | ⟨value, fields, heq, -⟩
  · rw [heq]
    rfl
  · rw [heq]
    rfl

theorem variesOnce_notAcceptable (crates : ResponseCrates) : (notAcceptable crates : Response Stream).VariesOnce := by
  refine ⟨.ofVisible "Accept-Encoding".toList (by decide), ?_, .inr ⟨["Accept-Encoding"], by decide,
    "Accept-Encoding", List.mem_singleton.2 rfl, by decide⟩⟩
  rw [notAcceptable, MultiMap.getAll_insert_self]

theorem headers_replaceBodyBytes (bytes : Bytes) : (r.replaceBodyBytes bytes).headers = r.headers := by
  unfold replaceBodyBytes
  split <;> rfl

theorem getAll_vary_removeStaleRepresentationHeaders :
    r.removeStaleRepresentationHeaders.headers.getAll .vary = r.headers.getAll .vary :=
  MultiMap.getAll_foldl_remove (by decide) r.headers

theorem bodyBytes_of_shouldSkipTransform {r : Response Stream} {minSize : ℕ}
    (h : r.shouldSkipTransform minSize = false) : ∃ body, r.bodyBytes = some body := by
  cases hbody : r.bodyBytes with
  | some body => exact ⟨body, rfl⟩
  | none =>
    have hlast := (Bool.or_eq_false_iff.1 h).2
    rw [hbody] at hlast
    cases hlast

end Response

namespace Compression

variable {compression : Compression}

theorem variesOnce_encodeBody {encoding : Encoding} {res : Response Stream} {body encoded : Bytes} (h : res.VariesOnce)
    (hbody : res.bodyBytes = some body) (hencode : compression.encode encoding body = .ok encoded) :
    ∃ out, compression.encodeBody encoding res = some out ∧ out.VariesOnce := by
  have hname : HeaderName.ofStr "content-encoding" ≠ some .vary := by decide
  unfold encodeBody
  rw [hbody, Option.map_some, hencode]
  refine ⟨_, rfl, h.of_getAll ?_⟩
  rw [Response.getAll_vary_header hname, Response.getAll_vary_removeStaleRepresentationHeaders,
    Response.headers_replaceBodyBytes]

theorem variesOnce_negotiated {negotiation : Option Negotiation} {skipped : Bool} {res : Response Stream}
    (h : res.VariesOnce) (hencode : ∀ encoding identity, negotiation = some (.encode encoding identity) →
      skipped = false → ∃ body encoded, res.bodyBytes = some body ∧ compression.encode encoding body = .ok encoded) :
    ∃ out, compression.negotiated negotiation skipped res = some out ∧ out.VariesOnce := by
  have hrefused : (Response.notAcceptable compression.crates : Response Stream).VariesOnce :=
    Response.variesOnce_notAcceptable compression.crates
  rcases negotiation with _ | ⟨encoding, identity⟩ | _ | _
  · exact ⟨res, rfl, h⟩
  · cases skipped with
    | false =>
      obtain ⟨body, encoded, hbody, hencoded⟩ := hencode encoding identity rfl rfl
      exact variesOnce_encodeBody h hbody hencoded
    | true =>
      cases identity with
      | false => exact ⟨_, rfl, hrefused⟩
      | true => exact ⟨res, rfl, h⟩
  · exact ⟨res, rfl, h⟩
  · exact ⟨_, rfl, hrefused⟩

/-- Every way out but that without a representation. -/
theorem variesOnce_handle {req : Request} {next : Request → Response Stream}
    (hrepresentation : statusHasNoRepresentation (next req).status = false)
    (hencode : ∀ encoding ∈ compression.supported, ∀ body, (next req).bodyBytes = some body →
      ∃ encoded, compression.encode encoding body = .ok encoded) :
    ∃ out, compression.handle req next = some out ∧ out.VariesOnce := by
  have hensured := (next req).variesOnce_ensureAcceptEncodingVary
  unfold handle
  dsimp only
  rw [hrepresentation, if_neg Bool.false_ne_true]
  cases (next req).combinedContentEncoding with
  | some contentEncoding =>
    dsimp only
    split
    · exact ⟨_, rfl, hensured⟩
    · exact ⟨_, rfl, Response.variesOnce_notAcceptable compression.crates⟩
  | none =>
    refine variesOnce_negotiated hensured fun encoding identity hnegotiation hskipped => ?_
    obtain ⟨header, -, hchosen⟩ := Option.map_eq_some_iff.1 hnegotiation
    obtain ⟨body, hbody⟩ := Response.bodyBytes_of_shouldSkipTransform hskipped
    obtain ⟨encoded, hencoded⟩ := hencode encoding (mem_of_negotiateEncoding hchosen) body hbody
    exact ⟨body, encoded, by rw [Response.bodyBytes_ensureAcceptEncodingVary, hbody], hencoded⟩

theorem handle_of_statusHasNoRepresentation {inner : Response Stream} (h : statusHasNoRepresentation inner.status = true)
    (req : Request) : compression.handle req (fun _ => inner) =
      some (if inner.status = 304 then inner.ensureAcceptEncodingVary else inner) := by
  unfold handle
  dsimp only
  rw [h, if_pos rfl]
  split <;> rfl

end Compression

/-! ## Two clients -/

/-- **Two clients.** Any two requests, whatever their `Accept-Encoding` fields are, and the same response of the next
layer, whose body can be encoded: both are answered, and if the answers differ then each has one `Vary` field, which is
`*` or names `Accept-Encoding`. For every response, `ensure_accept_encoding_vary` is done after one time; what it leaves
is `*`, or has every name that was listed once; and a `*` that was listed stays. -/
theorem compression_varies (compression : Compression) (inner : Response Stream) :
    ((∀ encoding ∈ compression.supported, ∀ body, inner.bodyBytes = some body →
        ∃ encoded, compression.encode encoding body = .ok encoded) →
      ∀ req req' : Request, ∃ res res', compression.handle req (fun _ => inner) = some res ∧
        compression.handle req' (fun _ => inner) = some res' ∧ (res ≠ res' → res.VariesOnce ∧ res'.VariesOnce)) ∧
    ∀ r : Response Stream, r.ensureAcceptEncodingVary.ensureAcceptEncodingVary = r.ensureAcceptEncodingVary ∧
      (r.ensureAcceptEncodingVary.headers.getAll .vary = [.wildcard] ∨
        ∃ value fields, r.ensureAcceptEncodingVary.headers.getAll .vary = [value] ∧ listedNames value = some fields ∧
          ∀ old ∈ r.headers.getAll .vary, ∃ names, listedNames old = some names ∧
            ∀ name ∈ names, fields.countP (fun field => eqIgnoreAsciiCase field name) = 1) ∧
      ∀ old ∈ r.headers.getAll .vary, ∀ names, listedNames old = some names → "*" ∈ names →
        r.ensureAcceptEncodingVary.headers.getAll .vary = [.wildcard] := by
  constructor
  · intro hencode req req'
    cases hrepresentation : statusHasNoRepresentation inner.status with
    | true =>
      exact ⟨_, _, Compression.handle_of_statusHasNoRepresentation hrepresentation req,
        Compression.handle_of_statusHasNoRepresentation hrepresentation req', fun hdiffer => absurd rfl hdiffer⟩
    | false =>
      have hvaries : ∀ req, ∃ out, compression.handle req (fun _ => inner) = some out ∧ out.VariesOnce := fun req =>
        Compression.variesOnce_handle hrepresentation hencode
      obtain ⟨res, hres, honce⟩ := hvaries req
      obtain ⟨res', hres', honce'⟩ := hvaries req'
      exact ⟨res, res', hres, hres', fun _ => ⟨honce, honce'⟩⟩
  · intro r
    refine ⟨r.ensureAcceptEncodingVary_twice, ?_⟩
    rcases r.ensureAcceptEncodingVary_cases with ⟨headers, heq, hvary, -⟩ | ⟨value, fields, heq, hcombines⟩
    · rw [heq]
      exact ⟨.inl hvary, fun _ _ _ _ _ => hvary⟩
    · rw [heq]
      dsimp only
      have hvary : (r.headers.insert .vary value).getAll .vary = [value] := by rw [MultiMap.getAll_insert_self]
      refine ⟨.inr ⟨value, fields, hvary, hcombines.listed, fun old hold => ?_⟩, fun old hold names hnames hstar => ?_⟩
      · obtain ⟨names, hnames, -, honce⟩ := hcombines.before old hold
        exact ⟨names, hnames, honce⟩
      · obtain ⟨names', hnames', hnostar, -⟩ := hcombines.before old hold
        obtain rfl := Option.some.inj (hnames.symm.trans hnames')
        exact absurd hstar hnostar

def HeaderName.acceptEncoding : HeaderName := ⟨"accept-encoding", by decide, by decide, by decide⟩

def acceptRequest (acceptEncoding : String) : Request :=
  networkRequest (MultiMap.insert ∅ .acceptEncoding acceptEncoding) none

/-- `gzip` with an encoder that keeps the bytes. -/
def keepingGzip : Compression := .gzip (fun _ body => .ok body) ⟨fun _ => ⟨[], Bytes.nil_bounded⟩, fun _ => none⟩

/-- A response that varies by `Origin` already. -/
def variedResponse : Response Unit := (Response.send ⟨[], Bytes.nil_bounded⟩ : Response Unit).header "vary" "Origin, origin"

def answeredCodings (res : Option (Response Unit)) : Option (List HeaderValue) :=
  res.map fun res => res.headers.getAll .contentEncoding

/-- One client takes `gzip`, another one takes nothing but the uncoded form. -/
theorem compression_varies_gzip : ∃ res res' : Response Unit,
    keepingGzip.handle (acceptRequest "gzip;q=0.5, *;q=0") (fun _ => variedResponse) = some res ∧
    keepingGzip.handle (acceptRequest "identity") (fun _ => variedResponse) = some res' ∧
    res ≠ res' ∧ res.VariesOnce ∧ res'.VariesOnce := by
  obtain ⟨hanswers, -⟩ := compression_varies keepingGzip variedResponse
  obtain ⟨res, res', hres, hres', hvaries⟩ := hanswers (fun _ _ body _ => ⟨body, rfl⟩)
    (acceptRequest "gzip;q=0.5, *;q=0") (acceptRequest "identity")
  have hdiffer : res ≠ res' := fun heq => by
    have hsame := congrArg answeredCodings (hres.trans ((congrArg some heq).trans hres'.symm))
    exact absurd hsame (by decide +kernel)
  exact ⟨res, res', hres, hres', hdiffer, hvaries hdiffer⟩

end RustRest
