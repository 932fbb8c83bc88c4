import RustRest.Lib.Reader
import RustRest.Text

/-!
# The connection preflight

`inspect_connection` reads the first bytes of a connection until they tell HTTP/2 from HTTP/1, and hands them over to
be read again through `PrefixedIo`. The transport may deliver the bytes in pieces of any size.

Main results: **`preflight_any_split`**, **`preface_not_http1_iff`**.
-/

namespace RustRest

open Reader List

/-! ## The preface of HTTP/2 -/

/-- `HTTP2_PREFACE`: `PRI * HTTP/2.0\r\n\r\nSM\r\n\r\n`. -/
def http2Preface : List UInt8 :=
  [0x50, 0x52, 0x49, 0x20, 0x2a, 0x20, 0x48, 0x54, 0x54, 0x50, 0x2f, 0x32, 0x2e, 0x30, 0x0d, 0x0a, 0x0d, 0x0a, 0x53, 0x4d,
    0x0d, 0x0a, 0x0d, 0x0a]

example : http2Preface = utf8 "PRI * HTTP/2.0\r\n\r\nSM\r\n\r\n" := by decide +kernel

def http2FrameHeaderBytes : ℕ := 9

def http2SettingsFrame : UInt8 := 0x4

def http2SettingsAck : UInt8 := 0x1

def http2MaxInitialSettingsBytes : ℕ := 16 * 1024

def maxPrefaceBytes : ℕ := http2Preface.length + http2FrameHeaderBytes + http2MaxInitialSettingsBytes

inductive IoErrorKind where
  | invalidData
  | unexpectedEof
  deriving DecidableEq, Repr

/-- `io::Error`. -/
structure IoError where
  kind : IoErrorKind
  message : String
  deriving DecidableEq, Repr

inductive Http2PrefaceState where
  | pending
  | complete
  | notHttp2
  deriving DecidableEq, Repr

def initialSettings (header : List UInt8) : Except IoError ℕ :=
  let byte (i : ℕ) : ℕ := (header.getD i 0).toNat
  let payloadLength := (byte 0 <<< 16) ||| (byte 1 <<< 8) ||| byte 2
  let frameType := header.getD 3 0
  let flags := header.getD 4 0
  let streamId := ((byte 5 <<< 24) ||| (byte 6 <<< 16) ||| (byte 7 <<< 8) ||| byte 8) &&& 0x7fffffff
  if frameType ≠ http2SettingsFrame ∨ flags &&& http2SettingsAck ≠ 0 ∨ streamId ≠ 0 ∨ payloadLength % 6 ≠ 0 ∨
      payloadLength > http2MaxInitialSettingsBytes then
    .error ⟨.invalidData, "el frame SETTINGS inicial de HTTP/2 no es valido"⟩
  else .ok payloadLength

/-- `inspect_http2_client_preface`, on what was read so far. -/
def inspectHttp2ClientPreface (bytes : List UInt8) : Except IoError Http2PrefaceState :=
  if bytes.length < http2Preface.length then
    .ok (if bytes.isPrefixOf http2Preface then .pending else .notHttp2)
  else if ¬ http2Preface.isPrefixOf bytes then .ok .notHttp2
  else
    let frameStart := http2Preface.length
    if bytes.length < frameStart + http2FrameHeaderBytes then .ok .pending
    else do
      let payloadLength ← initialSettings ((bytes.drop frameStart).take http2FrameHeaderBytes)
      let total := frameStart + http2FrameHeaderBytes + payloadLength
      .ok (if bytes.length ≥ total then .complete else .pending)

/-! ## The preflight -/

/-- What was negotiated before the first byte. -/
inductive ExpectedProtocol where
  | auto
  | http1
  | http2
  deriving DecidableEq, Repr

/-- What the bytes are taken for. -/
inductive DetectedProtocol where
  | http1
  | http2
  deriving DecidableEq, Repr

/-- `PrefixedIo`: the bytes that were read, how many of them were read again, and the transport. -/
structure PrefixedIo where
  inner : Source UInt8
  consumed : List UInt8
  position : ℕ
  protocol : DetectedProtocol

namespace PrefixedIo

def new (inner : Source UInt8) (consumed : List UInt8) (protocol : DetectedProtocol) : PrefixedIo :=
  { inner, consumed, position := 0, protocol }

/-- `PrefixedIo::poll_read` into a buffer with room for `n` bytes. -/
def pollRead (io : PrefixedIo) (n : ℕ) : List UInt8 × PrefixedIo :=
  if io.position < io.consumed.length then
    let remaining := io.consumed.drop io.position
    let length := min remaining.length n
    (remaining.take length, { io with position := io.position + length })
  else
    let (chunk, inner) := io.inner.read n
    (chunk, { io with inner })

def remaining (io : PrefixedIo) : List UInt8 := io.consumed.drop io.position ++ io.inner.rest

end PrefixedIo

def protocolMismatch (received negotiated : String) : IoError :=
  ⟨.invalidData, "se recibio " ++ received ++ " despues de negociar " ++ negotiated⟩

variable {bytes : List UInt8}

theorem rest_length_lt {io io' : Source UInt8} {n : ℕ} {byte : UInt8}
    (h : io.read n = (byte :: bytes, io')) : io'.rest.length < io.rest.length := by
  have happend := congrArg List.length (source_lawful.append io n)
  rw [h, length_append, length_cons] at happend
  dsimp only at happend
  omega

def inspectLoop (expected : ExpectedProtocol) (consumed : List UInt8) (io : Source UInt8) :
    Except IoError PrefixedIo :=
  match inspectHttp2ClientPreface consumed with
  | .error error => .error error
  | .ok .complete =>
    if expected = .http1 then .error (protocolMismatch "HTTP/2" "HTTP/1.1")
    else .ok (.new io consumed .http2)
  | .ok .notHttp2 =>
    if expected = .http2 then .error (protocolMismatch "HTTP/1.1" "HTTP/2")
    else .ok (.new io consumed .http1)
  | .ok .pending =>
    if consumed.length ≥ maxPrefaceBytes then
      .error ⟨.invalidData, "el frame SETTINGS inicial de HTTP/2 es demasiado grande"⟩
    else
      match _hread : io.read (min (maxPrefaceBytes - consumed.length) 4096) with
      | ([], io) =>
        if expected = .http2 ∨ (consumed ≠ [] ∧ consumed.isPrefixOf http2Preface) then
          .error ⟨.unexpectedEof, "el prefacio HTTP/2 del cliente esta incompleto"⟩
        else .ok (.new io consumed .http1)
      | (byte :: bytes, io) => inspectLoop expected (consumed ++ byte :: bytes) io
termination_by io.rest.length
decreasing_by exact rest_length_lt _hread

/-- `inspect_connection`. -/
def inspectConnection (expected : ExpectedProtocol) (io : Source UInt8) : Except IoError PrefixedIo :=
  inspectLoop expected [] io

/-! ## What the bytes tell -/

theorem initialSettings_le {header : List UInt8} {n : ℕ} (h : initialSettings header = .ok n) :
    n ≤ http2MaxInitialSettingsBytes := by
  unfold initialSettings at h
  dsimp only at h
  split at h
  · cases h
  · next hcond =>
    cases h
    simp only [not_or, gt_iff_lt, Nat.not_lt] at hcond
    exact hcond.2.2.2.2

/-- Bytes that do not tell yet are fewer than the limit. -/
theorem pending_length (h : inspectHttp2ClientPreface bytes = .ok .pending) :
    bytes.length < maxPrefaceBytes := by
  unfold inspectHttp2ClientPreface at h
  have hmax : maxPrefaceBytes = http2Preface.length + http2FrameHeaderBytes + http2MaxInitialSettingsBytes := rfl
  split at h
  · omega
  · split at h
    · cases h
    · dsimp only at h
      split at h
      · omega
      · obtain ⟨n, hn, h⟩ := bind_eq_ok.1 h
        have hle := initialSettings_le hn
        split at h
        · cases h
        · omega

theorem inspect_notHttp2 (h : ¬ bytes <+: http2Preface) (h' : ¬ http2Preface <+: bytes) :
    inspectHttp2ClientPreface bytes = .ok .notHttp2 := by
  rw [← isPrefixOf_iff_prefix] at h h'
  unfold inspectHttp2ClientPreface
  rw [if_neg h, if_pos h', ite_self]

theorem inspect_header (h : http2Preface <+: bytes)
    (hlength : http2Preface.length + http2FrameHeaderBytes ≤ bytes.length) :
    inspectHttp2ClientPreface bytes =
      initialSettings ((bytes.drop http2Preface.length).take http2FrameHeaderBytes) >>= fun n =>
        .ok (if bytes.length ≥ http2Preface.length + http2FrameHeaderBytes + n then .complete else .pending) := by
  have hfront : http2Preface.isPrefixOf bytes = true := isPrefixOf_iff_prefix.2 h
  unfold inspectHttp2ClientPreface
  rw [if_neg (by omega), if_neg (not_not.2 hfront)]
  dsimp only
  rw [if_neg (by omega)]

theorem inspect_pending (h : bytes <+: http2Preface ∨ http2Preface <+: bytes)
    (hlength : bytes.length < http2Preface.length + http2FrameHeaderBytes) :
    inspectHttp2ClientPreface bytes = .ok .pending := by
  unfold inspectHttp2ClientPreface
  rcases Nat.lt_or_ge bytes.length http2Preface.length with hshort | hlong
  · have hfront : bytes <+: http2Preface := h.resolve_right fun h' => absurd h'.length_le (Nat.not_le.2 hshort)
    rw [if_pos hshort, if_pos ( isPrefixOf_iff_prefix.2 hfront)]
  · have hfront : http2Preface <+: bytes := h.elim (fun h' => h'.eq_of_length_le hlong ▸ prefix_refl _) id
    rw [if_neg (Nat.not_lt.2 hlong), if_neg (not_not.2 ( isPrefixOf_iff_prefix.2 hfront))]
    dsimp only
    rw [if_pos hlength]

theorem inspect_append (h : inspectHttp2ClientPreface bytes ≠ .ok .pending) (more : List UInt8) :
    inspectHttp2ClientPreface (bytes ++ more) = inspectHttp2ClientPreface bytes := by
  by_cases hpreface : bytes <+: http2Preface ∨ http2Preface <+: bytes
  · -- the preface and the header of the first frame are there
    have hlength : http2Preface.length + http2FrameHeaderBytes ≤ bytes.length := by
      by_contra hlt
      exact h (inspect_pending hpreface (Nat.not_le.1 hlt))
    have hfront : http2Preface <+: bytes := by
      refine hpreface.elim (fun h' => ?_) id
      have hle := h'.length_le
      exact absurd hlength (by rw [http2FrameHeaderBytes]; omega)
    have hsame : ((bytes ++ more).drop http2Preface.length).take http2FrameHeaderBytes =
        (bytes.drop http2Preface.length).take http2FrameHeaderBytes := by
      rw [drop_append_of_le_length (by omega), take_append_of_le_length]
      rw [length_drop]
      omega
    rw [inspect_header hfront hlength] at h ⊢
    rw [inspect_header (hfront.trans (prefix_append _ _)) (by rw [length_append]; omega), hsame]
    cases hn : initialSettings ((bytes.drop http2Preface.length).take http2FrameHeaderBytes) with
    | error error => rfl
    | ok n =>
      rw [hn] at h
      have hcomplete : bytes.length ≥ http2Preface.length + http2FrameHeaderBytes + n := by
        by_contra hlt
        exact h (congrArg Except.ok (if_neg hlt))
      show Except.ok (if _ then _ else _) = Except.ok (if _ then _ else _)
      rw [if_pos hcomplete, if_pos (by rw [length_append]; omega)]
  · rw [not_or] at hpreface
    rw [inspect_notHttp2 hpreface.1 hpreface.2]
    refine inspect_notHttp2 (fun h' => hpreface.1 ((prefix_append _ _).trans h')) fun h' => ?_
    rcases Nat.le_total bytes.length http2Preface.length with hle | hle
    · exact hpreface.1 (prefix_of_prefix_length_le (prefix_append _ _) h' hle)
    · exact hpreface.2 (prefix_of_prefix_length_le h' (prefix_append _ _) hle)

/-! ## The whole stream -/

/-- What a whole stream tells, at its end. -/
def verdict (expected : ExpectedProtocol) (stream : List UInt8) : Except IoError DetectedProtocol :=
  match inspectHttp2ClientPreface stream with
  | .error error => .error error
  | .ok .complete => if expected = .http1 then .error (protocolMismatch "HTTP/2" "HTTP/1.1") else .ok .http2
  | .ok .notHttp2 => if expected = .http2 then .error (protocolMismatch "HTTP/1.1" "HTTP/2") else .ok .http1
  | .ok .pending =>
    if expected = .http2 ∨ (stream ≠ [] ∧ stream.isPrefixOf http2Preface) then
      .error ⟨.unexpectedEof, "el prefacio HTTP/2 del cliente esta incompleto"⟩
    else .ok .http1

theorem rest_of_read_nil {consumed : List UInt8} {io io' : Source UInt8} (hshort : ¬ consumed.length ≥ maxPrefaceBytes)
    (hread : io.read (min (maxPrefaceBytes - consumed.length) 4096) = ([], io')) : io.rest = [] :=
  source_lawful.progress io (min (maxPrefaceBytes - consumed.length) 4096) (by omega) (by rw [hread])

theorem inspectLoop_spec (expected : ExpectedProtocol) (consumed : List UInt8) (io : Source UInt8) :
    (inspectLoop expected consumed io).map PrefixedIo.protocol = verdict expected (consumed ++ io.rest) ∧
      ∀ io', inspectLoop expected consumed io = .ok io' → io'.remaining = consumed ++ io.rest := by
  fun_induction inspectLoop expected consumed io with
  | case1 consumed io error hinspect =>
    refine ⟨?_, nofun⟩
    rw [verdict, inspect_append (by rw [hinspect]; nofun), hinspect]
    rfl
  | case2 consumed io hinspect hexpected =>
    refine ⟨?_, nofun⟩
    rw [verdict, inspect_append (by rw [hinspect]; nofun), hinspect]
    dsimp only
    rw [if_pos hexpected]
    rfl
  | case3 consumed io hinspect hexpected =>
    refine ⟨?_, fun _ h => by cases h; rfl⟩
    rw [verdict, inspect_append (by rw [hinspect]; nofun), hinspect]
    dsimp only
    rw [if_neg hexpected]
    rfl
  | case4 consumed io hinspect hexpected =>
    refine ⟨?_, nofun⟩
    rw [verdict, inspect_append (by rw [hinspect]; nofun), hinspect]
    dsimp only
    rw [if_pos hexpected]
    rfl
  | case5 consumed io hinspect hexpected =>
    refine ⟨?_, fun _ h => by cases h; rfl⟩
    rw [verdict, inspect_append (by rw [hinspect]; nofun), hinspect]
    dsimp only
    rw [if_neg hexpected]
    rfl
  | case6 consumed io hinspect hlong =>
    -- the limit is never reached
    exact absurd (pending_length hinspect) (Nat.not_lt.2 hlong)
  | case7 consumed io hinspect hshort io' hread hpreface =>
    refine ⟨?_, nofun⟩
    rw [rest_of_read_nil hshort hread, append_nil, verdict, hinspect]
    dsimp only
    rw [if_pos hpreface]
    rfl
  | case8 consumed io hinspect hshort io' hread hpreface =>
    have hrest := rest_of_read_nil hshort hread
    have happend := source_lawful.append io (min (maxPrefaceBytes - consumed.length) 4096)
    rw [hread] at happend
    refine ⟨?_, fun _ h => by cases h; exact congrArg (consumed ++ ·) happend⟩
    rw [hrest, append_nil, verdict, hinspect]
    dsimp only
    rw [if_neg hpreface]
    rfl
  | case9 consumed io hinspect hshort byte bytes io' hread ih =>
    have happend := source_lawful.append io (min (maxPrefaceBytes - consumed.length) 4096)
    rw [hread] at happend
    rw [append_assoc, show byte :: bytes ++ io'.rest = io.rest from happend] at ih
    exact ih

theorem prefixedIo_lawful : Lawful PrefixedIo.pollRead PrefixedIo.remaining where
  append io n := by
    unfold PrefixedIo.pollRead
    split
    · show (io.consumed.drop io.position).take _ ++ (io.consumed.drop (io.position + _) ++ io.inner.rest) = _
      rw [← drop_drop, ← append_assoc, take_append_drop]
      rfl
    · next hdone =>
      have hnone : io.consumed.drop io.position = [] := drop_eq_nil_iff.2 (Nat.not_lt.1 hdone)
      show (io.inner.read n).1 ++ (io.consumed.drop io.position ++ (io.inner.read n).2.rest) = _
      rw [PrefixedIo.remaining, hnone]
      exact source_lawful.append io.inner n
  progress io n hn hread := by
    unfold PrefixedIo.pollRead at hread
    split at hread
    · next hlt =>
      have hlength := congrArg List.length hread
      simp only [length_take, length_drop, length_nil] at hlength
      omega
    · next hdone =>
      rw [PrefixedIo.remaining, drop_eq_nil_iff.2 (Nat.not_lt.1 hdone)]
      exact source_lawful.progress io.inner n hn hread

/-- However the transport splits a stream, the preflight comes to the same protocol or to the same error. Where it
succeeds, reads through `PrefixedIo` with buffers of any sizes return the stream from its first byte, and all of it
after enough reads. Bytes that do not tell yet are always fewer than the limit, so that the preface is never too large
and the room for the next read is positive. -/
theorem preflight_any_split (expected : ExpectedProtocol) (stream : List UInt8) (splits splits' : ℕ → ℕ) :
    (inspectConnection expected (.new stream splits)).map PrefixedIo.protocol =
      (inspectConnection expected (.new stream splits')).map PrefixedIo.protocol ∧
    (∀ io, inspectConnection expected (.new stream splits) = .ok io → ∀ sizes : List ℕ,
      let reads := readAll PrefixedIo.pollRead io sizes
      reads.1.flatten ++ reads.2.remaining = stream ∧
      ((∀ n ∈ sizes, 0 < n) → stream.length ≤ sizes.length → reads.1.flatten = stream)) ∧
    ∀ bytes, inspectHttp2ClientPreface bytes = .ok .pending → bytes.length < maxPrefaceBytes := by
  have hspec := fun splits => inspectLoop_spec expected [] (.new stream splits)
  refine ⟨(hspec splits).1.trans (hspec splits').1.symm, fun io hio sizes => ?_, fun bytes => pending_length⟩
  have hremaining : io.remaining = stream := (hspec splits).2 io hio
  rw [← hremaining]
  exact ⟨prefixedIo_lawful.flatten_readAll io sizes, prefixedIo_lawful.flatten_readAll_eq io⟩

/-! ## Streams that begin with the preface -/

def inspectTurn (expected : ExpectedProtocol) (consumed : List UInt8) : Option (Except IoError DetectedProtocol) :=
  match inspectHttp2ClientPreface consumed with
  | .error error => some (.error error)
  | .ok .complete =>
    some (if expected = .http1 then .error (protocolMismatch "HTTP/2" "HTTP/1.1") else .ok .http2)
  | .ok .notHttp2 =>
    some (if expected = .http2 then .error (protocolMismatch "HTTP/1.1" "HTTP/2") else .ok .http1)
  | .ok .pending => none

theorem inspectLoop_turn (expected : ExpectedProtocol) (consumed : List UInt8) (io : Source UInt8) :
    (∀ r, inspectTurn expected consumed = some r →
      inspectLoop expected consumed io = r.map (PrefixedIo.new io consumed)) ∧
    (inspectTurn expected consumed = none → consumed.length < maxPrefaceBytes) := by
  unfold inspectTurn inspectLoop
  cases hinspect : inspectHttp2ClientPreface consumed with
  | error error => exact ⟨fun _ hr => (by cases hr; rfl), fun h => (by cases h)⟩
  | ok state =>
    cases state with
    | pending => exact ⟨fun _ hr => (by cases hr), fun _ => pending_length hinspect⟩
    | complete | notHttp2 =>
      refine ⟨fun _ hr => ?_, fun h => by cases h⟩
      cases hr
      dsimp only
      split <;> rfl

theorem inspect_ne_notHttp2 (h : bytes <+: http2Preface ∨ http2Preface <+: bytes) :
    inspectHttp2ClientPreface bytes ≠ .ok .notHttp2 := by
  intro hnot
  rcases Nat.lt_or_ge bytes.length (http2Preface.length + http2FrameHeaderBytes) with hshort | hlong
  · rw [inspect_pending h hshort] at hnot
    cases hnot
  · have hfront : http2Preface <+: bytes := by
      refine h.elim (fun h' => ?_) id
      have hle := h'.length_le
      exact absurd hlong (by rw [http2FrameHeaderBytes]; omega)
    rw [inspect_header hfront hlong] at hnot
    obtain ⟨n, -, hstate⟩ := bind_eq_ok.1 hnot
    have hstate := Except.ok.inj hstate
    split at hstate <;> cases hstate

theorem prefix_preface_iff {stream : List UInt8} (h : http2Preface <+: stream) :
    (stream ≠ [] ∧ stream.isPrefixOf http2Preface = true) ↔ stream = http2Preface := by
  rw [ isPrefixOf_iff_prefix]
  constructor
  · rintro ⟨-, hstream⟩
    exact hstream.eq_of_length_le h.length_le
  · rintro rfl
    exact ⟨cons_ne_nil _ _, prefix_refl _⟩

/-! ## The first frame, in bytes -/

/-- The header of a first frame of a client: SETTINGS and no acknowledgement, on stream 0, with `length` bytes of whole
settings. -/
structure SettingsHeader (header : List UInt8) (length : ℕ) : Prop where
  bytes : ∃ l₀ l₁ l₂ flags s₀ : UInt8, header = [l₀, l₁, l₂, http2SettingsFrame, flags, s₀, 0, 0, 0] ∧
    flags.toNat % 2 = 0 ∧ s₀.toNat % 128 = 0 ∧ length = l₀.toNat * 65536 + l₁.toNat * 256 + l₂.toNat
  whole : length % 6 = 0
  bounded : length ≤ http2MaxInitialSettingsBytes

theorem or_shift (a b k : ℕ) (h : b < 2 ^ k) : a <<< k ||| b = a * 2 ^ k + b := by
  rw [← Nat.shiftLeft_add_eq_or_of_lt h, Nat.shiftLeft_eq]

/-- The length of a frame, as 24 bits. -/
theorem or_three (a b c : UInt8) :
    (a.toNat <<< 16 ||| b.toNat <<< 8 ||| c.toNat) = a.toNat * 65536 + b.toNat * 256 + c.toNat := by
  have hb := b.toNat_lt
  have hc := c.toNat_lt
  rw [Nat.or_assoc, or_shift _ _ 8 (by omega), or_shift _ _ 16 (by omega)]
  omega

/-- The stream of a frame, as 31 bits. -/
theorem or_four (a b c d : UInt8) :
    (a.toNat <<< 24 ||| b.toNat <<< 16 ||| c.toNat <<< 8 ||| d.toNat) &&& 0x7fffffff =
      (a.toNat % 128) * 16777216 + b.toNat * 65536 + c.toNat * 256 + d.toNat := by
  have ha := a.toNat_lt
  have hb := b.toNat_lt
  have hc := c.toNat_lt
  have hd := d.toNat_lt
  rw [Nat.or_assoc, Nat.or_assoc, or_shift _ _ 8 (by omega), or_shift _ _ 16 (by omega), or_shift _ _ 24 (by omega),
    show 0x7fffffff = 2 ^ 31 - 1 from rfl, Nat.and_two_pow_sub_one_eq_mod]
  omega

theorem initialSettings_eq_ok {header : List UInt8} (h : header.length = http2FrameHeaderBytes) (n : ℕ) :
    initialSettings header = .ok n ↔ SettingsHeader header n := by
  obtain ⟨l₀, l₁, l₂, kind, flags, s₀, s₁, s₂, s₃, rfl⟩ : ∃ l₀ l₁ l₂ kind flags s₀ s₁ s₂ s₃ : UInt8,
      header = [l₀, l₁, l₂, kind, flags, s₀, s₁, s₂, s₃] := by
    match header, h with
    | [a, b, c, d, e, f, g, h, i], _ => exact ⟨a, b, c, d, e, f, g, h, i, rfl⟩
  have hack : ∀ flags : UInt8, flags &&& http2SettingsAck = 0 ↔ flags.toNat % 2 = 0 := forall_byte (by decide +kernel)
  have hzero : ∀ b : UInt8, b = 0 ↔ b.toNat = 0 := forall_byte (by decide +kernel)
  show (if kind ≠ http2SettingsFrame ∨ flags &&& http2SettingsAck ≠ 0 ∨ _ ≠ 0 ∨ _ % 6 ≠ 0 ∨
    _ > http2MaxInitialSettingsBytes then Except.error _ else Except.ok _) = _ ↔ _
  simp only [getD_cons_zero, getD_cons_succ, or_three, or_four]
  constructor
  · intro hok
    split at hok
    · cases hok
    · next hvalid =>
      cases hok
      simp only [not_or, not_not, Nat.not_lt, hack] at hvalid
      obtain ⟨rfl, hflags, hid, hwhole, hbounded⟩ := hvalid
      obtain rfl : s₁ = 0 := (hzero s₁).2 (by omega)
      obtain rfl : s₂ = 0 := (hzero s₂).2 (by omega)
      obtain rfl : s₃ = 0 := (hzero s₃).2 (by omega)
      exact ⟨⟨l₀, l₁, l₂, flags, s₀, rfl, hflags, by omega, rfl⟩, hwhole, hbounded⟩
  · rintro ⟨⟨_, _, _, _, _, hheader, hflags, hid, rfl⟩, hwhole, hbounded⟩
    cases hheader
    rw [if_neg]
    simp only [not_or, not_not, Nat.not_lt, hack]
    exact ⟨trivial, hflags, by rw [hid]; rfl, hwhole, hbounded⟩

/-- The bytes behind the preface hold the whole first frame of a client, or the header of a frame that it is not. -/
def FirstFrameTells (frame : List UInt8) : Prop :=
  ∃ header payload, frame = header ++ payload ∧ header.length = http2FrameHeaderBytes ∧
    ((∃ length ≤ payload.length, SettingsHeader header length) ∨ ∀ length, ¬ SettingsHeader header length)

theorem inspect_ne_pending_iff (frame : List UInt8) :
    inspectHttp2ClientPreface (http2Preface ++ frame) ≠ .ok .pending ↔ FirstFrameTells frame := by
  have hfront : http2Preface <+: http2Preface ++ frame := prefix_append _ _
  rcases Nat.lt_or_ge frame.length http2FrameHeaderBytes with hshort | hlong
  · rw [inspect_pending (Or.inr hfront) (by rw [length_append]; omega)]
    refine ⟨fun h => absurd rfl h, ?_⟩
    rintro ⟨header, payload, rfl, hheader, -⟩
    rw [length_append] at hshort
    omega
  · rw [inspect_header hfront (by rw [length_append]; omega), drop_left]
    have hheader : (frame.take http2FrameHeaderBytes).length = http2FrameHeaderBytes := by
      rw [length_take, Nat.min_eq_left hlong]
    constructor
    · intro hne
      refine ⟨_, _, (take_append_drop http2FrameHeaderBytes frame).symm, hheader, ?_⟩
      cases hsettings : initialSettings (frame.take http2FrameHeaderBytes) with
      | error error =>
        refine Or.inr fun length hlength => ?_
        cases hsettings.symm.trans ((initialSettings_eq_ok hheader length).2 hlength)
      | ok length =>
        refine Or.inl ⟨length, ?_, (initialSettings_eq_ok hheader length).1 hsettings⟩
        by_contra hcut
        rw [hsettings] at hne
        refine hne (congrArg Except.ok (if_neg ?_))
        rw [length_drop] at hcut
        rw [length_append]
        omega
    · rintro ⟨header, payload, rfl, hlength, htells⟩
      rw [← hlength, take_left]
      rcases htells with ⟨length, hle, hsettings⟩ | hnone
      · rw [(initialSettings_eq_ok hlength length).2 hsettings]
        refine fun h => ?_
        have hstate := (if_pos ?_).symm.trans (Except.ok.inj h)
        · cases hstate
        · rw [length_append, length_append]
          omega
      · cases hsettings : initialSettings header with
        | error error => exact fun h => by cases h
        | ok length => exact absurd ((initialSettings_eq_ok hlength length).1 hsettings) (hnone length)

/-- **Streams that begin with the preface.** While such a stream is open, the preflight decides for HTTP/2, fails, or reads
on, whatever part of it was read. At its end it comes to something else than HTTP/1 exactly if HTTP/2 was negotiated, or
nothing follows the preface, or the bytes that follow it are a whole SETTINGS frame or begin with the header of another
one: where the stream ends behind the preface and inside the first frame, the check at the end finds that what was read
is not the front of the preface. -/
theorem preface_not_http1_iff (expected : ExpectedProtocol) {stream : List UInt8} (h : http2Preface <+: stream)
    (splits : ℕ → ℕ) :
    (∀ consumed, consumed <+: stream → inspectTurn expected consumed ≠ some (.ok .http1)) ∧
    ((inspectConnection expected (.new stream splits)).map PrefixedIo.protocol ≠ .ok .http1 ↔
      expected = .http2 ∨ stream = http2Preface ∨ inspectHttp2ClientPreface stream ≠ .ok .pending) ∧
    (inspectHttp2ClientPreface stream ≠ .ok .pending ↔ FirstFrameTells (stream.drop http2Preface.length)) := by
  refine ⟨?_, ?_, ?_⟩
  · intro consumed hconsumed hturn
    have hnot : inspectHttp2ClientPreface consumed ≠ .ok .notHttp2 :=
      inspect_ne_notHttp2 ( prefix_or_prefix_of_prefix hconsumed h)
    unfold inspectTurn at hturn
    split at hturn
    · cases hturn
    · split at hturn <;> cases hturn
    · next hinspect => exact hnot hinspect
    · cases hturn
  · have hverdict : (inspectConnection expected (.new stream splits)).map PrefixedIo.protocol = verdict expected stream :=
      (inspectLoop_spec expected [] (.new stream splits)).1
    have hnot : inspectHttp2ClientPreface stream ≠ .ok .notHttp2 := inspect_ne_notHttp2 (Or.inr h)
    rw [hverdict, verdict]
    cases hinspect : inspectHttp2ClientPreface stream with
    | error error => simp
    | ok state =>
      cases state with
      | notHttp2 => exact absurd hinspect hnot
      | complete =>
        dsimp only
        split <;> simp
      | pending =>
        dsimp only
        simp only [prefix_preface_iff h]
        by_cases hend : expected = .http2 ∨ stream = http2Preface
        · rw [if_pos hend]
          refine ⟨fun _ => hend.imp_right Or.inl, fun _ hok => ?_⟩
          cases hok
        · rw [if_neg hend]
          rw [not_or] at hend
          simp [hend.1, hend.2]
  · obtain ⟨frame, rfl⟩ := h
    rw [drop_left]
    exact inspect_ne_pending_iff frame

/-- Nothing follows the preface. -/
theorem preface_not_http1_iff_alone :
    (inspectConnection .auto (.new http2Preface fun i => i)).map PrefixedIo.protocol ≠ .ok .http1 :=
  (preface_not_http1_iff .auto (prefix_refl _) fun i => i).2.1.2 (Or.inr (Or.inl rfl))

/-- The stream ends one byte behind the preface, and the connection is taken for HTTP/1. -/
theorem cut_settings_http1 : http2Preface <+: http2Preface ++ [0] ∧
    (inspectConnection .auto (.new (http2Preface ++ [0]) fun _ => 0)).map PrefixedIo.protocol = .ok .http1 := by
  refine ⟨prefix_append _ _, ?_⟩
  have hverdict := (inspectLoop_spec .auto [] (.new (http2Preface ++ [0]) fun _ => 0)).1
  exact hverdict.trans (by decide)

end RustRest
