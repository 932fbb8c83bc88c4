import RustRest.Lib.Framing
import RustRest.Text

/-!
# Request heads

`inspect_head` has `httparse` parse the head at the front of the bytes read so far and classifies its framing. The
parser is a parameter, `HeadScanner RequestHead`: besides being a scanner it skips empty lines in front of a request line
and finds a head complete at an empty line only.
-/

namespace RustRest

open Framing List

/-! ## Empty lines -/

def EmptyLineEnd (b : List UInt8) : Prop := [10, 10] <:+ b ∨ [10, 13, 10] <:+ b

instance (b : List UInt8) : Decidable (EmptyLineEnd b) := inferInstanceAs (Decidable (_ ∨ _))

/-- `trim_leading_empty_lines`, on the buffer; it returns how much shorter the buffer gets. -/
def trimLeadingEmptyLines : List UInt8 → List UInt8
  | 13 :: 10 :: rest => trimLeadingEmptyLines rest
  | 10 :: rest => trimLeadingEmptyLines rest
  | buffer => buffer

/-- `httparse` on the front of a stream, and what is assumed of it. -/
structure HeadScanner (β : Type) extends Scanner UInt8 β where
  skips_crlf : ∀ b, scan (13 :: 10 :: b) = (scan b).shift 2
  skips_lf : ∀ b, scan (10 :: b) = (scan b).shift 1
  complete_emptyLine : ∀ {b n v}, scan b = .complete n v → EmptyLineEnd (b.take n)

def HeadScanner.map {β γ : Type} (p : HeadScanner β) (f : β → γ) : HeadScanner γ where
  toScanner := p.toScanner.map f
  skips_crlf b := by
    show (p.scan _).map f = _
    rw [p.skips_crlf, Scan.map_shift]
    rfl
  skips_lf b := by
    show (p.scan _).map f = _
    rw [p.skips_lf, Scan.map_shift]
    rfl
  complete_emptyLine h := by
    obtain ⟨v, hv, -⟩ := Scan.map_eq_complete.1 h
    exact p.complete_emptyLine hv

theorem trim_crlf (b : List UInt8) : trimLeadingEmptyLines (13 :: 10 :: b) = trimLeadingEmptyLines b := by
  simp [trimLeadingEmptyLines]

theorem trim_lf (b : List UInt8) : trimLeadingEmptyLines (10 :: b) = trimLeadingEmptyLines b := by
  simp [trimLeadingEmptyLines]

/-- What is trimmed: a run of empty lines. -/
inductive EmptyLines : List UInt8 → Prop where
  | nil : EmptyLines []
  | crlf {b : List UInt8} : EmptyLines b → EmptyLines (13 :: 10 :: b)
  | lf {b : List UInt8} : EmptyLines b → EmptyLines (10 :: b)

/-- The bytes do not begin with an empty line. -/
def Trimmed (b : List UInt8) : Prop := (∀ r, b ≠ 13 :: 10 :: r) ∧ ∀ r, b ≠ 10 :: r

theorem trim_spec : ∀ b : List UInt8,
    ∃ blank, EmptyLines blank ∧ b = blank ++ trimLeadingEmptyLines b ∧ Trimmed (trimLeadingEmptyLines b) := by
  intro b
  induction b using trimLeadingEmptyLines.induct with
  | case1 rest ih =>
    obtain ⟨blank, hb, heq, ht⟩ := ih
    rw [trim_crlf]
    exact ⟨13 :: 10 :: blank, .crlf hb, by rw [cons_append, cons_append, ← heq], ht⟩
  | case2 rest ih =>
    obtain ⟨blank, hb, heq, ht⟩ := ih
    rw [trim_lf]
    exact ⟨10 :: blank, .lf hb, by rw [cons_append, ← heq], ht⟩
  | case3 b h1 h2 =>
    rw [trimLeadingEmptyLines.eq_3 b h1 h2]
    exact ⟨[], .nil, rfl, h1, h2⟩

theorem trim_length_le (b : List UInt8) : (trimLeadingEmptyLines b).length ≤ b.length := by
  obtain ⟨blank, -, heq, -⟩ := trim_spec b
  have := congrArg List.length heq
  rw [length_append] at this
  omega

variable {b : List UInt8}

theorem trim_of_trimmed (h : Trimmed b) : trimLeadingEmptyLines b = b :=
  trimLeadingEmptyLines.eq_3 b h.1 h.2

theorem trim_blank_append {blank : List UInt8} (h : EmptyLines blank) (b : List UInt8) :
    trimLeadingEmptyLines (blank ++ b) = trimLeadingEmptyLines b := by
  induction h with
  | nil => rfl
  | crlf _ ih => rw [cons_append, cons_append, trim_crlf, ih]
  | lf _ ih => rw [cons_append, trim_lf, ih]

section Scan

variable {β : Type} {p : HeadScanner β}

theorem scan_blank_append {blank : List UInt8} (h : EmptyLines blank) (b : List UInt8) :
    p.scan (blank ++ b) = (p.scan b).shift blank.length := by
  induction h with
  | nil => exact (Scan.shift_zero _).symm
  | crlf _ ih => rw [cons_append, cons_append, p.skips_crlf, ih, Scan.shift_shift]; rfl
  | lf _ ih => rw [cons_append, p.skips_lf, ih, Scan.shift_shift]; rfl

/-- The empty lines in front of a head only shift it. -/
theorem scan_trim (b : List UInt8) :
    p.scan b = (p.scan (trimLeadingEmptyLines b)).shift (b.length - (trimLeadingEmptyLines b).length) := by
  obtain ⟨blank, hb, heq, -⟩ := trim_spec b
  have hlen : b.length - (trimLeadingEmptyLines b).length = blank.length := by
    have := congrArg List.length heq
    rw [length_append] at this
    omega
  rw [hlen, ← scan_blank_append hb, ← heq]

end Scan

theorem Trimmed.take (h : Trimmed b) (k : ℕ) : Trimmed (b.take k) := by
  have hb := take_append_drop k b
  constructor
  · intro r hr
    rw [hr] at hb
    exact h.1 _ hb.symm
  · intro r hr
    rw [hr] at hb
    exact h.2 _ hb.symm

theorem EmptyLineEnd.of_blank_append {blank b : List UInt8} (h : EmptyLineEnd (blank ++ b)) (hb : Trimmed b)
    (hne : b ≠ []) : EmptyLineEnd b := by
  have hsuf : b <:+ blank ++ b := suffix_append blank b
  rcases h with h | h
  · by_cases hlen : ([10, 10] : List UInt8).length ≤ b.length
    · exact Or.inl (suffix_of_suffix_length_le h hsuf hlen)
    · have hb' := suffix_of_suffix_length_le hsuf h (by omega)
      rw [suffix_cons_iff, suffix_cons_iff] at hb'
      rcases hb' with rfl | rfl | hb'
      · exact absurd rfl (hb.2 _)
      · exact absurd rfl (hb.2 _)
      · exact absurd (suffix_nil.1 hb') hne
  · by_cases hlen : ([10, 13, 10] : List UInt8).length ≤ b.length
    · exact Or.inr (suffix_of_suffix_length_le h hsuf hlen)
    · have hb' := suffix_of_suffix_length_le hsuf h (by omega)
      rw [suffix_cons_iff, suffix_cons_iff, suffix_cons_iff] at hb'
      rcases hb' with rfl | rfl | rfl | hb'
      · exact absurd rfl (hb.2 _)
      · exact absurd rfl (hb.1 _)
      · exact absurd rfl (hb.2 _)
      · exact absurd (suffix_nil.1 hb') hne

theorem trim_append_of_trimmed {h : List UInt8} (ht : Trimmed h) (hne : h ≠ []) (c : List UInt8) :
    trimLeadingEmptyLines (h ++ c) = h ++ c ∨ h = [13] := by
  by_cases hr : h = [13]
  · exact Or.inr hr
  · refine Or.inl (trim_of_trimmed ⟨fun r he => ?_, fun r he => ?_⟩)
    · match h, hne with
      | [a], _ =>
        rw [cons_append, List.cons.injEq] at he
        exact hr (by rw [he.1])
      | a :: b :: t, _ =>
        rw [cons_append, cons_append, List.cons.injEq, List.cons.injEq] at he
        exact ht.1 t (by rw [he.1, he.2.1])
    · match h, hne with
      | a :: t, _ =>
        rw [cons_append, List.cons.injEq] at he
        exact ht.2 t (by rw [he.1])

theorem EmptyLineEnd.append_left (h : EmptyLineEnd b) (blank : List UInt8) :
    EmptyLineEnd (blank ++ b) :=
  h.imp (fun h => h.trans (suffix_append ..)) (fun h => h.trans (suffix_append ..))

theorem EmptyLineEnd.two_le (h : EmptyLineEnd b) : 2 ≤ b.length := by
  rcases h with h | h
  · exact h.length_le
  · exact le_trans (by decide) h.length_le

/-! ## A scanner

The head is what stands before the first empty line behind those in front. -/

section EmptyLineScanner

variable {β : Type} (parse : List UInt8 → Option β)

/-- Where the first empty line ends. -/
def firstEmptyLine (b : List UInt8) : Option ℕ :=
  (List.range (b.length + 1)).find? (fun n => EmptyLineEnd (b.take n))

def scanTrimmed (b : List UInt8) : Scan β :=
  match firstEmptyLine b with
  | some n => match parse (b.take n) with
    | some v => .complete n v
    | none => .invalid
  | none => .incomplete

variable {b : List UInt8}

theorem firstEmptyLine_eq_some {n : ℕ} :
    firstEmptyLine b = some n ↔ EmptyLineEnd (b.take n) ∧ n ≤ b.length ∧ ∀ m < n, ¬EmptyLineEnd (b.take m) := by
  unfold firstEmptyLine
  rw [List.find?_range_eq_some]
  simp

theorem firstEmptyLine_local {b c : List UInt8} {n : ℕ} (h : firstEmptyLine b = some n) (hc : c.take n = b.take n) :
    firstEmptyLine c = some n := by
  obtain ⟨hend, hle, hfirst⟩ := firstEmptyLine_eq_some.1 h
  refine firstEmptyLine_eq_some.2 ⟨hc ▸ hend, ?_, fun m hm => ?_⟩
  · have := congrArg List.length hc
    rw [length_take, length_take] at this
    omega
  · have hm' : c.take m = b.take m := by
      have := congrArg (List.take m) hc
      rwa [take_take, take_take, Nat.min_eq_left hm.le] at this
    rw [hm']
    exact hfirst m hm

theorem scanTrimmed_complete {n : ℕ} {v : β} :
    scanTrimmed parse b = .complete n v ↔ firstEmptyLine b = some n ∧ parse (b.take n) = some v := by
  unfold scanTrimmed
  cases firstEmptyLine b with
  | none => simp
  | some m =>
    dsimp only
    cases hp : parse (b.take m) with
    | none =>
      simp only [reduceCtorEq, Option.some.injEq, false_iff, not_and]
      rintro rfl
      simp [hp]
    | some w =>
      simp only [Scan.complete.injEq, Option.some.injEq]
      constructor
      · rintro ⟨rfl, rfl⟩
        exact ⟨rfl, hp⟩
      · rintro ⟨rfl, hw⟩
        rw [hp] at hw
        exact ⟨rfl, Option.some.inj hw⟩

theorem scanTrimmed_invalid :
    scanTrimmed parse b = .invalid ↔ ∃ n, firstEmptyLine b = some n ∧ parse (b.take n) = none := by
  unfold scanTrimmed
  cases firstEmptyLine b with
  | none => simp
  | some m =>
    dsimp only
    cases hp : parse (b.take m) <;> simp [hp]

/-- The same behind any number of empty lines. -/
def scanBehindEmptyLines (b : List UInt8) : Scan β :=
  (scanTrimmed parse (trimLeadingEmptyLines b)).shift (b.length - (trimLeadingEmptyLines b).length)

theorem scanBehindEmptyLines_append {blank t : List UInt8} (hblank : EmptyLines blank) (ht : Trimmed t) :
    scanBehindEmptyLines parse (blank ++ t) = (scanTrimmed parse t).shift blank.length := by
  unfold scanBehindEmptyLines
  rw [trim_blank_append hblank, trim_of_trimmed ht, length_append, Nat.add_sub_cancel]

theorem trimmed_append {t : List UInt8} (ht : Trimmed t) (hend : EmptyLineEnd t) (c : List UInt8) : Trimmed (t ++ c) := by
  have hne : t ≠ [] := by
    rintro rfl
    exact absurd hend (by decide)
  obtain ⟨blank, -, -, htrim⟩ := trim_spec (t ++ c)
  rcases trim_append_of_trimmed ht hne c with h | rfl
  · rwa [h] at htrim
  · exact absurd hend (by decide)

structure HeadAt (b blank t : List UInt8) (m : ℕ) : Prop where
  emptyLines : EmptyLines blank
  trimmed : Trimmed t
  first : firstEmptyLine t = some m
  eq_append : b = blank ++ t

theorem HeadAt.take_eq {b blank t : List UInt8} {m : ℕ} (h : HeadAt b blank t m) :
    b.take (m + blank.length) = blank ++ t.take m := by
  rw [h.eq_append, Nat.add_comm, take_length_add_append]

theorem HeadAt.of_take_eq {b c blank t : List UInt8} {m : ℕ} (h : HeadAt b blank t m)
    (hc : c.take (m + blank.length) = b.take (m + blank.length)) : ∃ t', HeadAt c blank t' m ∧ t'.take m = t.take m := by
  obtain ⟨hend, hle, -⟩ := firstEmptyLine_eq_some.1 h.first
  have htake : (t.take m ++ c.drop (m + blank.length)).take m = t.take m := by
    rw [take_append_of_le_length (by rw [length_take]; omega), take_take, Nat.min_self]
  refine ⟨t.take m ++ c.drop (m + blank.length), ⟨h.emptyLines, ?_, firstEmptyLine_local h.first htake, ?_⟩, htake⟩
  · exact trimmed_append (h.trimmed.take m) hend _
  · rw [← append_assoc, ← h.take_eq, ← hc, take_append_drop]

theorem scanBehindEmptyLines_complete {n : ℕ} {v : β} :
    scanBehindEmptyLines parse b = .complete n v ↔
      ∃ blank t m, HeadAt b blank t m ∧ parse (t.take m) = some v ∧ n = m + blank.length := by
  constructor
  · intro h
    obtain ⟨blank, hblank, heq, ht⟩ := trim_spec b
    rw [heq, scanBehindEmptyLines_append parse hblank ht, Scan.shift_eq_complete] at h
    obtain ⟨m, hm, rfl⟩ := h
    obtain ⟨hfirst, hparse⟩ := (scanTrimmed_complete parse).1 hm
    exact ⟨blank, _, m, ⟨hblank, ht, hfirst, heq⟩, hparse, rfl⟩
  · rintro ⟨blank, t, m, ⟨hblank, ht, hfirst, rfl⟩, hparse, rfl⟩
    rw [scanBehindEmptyLines_append parse hblank ht, (scanTrimmed_complete parse).2 ⟨hfirst, hparse⟩]
    rfl

theorem scanBehindEmptyLines_invalid :
    scanBehindEmptyLines parse b = .invalid ↔ ∃ blank t m, HeadAt b blank t m ∧ parse (t.take m) = none := by
  constructor
  · intro h
    obtain ⟨blank, hblank, heq, ht⟩ := trim_spec b
    rw [heq, scanBehindEmptyLines_append parse hblank ht, Scan.shift_eq_invalid] at h
    obtain ⟨m, hfirst, hparse⟩ := (scanTrimmed_invalid parse).1 h
    exact ⟨blank, _, m, ⟨hblank, ht, hfirst, heq⟩, hparse⟩
  · rintro ⟨blank, t, m, ⟨hblank, ht, hfirst, rfl⟩, hparse⟩
    rw [scanBehindEmptyLines_append parse hblank ht, Scan.shift_eq_invalid]
    exact (scanTrimmed_invalid parse).2 ⟨m, hfirst, hparse⟩

def emptyLineScanner : HeadScanner β where
  scan := scanBehindEmptyLines parse
  complete_bounds h := by
    obtain ⟨blank, t, m, hat, -, rfl⟩ := (scanBehindEmptyLines_complete parse).1 h
    obtain ⟨hend, hle, -⟩ := firstEmptyLine_eq_some.1 hat.first
    have htwo := hend.two_le
    rw [length_take] at htwo
    rw [hat.eq_append, length_append]
    omega
  complete_local h hc := by
    obtain ⟨blank, t, m, hat, hparse, rfl⟩ := (scanBehindEmptyLines_complete parse).1 h
    obtain ⟨t', hat', htake⟩ := hat.of_take_eq hc
    exact (scanBehindEmptyLines_complete parse).2 ⟨blank, t', m, hat', htake ▸ hparse, rfl⟩
  invalid_append {b} c h := by
    obtain ⟨blank, t, m, hat, hparse⟩ := (scanBehindEmptyLines_invalid parse).1 h
    obtain ⟨-, hle, -⟩ := firstEmptyLine_eq_some.1 hat.first
    have hlen : m + blank.length ≤ b.length := by
      rw [hat.eq_append, length_append]
      omega
    obtain ⟨t', hat', htake⟩ := hat.of_take_eq (take_append_of_le_length hlen)
    exact (scanBehindEmptyLines_invalid parse).2 ⟨blank, t', m, hat', htake ▸ hparse⟩
  skips_crlf b := by
    unfold scanBehindEmptyLines
    have htrim := trim_length_le b
    rw [trim_crlf, Scan.shift_shift]
    congr 1
    simp only [length_cons]
    omega
  skips_lf b := by
    unfold scanBehindEmptyLines
    have htrim := trim_length_le b
    rw [trim_lf, Scan.shift_shift]
    congr 1
    simp only [length_cons]
    omega
  complete_emptyLine h := by
    obtain ⟨blank, t, m, hat, -, rfl⟩ := (scanBehindEmptyLines_complete parse).1 h
    rw [hat.take_eq]
    exact (firstEmptyLine_eq_some.1 hat.first).1.append_left blank

end EmptyLineScanner

/-! ## Classification -/

inductive HeadVerdict where
  | persistent
  | terminal
  | ambiguous
  | unclassified
  deriving DecidableEq, Repr

/-- What `httparse` reads of a request head. -/
structure RequestHead where
  method : Option String
  headers : List (String × List UInt8)
  deriving DecidableEq, Repr

/-- `u64::MAX`. -/
def u64Max : ℕ := 2 ^ 64 - 1

def maxDecodableLength : ℕ := u64Max - 2

def checkedU64 (n : ℕ) : Option ℕ := if n ≤ u64Max then some n else none

/-- One digit of `parse_content_length`. -/
def contentLengthDigit (length : ℕ) (byte : UInt8) : Option ℕ :=
  if 48 ≤ byte ∧ byte ≤ 57 then
    (checkedU64 (length * 10)).bind (fun length => checkedU64 (length + (byte.toNat - 48)))
  else none

/-- Decimal digits, up to the length that can be decoded. -/
def parseContentLength (value : List UInt8) : Option ℕ :=
  if value.isEmpty then none
  else (value.foldlM contentLengthDigit 0).filter (fun length => length ≤ maxDecodableLength)

structure FramingFields where
  transferEncoding : Bool := false
  contentLengthPresent : Bool := false
  contentLength : Option ℕ := none
  invalidContentLength : Bool := false
  upgrade : Bool := false

def FramingFields.read (f : FramingFields) (header : String × List UInt8) : FramingFields :=
  if eqIgnoreAsciiCase header.1 "transfer-encoding" then { f with transferEncoding := true }
  else if eqIgnoreAsciiCase header.1 "content-length" then
    match parseContentLength header.2 with
    | some value =>
      if f.contentLength.all (fun previous => previous == value) then
        { f with contentLengthPresent := true, contentLength := some value }
      else { f with contentLengthPresent := true, invalidContentLength := true }
    | none => { f with contentLengthPresent := true, invalidContentLength := true }
  else if eqIgnoreAsciiCase header.1 "upgrade" then { f with upgrade := true }
  else f

def classifyHead (head : RequestHead) : HeadVerdict × ℕ :=
  let f := head.headers.foldl FramingFields.read {}
  let connect := head.method.any (fun method => eqIgnoreAsciiCase method "CONNECT")
  let verdict :=
    if f.transferEncoding && f.contentLengthPresent then .ambiguous
    else if f.transferEncoding || f.upgrade || connect || f.invalidContentLength then .terminal
    else .persistent
  (verdict, f.contentLength.getD 0)

/-- `inspect_head`. The parser is the one with `max_headers` slots for headers; a `Partial` answer is `incomplete`. -/
def inspectHead (httparse : ℕ → HeadScanner RequestHead) (maxHeaders : ℕ) : HeadScanner (HeadVerdict × ℕ) :=
  (httparse maxHeaders).map classifyHead

end RustRest
