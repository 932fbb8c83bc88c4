import RustRest.Text

/-!
# Byte ranges

`parse_byte_range` reads a `Range` value against the length of a file. Its answer is compared with the grammar of single
byte ranges: which texts denote a range (`ByteRange.Denotes`), and which bytes of the file a range selects
(`ByteRange.Selects`).

Main result: **`parseByteRange_agrees_iff`**.
-/

namespace RustRest

open List

/-! ## Model -/

inductive RangeParse where
  | satisfiable (start stop : ℕ)
  | unsatisfiable
  | ignored
  deriving DecidableEq

def rangeBetween (startRaw endRaw : List Char) (totalLen : ℕ) : RangeParse :=
  if startRaw.isEmpty then
    match parseU64 endRaw with
    | none => .ignored
    | some suffix =>
      if suffix = 0 ∨ totalLen = 0 then .unsatisfiable else .satisfiable (totalLen - suffix) (totalLen - 1)
  else
    match parseU64 startRaw with
    | none => .ignored
    | some start =>
      if start ≥ totalLen then .unsatisfiable
      else
        let stop := if endRaw.isEmpty then some (totalLen - 1) else (parseU64 endRaw).map (min · (totalLen - 1))
        match stop with
        | none => .ignored
        | some stop => if stop < start then .ignored else .satisfiable start stop

def isBytesUnit (unit : List Char) : Bool := eqIgnoreAsciiCase (String.ofList unit) "bytes"

/-- `parse_byte_range`, on one range. -/
def parseByteRange (raw : String) (totalLen : ℕ) : RangeParse :=
  match splitOnce '=' (trim raw.toList) with
  | none => .ignored
  | some (unit, spec) =>
    if !isBytesUnit (trim unit) then .ignored
    else
      let spec := trim spec
      if spec.contains ',' then .ignored
      else match splitOnce '-' spec with
        | none => .ignored
        | some (startRaw, endRaw) => rangeBetween (trim startRaw) (trim endRaw) totalLen

inductive StaticReply where
  | unsatisfiable
  | metadata
  | body (status start len : ℕ)
  deriving DecidableEq

def StaticReply.status : StaticReply → ℕ
  | .unsatisfiable => 416
  | .metadata => 200
  | .body status _ _ => status

/-- The answer of `serve_static_file` once the preconditions are met. Only a `GET` has a range. -/
def selectRange (method : String) (ignoreRange : Bool) (rangeHeader : Option String) (totalLen : ℕ) : StaticReply :=
  let rangeHeader := if eqIgnoreAsciiCase method "GET" then rangeHeader else none
  let parsed := if ignoreRange then none else rangeHeader.map (parseByteRange · totalLen)
  match parsed with
  | some .unsatisfiable => .unsatisfiable
  | some (.satisfiable start stop) =>
    if eqIgnoreAsciiCase method "HEAD" then .metadata else .body 206 start (stop - start + 1)
  | some .ignored | none => if eqIgnoreAsciiCase method "HEAD" then .metadata else .body 200 0 totalLen

/-! ## The grammar -/

inductive ByteRange where
  | fromTo (first last : ℕ)
  | startingAt (first : ℕ)
  | suffix (length : ℕ)

namespace ByteRange

def Positions (first last : List Char) : ByteRange → Prop
  | .fromTo a b => IsNumber first a ∧ IsNumber last b ∧ a ≤ b
  | .startingAt a => IsNumber first a ∧ last = []
  | .suffix n => first = [] ∧ IsNumber last n

def Denotes (raw : List Char) (range : ByteRange) : Prop :=
  ∃ unit first last, raw = unit ++ '=' :: (first ++ '-' :: last) ∧ isBytesUnit unit = true ∧ range.Positions first last

def Requests (len : ℕ) : ByteRange → ℕ → Prop
  | .fromTo first last, i => first ≤ i ∧ i ≤ last
  | .startingAt first, i => first ≤ i
  | .suffix length, i => len ≤ i + length

def Selects (range : ByteRange) (len : ℕ) (answer : RangeParse) : Prop :=
  (∃ start stop, answer = .satisfiable start stop ∧ start ≤ stop ∧ stop < len ∧
      ∀ i, start ≤ i ∧ i ≤ stop ↔ i < len ∧ range.Requests len i) ∨
    (answer = .unsatisfiable ∧ ∀ i < len, ¬ range.Requests len i)

end ByteRange

def RangeAgrees (raw : List Char) (len : ℕ) (answer : RangeParse) : Prop :=
  (∀ range, ByteRange.Denotes raw range → range.Selects len answer) ∧
    ((∀ range, ¬ ByteRange.Denotes raw range) → answer = .ignored)

/-! ## The order of the trims -/

theorem parseByteRange_eq (raw : String) (totalLen : ℕ) : parseByteRange raw totalLen =
    match splitOnce '=' raw.toList with
    | none => .ignored
    | some (unit, spec) =>
      if !isBytesUnit (trim unit) || spec.contains ',' then .ignored
      else match splitOnce '-' spec with
        | none => .ignored
        | some (first, last) => rangeBetween (trim first) (trim last) totalLen := by
  unfold parseByteRange
  rw [splitOnce_trim (by decide)]
  cases splitOnce '=' raw.toList with
  | none => rfl
  | some x =>
    obtain ⟨unit, spec⟩ := x
    have hcomma : (trim (spec.rdropWhile isWhitespace)).contains ',' = spec.contains ',' := by
      rw [trim_rdropWhile, Bool.eq_iff_iff, contains_iff_mem, contains_iff_mem, mem_trim_iff (by decide)]
    dsimp only [Option.map_some]
    rw [trim_dropWhile, hcomma, trim_rdropWhile, splitOnce_trim (by decide)]
    cases isBytesUnit (trim unit) with
    | false => rfl
    | true =>
      cases spec.contains ',' with
      | true => rfl
      | false =>
        cases splitOnce '-' spec with
        | none => rfl
        | some y =>
          show rangeBetween (trim (y.1.dropWhile isWhitespace)) (trim (y.2.rdropWhile isWhitespace)) totalLen =
            rangeBetween (trim y.1) (trim y.2) totalLen
          rw [trim_dropWhile, trim_rdropWhile]

/-! ## What is read -/

def IsLooseNumber (text : List Char) (n : ℕ) : Prop :=
  n < 2 ^ 64 ∧ (IsNumber text n ∨ ∃ digits, text = '+' :: digits ∧ IsNumber digits n)

def LoosePositions (len : ℕ) (first last : List Char) : Prop :=
  (first = [] ∧ ∃ n, IsLooseNumber last n) ∨
    ∃ n, IsLooseNumber first n ∧ (len ≤ n ∨ last = [] ∨ ∃ m, IsLooseNumber last m ∧ n ≤ m)

def NearRange (raw : List Char) (len : ℕ) : Prop :=
  ∃ unit first last, raw = unit ++ '=' :: (first ++ '-' :: last) ∧ '=' ∉ unit ∧ '-' ∉ first ∧
    ',' ∉ first ++ '-' :: last ∧ isBytesUnit (trim unit) = true ∧ LoosePositions len (trim first) (trim last)

theorem parseU64_eq_some {text : List Char} {n : ℕ} : parseU64 text = some n ↔ IsLooseNumber text n := by
  constructor
  · intro h
    unfold parseU64 at h
    dsimp only at h
    split at h
    · next hdigits =>
      cases h
      refine ⟨hdigits.2.2, ?_⟩
      unfold dropPlus at hdigits ⊢
      split at hdigits
      · next digits => exact .inr ⟨digits, rfl, hdigits.1, hdigits.2.1, rfl⟩
      · next hplus => exact .inl ⟨hdigits.1, hdigits.2.1, rfl⟩
    · exact nomatch h
  · rintro ⟨hlt, hnumber | ⟨digits, rfl, hnumber⟩⟩
    · rw [parseU64_of_isNumber hnumber, if_pos hlt]
    · obtain ⟨hne, hall, rfl⟩ := hnumber
      exact if_pos ⟨hne, hall, hlt⟩

theorem IsLooseNumber.ne_nil {text : List Char} {n : ℕ} (h : IsLooseNumber text n) : text ≠ [] := by
  rcases h.2 with hnumber | ⟨digits, rfl, -⟩
  · exact hnumber.1
  · exact cons_ne_nil _ _

theorem IsLooseNumber.unique {text : List Char} {n m : ℕ} (hn : IsLooseNumber text n) (hm : IsLooseNumber text m) :
    n = m :=
  Option.some.inj ((parseU64_eq_some.2 hn).symm.trans (parseU64_eq_some.2 hm))

theorem rangeBetween_ne_ignored_iff {first last : List Char} {len : ℕ} :
    rangeBetween first last len ≠ .ignored ↔ LoosePositions len first last := by
  unfold rangeBetween LoosePositions
  cases first with
  | nil =>
    have hfirst : ∀ n, ¬ IsLooseNumber [] n := fun n hn => hn.ne_nil rfl
    simp only [hfirst, isEmpty_nil, if_true, true_and, false_and, exists_false, or_false]
    cases hlast : parseU64 last with
    | none =>
      refine iff_of_false (fun h => h rfl) ?_
      rintro ⟨n, hn⟩
      rw [parseU64_eq_some.2 hn] at hlast
      cases hlast
    | some n =>
      refine iff_of_true ?_ ⟨n, parseU64_eq_some.1 hlast⟩
      dsimp only
      split <;> exact RangeParse.noConfusion
  | cons c first =>
    simp only [isEmpty_cons, Bool.false_eq_true, if_false, reduceCtorEq, false_and, false_or]
    cases hfirst : parseU64 (c :: first) with
    | none =>
      refine iff_of_false (fun h => h rfl) ?_
      rintro ⟨n, hn, -⟩
      rw [parseU64_eq_some.2 hn] at hfirst
      cases hfirst
    | some n =>
      have hn := parseU64_eq_some.1 hfirst
      dsimp only
      split
      · next hge => exact iff_of_true RangeParse.noConfusion ⟨n, hn, .inl hge⟩
      next hlt =>
      cases last with
      | nil =>
        refine iff_of_true ?_ ⟨n, hn, .inr (.inl rfl)⟩
        rw [isEmpty_nil, if_pos rfl]
        dsimp only
        rw [if_neg (by omega)]
        exact RangeParse.noConfusion
      | cons d last =>
        rw [isEmpty_cons, if_neg Bool.false_ne_true]
        cases hlast : parseU64 (d :: last) with
        | none =>
          refine iff_of_false (fun h => h rfl) ?_
          rintro ⟨n', hn', hle | hnil | ⟨m, hm, -⟩⟩
          · exact hlt (hn.unique hn' ▸ hle)
          · cases hnil
          · rw [parseU64_eq_some.2 hm] at hlast
            cases hlast
        | some m =>
          have hm := parseU64_eq_some.1 hlast
          dsimp only [Option.map_some]
          split
          · next hless =>
            refine iff_of_false (fun h => h rfl) ?_
            rintro ⟨n', hn', hle | hnil | ⟨m', hm', hnm⟩⟩
            · exact hlt (hn.unique hn' ▸ hle)
            · cases hnil
            · rw [← hn.unique hn', ← hm.unique hm'] at hnm
              omega
          · next hless => exact iff_of_true RangeParse.noConfusion ⟨n, hn, .inr (.inr ⟨m, hm, by omega⟩)⟩

/-- Which texts are read as a range. -/
theorem parseByteRange_ne_ignored_iff {raw : String} {len : ℕ} :
    parseByteRange raw len ≠ .ignored ↔ NearRange raw.toList len := by
  rw [parseByteRange_eq]
  constructor
  · intro h
    split at h
    · exact absurd rfl h
    next unit spec hunit =>
    split at h
    · exact absurd rfl h
    next hread =>
    split at h
    · exact absurd rfl h
    next first last hspec =>
    obtain ⟨hraw, hequals⟩ := splitOnce_eq_some hunit
    obtain ⟨rfl, hhyphen⟩ := splitOnce_eq_some hspec
    simp only [Bool.or_eq_true, Bool.not_eq_true', not_or, Bool.not_eq_false, contains_iff_mem] at hread
    exact ⟨unit, first, last, hraw, hequals, hhyphen, hread.2, hread.1, rangeBetween_ne_ignored_iff.1 h⟩
  · rintro ⟨unit, first, last, hraw, hequals, hhyphen, hcomma, hunit, hpositions⟩
    rw [hraw, splitOnce_append hequals]
    dsimp only
    rw [splitOnce_append hhyphen, if_neg (by simpa [hunit] using hcomma)]
    exact rangeBetween_ne_ignored_iff.2 hpositions

/-! ## The answer for a range -/

def ByteRange.Fits (len : ℕ) : ByteRange → Prop
  | .fromTo first last => first < 2 ^ 64 ∧ (first < len → last < 2 ^ 64)
  | .startingAt first => first < 2 ^ 64
  | .suffix length => length < 2 ^ 64

section Denoted

variable {first last : List Char} {range : ByteRange} {len : ℕ}

theorem rangeBetween_selects (h : range.Positions first last) (hfits : range.Fits len) :
    range.Selects len (rangeBetween first last len) := by
  unfold rangeBetween
  cases range with
  | suffix n =>
    obtain ⟨rfl, hlast⟩ := h
    rw [isEmpty_nil, if_pos rfl, parseU64_of_isNumber hlast, if_pos (show n < 2 ^ 64 from hfits)]
    dsimp only
    split
    · next hnone =>
      refine .inr ⟨rfl, fun i hi hrequest => ?_⟩
      have hle : len ≤ i + n := hrequest
      omega
    · next hsome =>
      refine .inl ⟨_, _, rfl, by omega, by omega, fun i => ?_⟩
      show _ ↔ i < len ∧ len ≤ i + n
      omega
  | startingAt a =>
    obtain ⟨hfirst, rfl⟩ := h
    rw [if_neg (by simpa using hfirst.1), parseU64_of_isNumber hfirst, if_pos (show a < 2 ^ 64 from hfits)]
    dsimp only
    split
    · next hge =>
      refine .inr ⟨rfl, fun i hi hrequest => ?_⟩
      have hle : a ≤ i := hrequest
      omega
    · next hlt =>
      rw [isEmpty_nil, if_pos rfl]
      dsimp only
      rw [if_neg (by omega)]
      refine .inl ⟨_, _, rfl, by omega, by omega, fun i => ?_⟩
      show _ ↔ i < len ∧ a ≤ i
      omega
  | fromTo a b =>
    obtain ⟨hfirst, hlast, hle⟩ := h
    rw [if_neg (by simpa using hfirst.1), parseU64_of_isNumber hfirst, if_pos hfits.1]
    dsimp only
    split
    · next hge =>
      refine .inr ⟨rfl, fun i hi hrequest => ?_⟩
      have hle : a ≤ i := hrequest.1
      omega
    · next hlt =>
      rw [if_neg (by simpa using hlast.1), parseU64_of_isNumber hlast, if_pos (hfits.2 (by omega))]
      dsimp only [Option.map_some]
      rw [if_neg (by omega)]
      refine .inl ⟨_, _, rfl, by omega, by omega, fun i => ?_⟩
      show _ ↔ i < len ∧ a ≤ i ∧ i ≤ b
      omega

theorem rangeBetween_ignored (h : range.Positions first last) (hfits : ¬ range.Fits len) :
    rangeBetween first last len = .ignored := by
  unfold rangeBetween
  cases range with
  | suffix n =>
    obtain ⟨rfl, hlast⟩ := h
    rw [isEmpty_nil, if_pos rfl, parseU64_of_isNumber hlast, if_neg (show ¬ n < 2 ^ 64 from hfits)]
  | startingAt a =>
    rw [if_neg (by simpa using h.1.1), parseU64_of_isNumber h.1, if_neg (show ¬ a < 2 ^ 64 from hfits)]
  | fromTo a b =>
    obtain ⟨hfirst, hlast, -⟩ := h
    rw [if_neg (by simpa using hfirst.1), parseU64_of_isNumber hfirst]
    by_cases ha : a < 2 ^ 64
    · have hb : a < len ∧ ¬ b < 2 ^ 64 := Classical.not_imp.1 fun hlast => hfits ⟨ha, hlast⟩
      rw [if_pos ha]
      dsimp only
      rw [if_neg (by omega), if_neg (by simpa using hlast.1), parseU64_of_isNumber hlast, if_neg hb.2]
      rfl
    · rw [if_neg ha]

theorem isDigit_of_positions (h : range.Positions first last) :
    (∀ c ∈ first, c.isDigit = true) ∧ ∀ c ∈ last, c.isDigit = true := by
  have hnumber : ∀ {text : List Char} {n : ℕ}, IsNumber text n → ∀ c ∈ text, c.isDigit = true :=
    fun hn => all_eq_true.1 hn.2.1
  have hempty : ∀ c ∈ ([] : List Char), c.isDigit = true := fun c hc => absurd hc not_mem_nil
  cases range with
  | suffix n =>
    obtain ⟨rfl, hlast⟩ := h
    exact ⟨hempty, hnumber hlast⟩
  | startingAt a =>
    obtain ⟨hfirst, rfl⟩ := h
    exact ⟨hnumber hfirst, hempty⟩
  | fromTo a b => exact ⟨hnumber h.1, hnumber h.2.1⟩

theorem mem_of_isBytesUnit {unit : List Char} (h : isBytesUnit unit = true) {c : Char} (hc : c ∈ unit) :
    c.toLower ∈ ['b', 'y', 't', 'e', 's'] := by
  have hunit : unit.map Char.toLower = ['b', 'y', 't', 'e', 's'] := by
    simpa [isBytesUnit, eqIgnoreAsciiCase] using h
  exact hunit ▸ mem_map_of_mem hc

theorem isBytesUnit_chars {unit : List Char} (h : isBytesUnit unit = true) : '=' ∉ unit ∧ trim unit = unit := by
  refine ⟨fun hmem => absurd (mem_of_isBytesUnit h hmem) (by decide), trim_of_bare (bare_of_forall fun c hc => ?_)⟩
  cases hupper : c.isUpper with
  | true => exact isWhitespace_of_isTokenChar (by simp [isTokenChar, Char.isAlphanum, Char.isAlpha, hupper])
  | false =>
    have hletter := mem_of_isBytesUnit h hc
    rw [toLower_of_not_isUpper hupper] at hletter
    have hall : ['b', 'y', 't', 'e', 's'].all isTokenChar = true := by decide
    exact isWhitespace_of_isTokenChar (all_eq_true.1 hall c hletter)

theorem parseByteRange_of_denotes {raw : String} (h : ByteRange.Denotes raw.toList range) (len : ℕ) :
    ∃ first last, range.Positions first last ∧ parseByteRange raw len = rangeBetween first last len := by
  obtain ⟨unit, first, last, hraw, hunit, hpositions⟩ := h
  obtain ⟨hequals, htrim⟩ := isBytesUnit_chars hunit
  obtain ⟨hfirst, hlast⟩ := isDigit_of_positions hpositions
  have hhyphen : '-' ∉ first := fun hmem => absurd (hfirst _ hmem) (by decide)
  have hcomma : ',' ∉ first ++ '-' :: last := by
    intro hmem
    rcases mem_append.1 hmem with hmem | hmem
    · exact absurd (hfirst _ hmem) (by decide)
    · rcases mem_cons.1 hmem with heq | hmem
      · exact absurd heq (by decide)
      · exact absurd (hlast _ hmem) (by decide)
  refine ⟨first, last, hpositions, ?_⟩
  rw [parseByteRange_eq, hraw, splitOnce_append hequals]
  dsimp only
  rw [splitOnce_append hhyphen, htrim, if_neg (by simpa [hunit] using hcomma)]
  dsimp only
  rw [trim_of_digits hfirst, trim_of_digits hlast]

end Denoted

/-- **When the answer is that of the grammar.** `parse_byte_range` answers a text as the grammar does exactly if, where
the text denotes a range, the numbers that are read fit 64 bits, and where it does not, the text is not read as a range.
A text that is ignored is answered with the whole file. -/
theorem parseByteRange_agrees_iff (raw : String) (len : ℕ) :
    (RangeAgrees raw.toList len (parseByteRange raw len) ↔
      (∀ range, ByteRange.Denotes raw.toList range → range.Fits len) ∧
        ((∀ range, ¬ ByteRange.Denotes raw.toList range) → ¬ NearRange raw.toList len)) ∧
      ∀ method ignoreRange, parseByteRange raw len = .ignored →
        (selectRange method ignoreRange (some raw) len).status = 200 := by
  constructor
  · constructor
    · rintro ⟨hdenotes, hnone⟩
      refine ⟨fun range hrange => ?_, fun hno hnear => parseByteRange_ne_ignored_iff.2 hnear (hnone hno)⟩
      by_contra hfits
      obtain ⟨first, last, hpositions, heq⟩ := parseByteRange_of_denotes hrange len
      have hselects := hdenotes range hrange
      rw [heq, rangeBetween_ignored hpositions hfits] at hselects
      rcases hselects with ⟨_, _, h, _⟩ | ⟨h, _⟩
      · exact nomatch h
      · exact nomatch h
    · rintro ⟨hfits, hnear⟩
      refine ⟨fun range hrange => ?_, fun hno => not_not.1 fun h => hnear hno (parseByteRange_ne_ignored_iff.1 h)⟩
      obtain ⟨first, last, hpositions, heq⟩ := parseByteRange_of_denotes hrange len
      rw [heq]
      exact rangeBetween_selects hpositions (hfits range hrange)
  · intro method ignoreRange hignored
    have hwhole : (if eqIgnoreAsciiCase method "HEAD" then StaticReply.metadata else .body 200 0 len).status = 200 := by
      split <;> rfl
    unfold selectRange
    cases eqIgnoreAsciiCase method "GET" with
    | false => cases ignoreRange <;> exact hwhole
    | true =>
      rw [if_pos rfl]
      dsimp only
      rw [Option.map_some, hignored]
      cases ignoreRange <;> exact hwhole

/-- A malformed last position is not noticed behind a first one past the end of the file. -/
theorem parseByteRange_malformed :
    parseByteRange "bytes=9-x" 5 = .unsatisfiable ∧ (selectRange "GET" false (some "bytes=9-x") 5).status = 416 ∧
      ¬ RangeAgrees "bytes=9-x".toList 5 (parseByteRange "bytes=9-x" 5) := by
  have hnone : ∀ range, ¬ ByteRange.Denotes "bytes=9-x".toList range := by
    rintro range ⟨unit, first, last, hraw, hunit, hpositions⟩
    obtain ⟨hfirst, hlast⟩ := isDigit_of_positions hpositions
    -- the letter `x` can stand in no part of a range
    have hx : 'x' ∈ "bytes=9-x".toList := by decide
    rw [hraw, mem_append, mem_cons, mem_append, mem_cons] at hx
    rcases hx with hx | hx | hx | hx | hx
    · exact absurd (mem_of_isBytesUnit hunit hx) (by decide)
    · exact absurd hx (by decide)
    · exact absurd (hfirst _ hx) (by decide)
    · exact absurd hx (by decide)
    · exact absurd (hlast _ hx) (by decide)
  have hanswer : parseByteRange "bytes=9-x" 5 = .unsatisfiable := by decide +kernel
  refine ⟨hanswer, by decide +kernel, fun hagrees => ?_⟩
  have hignored := hagrees.2 hnone
  rw [hanswer] at hignored
  exact nomatch hignored

end RustRest
