import RustRest.Text
import RustRest.Lib.MultiMap

/-!
# Header fields

The names and values of the `http` crate. A name is a token without upper case letters; a value is a string of bytes
without control characters other than the tab. A `HeaderMap` lists the values of each name in the order in which they
came. An `HttpError` carries the fields that its response must have.
-/

namespace RustRest

open List

/-! ## Names -/

structure HeaderName where
  text : String
  nonempty : text ≠ ""
  token : text.toList.all isTokenChar = true
  lower : toAsciiLowercase text = text
  deriving DecidableEq

theorem HeaderName.ext_text {n₁ n₂ : HeaderName} (h : n₁.text = n₂.text) : n₁ = n₂ := by
  cases n₁
  cases n₂
  cases h
  rfl

def maxHeaderNameLen : ℕ := 65535

def HeaderName.ofStr (name : String) : Option HeaderName :=
  if h : name ≠ "" ∧ name.toList.length ≤ maxHeaderNameLen ∧ name.toList.all isTokenChar = true then
    some
      { text := toAsciiLowercase name
        nonempty := by
          intro hempty
          have hlist := congrArg String.toList hempty
          rw [toAsciiLowercase, String.toList_ofList] at hlist
          exact h.1 (String.toList_inj.1 (map_eq_nil_iff.1 hlist))
        token := by
          rw [toAsciiLowercase, String.toList_ofList, all_map, all_eq_true]
          intro c hc
          exact isTokenChar_toLower (all_eq_true.1 h.2.2 c hc)
        lower := toAsciiLowercase_toAsciiLowercase name }
  else none

/-! ## Values -/

def isHeaderValueByte (b : UInt8) : Bool := (32 ≤ b && b != 127) || b == 9

def isVisibleAscii (b : UInt8) : Bool := (32 ≤ b && b < 127) || b == 9

structure HeaderValue where
  bytes : List UInt8
  valid : bytes.all isHeaderValueByte = true
  deriving DecidableEq

/-- `HeaderValue::from_str`, which takes every byte from `0x80` on. -/
def HeaderValue.fromStr (value : String) : Option HeaderValue :=
  if h : (utf8 value).all isHeaderValueByte = true then some ⟨utf8 value, h⟩ else none

/-- `HeaderValue::to_str`, which gives only visible ASCII. -/
def HeaderValue.toStr (value : HeaderValue) : Option (List Char) :=
  if value.bytes.all isVisibleAscii then some (value.bytes.map fun b => Char.ofNat b.toNat) else none

/-- The bytes of an ASCII text. -/
def asciiBytes (text : List Char) : List UInt8 := text.map fun c => UInt8.ofNat c.toNat

theorem utf8_ascii {text : String} (h : ∀ c ∈ text.toList, c.toNat < 128) : utf8 text = asciiBytes text.toList := by
  rw [utf8_eq_flatMap, asciiBytes, map_eq_flatMap]
  exact flatMap_congr fun c hc => (utf8EncodeChar_ascii (h c hc)).1

theorem map_asciiBytes {text : List Char} (h : ∀ c ∈ text, c.toNat < 128) :
    (asciiBytes text).map (fun b => Char.ofNat b.toNat) = text := by
  rw [asciiBytes, map_map]
  exact (map_congr_left fun c hc => (utf8EncodeChar_ascii (h c hc)).2).trans (map_id text)

def isVisibleChar (c : Char) : Bool := 0x20 ≤ c.toNat && c.toNat < 0x7F

theorem isVisibleAscii_of_isVisibleChar {c : Char} (h : isVisibleChar c = true) :
    isVisibleAscii (UInt8.ofNat c.toNat) = true ∧ Char.ofNat (UInt8.ofNat c.toNat).toNat = c := by
  have hrange : 0x20 ≤ c.toNat ∧ c.toNat < 0x7F := by simpa [isVisibleChar] using h
  exact forall_ascii (P := fun c => isVisibleChar c = true → isVisibleAscii (UInt8.ofNat c.toNat) = true ∧
    Char.ofNat (UInt8.ofNat c.toNat).toNat = c) (by decide +kernel) (by omega) h

theorem isHeaderValueByte_of_isVisibleAscii {b : UInt8} (h : isVisibleAscii b = true) : isHeaderValueByte b = true := by
  revert b
  decide +kernel

def HeaderValue.ofVisible (text : List Char) (h : text.all isVisibleChar = true) : HeaderValue where
  bytes := asciiBytes text
  valid := by
    rw [asciiBytes, all_map, all_eq_true]
    intro c hc
    exact isHeaderValueByte_of_isVisibleAscii (isVisibleAscii_of_isVisibleChar (all_eq_true.1 h c hc)).1

theorem HeaderValue.toStr_ofVisible {text : List Char} (h : text.all isVisibleChar = true) :
    (HeaderValue.ofVisible text h).toStr = some text := by
  have hchars : ∀ c ∈ text, isVisibleAscii (UInt8.ofNat c.toNat) = true ∧ Char.ofNat (UInt8.ofNat c.toNat).toNat = c :=
    fun c hc => isVisibleAscii_of_isVisibleChar (all_eq_true.1 h c hc)
  have hvisible : (asciiBytes text).all isVisibleAscii = true := by
    rw [asciiBytes, all_map, all_eq_true]
    exact fun c hc => (hchars c hc).1
  have htext : (asciiBytes text).map (fun b => Char.ofNat b.toNat) = text := by
    rw [asciiBytes, map_map]
    exact (map_congr_left fun c hc => (hchars c hc).2).trans (map_id text)
  unfold HeaderValue.toStr HeaderValue.ofVisible
  rw [if_pos hvisible, htext]

abbrev HeaderMap := MultiMap HeaderName HeaderValue

/-! ## Errors -/

/-- `HttpError`, with the headers of its details. -/
structure HttpError where
  status : ℕ
  code : String
  publicMessage : String
  headers : HeaderMap
  deriving DecidableEq

/-- `HttpError::new`. -/
def HttpError.new (status : ℕ) (code publicMessage : String) : HttpError := ⟨status, code, publicMessage, ∅⟩

/-- `HttpError::internal_server_error`. -/
def HttpError.internalServerError (publicMessage : String) : HttpError := .new 500 "internal_server_error" publicMessage

end RustRest
