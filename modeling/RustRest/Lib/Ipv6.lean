import RustRest.Lib.Search

/-!
# Textual IPv6 addresses

An address is a list of eight groups of 16 bits. `parse` reads the forms of a text: groups of up to four hexadecimal
digits, one `::` for a run of zero groups, an IPv4 address in place of the last two groups. `display` writes the
canonical one.
-/

namespace Ipv6

open List

/-! ## Reading -/

def isHexDigit (c : Char) : Bool := c.isDigit || ('a' ≤ c && c ≤ 'f') || ('A' ≤ c && c ≤ 'F')

def hexDigitValue (c : Char) : ℕ := if c.isDigit then c.toNat - 48 else c.toLower.toNat - 87

/-- A group: one to four hexadecimal digits. -/
def readGroup (text : List Char) : Option ℕ :=
  if text ≠ [] ∧ text.length ≤ 4 ∧ text.all isHexDigit then
    some (text.foldl (fun n c => n * 16 + hexDigitValue c) 0)
  else none

def readOctet (text : List Char) : Option ℕ :=
  if text ≠ [] ∧ text.length ≤ 3 ∧ text.all Char.isDigit ∧ (text.head? = some '0' → text = ['0']) ∧
      Nat.ofDigitChars 10 text 0 < 256 then
    some (Nat.ofDigitChars 10 text 0)
  else none

/-- An IPv4 address, as two groups. -/
def readIpv4 (text : List Char) : Option (List ℕ) :=
  match (text.splitOn '.').mapM readOctet with
  | some [a, b, c, d] => some [a * 256 + b, c * 256 + d]
  | _ => none

def readGroups : List (List Char) → Option (List ℕ)
  | [] => some []
  | [last] => (readIpv4 last).or ((readGroup last).map fun group => [group])
  | text :: texts => do
    let group ← readGroup text
    let groups ← readGroups texts
    some (group :: groups)

def colonPieces (text : List Char) : List (List Char) := if text = [] then [] else text.splitOn ':'

def parse (text : List Char) : Option (List ℕ) :=
  match Search.find text [':', ':'] with
  | none => (readGroups (colonPieces text)).filter fun groups => groups.length = 8
  | some position => do
    let front ← (colonPieces (text.take position)).mapM readGroup
    let back ← readGroups (colonPieces (text.drop (position + 2)))
    if front.length + back.length ≤ 7 then
      some (front ++ (List.replicate (8 - front.length - back.length) 0 ++ back))
    else none

/-! ## Writing -/

structure Span where
  start : ℕ := 0
  len : ℕ := 0

def zeroStep (spans : Span × Span) (x : ℕ × ℕ) : Span × Span :=
  if x.1 = 0 then
    let current : Span := { start := if spans.2.len = 0 then x.2 else spans.2.start, len := spans.2.len + 1 }
    (if current.len > spans.1.len then current else spans.1, current)
  else (spans.1, {})

/-- The first longest run of zero groups. -/
def longestZeros (groups : List ℕ) : Span := (groups.zipIdx.foldl zeroStep ({}, {})).1

def displayGroups (groups : List ℕ) : List Char := [':'].intercalate (groups.map (Nat.toDigits 16))

def display (groups : List ℕ) : List Char :=
  match groups with
  | [0, 0, 0, 0, 0, 0xffff, high, low] =>
    "::ffff:".toList ++ ['.'].intercalate ([high / 256, high % 256, low / 256, low % 256].map (Nat.toDigits 10))
  | groups =>
    let zeros := longestZeros groups
    if zeros.len > 1 then
      displayGroups (groups.take zeros.start) ++ ':' :: ':' :: displayGroups (groups.drop (zeros.start + zeros.len))
    else displayGroups groups

/-! ## Symbols -/

def Symbol (c : Char) : Prop := isHexDigit c = true ∨ c = ':' ∨ c = '.'

theorem symbol_of_isDigit {c : Char} (h : c.isDigit = true) : Symbol c := .inl (by simp [isHexDigit, h])

theorem symbol_of_readGroup {text : List Char} {group : ℕ} (h : readGroup text = some group) : ∀ c ∈ text, Symbol c := by
  unfold readGroup at h
  split at h
  · next hgroup => exact fun c hc => .inl (all_eq_true.1 hgroup.2.2 c hc)
  · exact nomatch h

theorem symbol_of_readOctet {text : List Char} {octet : ℕ} (h : readOctet text = some octet) : ∀ c ∈ text, Symbol c := by
  unfold readOctet at h
  split at h
  · next hoctet => exact fun c hc => symbol_of_isDigit (all_eq_true.1 hoctet.2.2.1 c hc)
  · exact nomatch h

theorem exists_of_mapM {α β : Type} {f : α → Option β} {l : List α} {m : List β} (h : l.mapM f = some m) :
    ∀ a ∈ l, ∃ b, f a = some b := by
  induction l generalizing m with
  | nil => exact fun a ha => absurd ha not_mem_nil
  | cons a l ih =>
    rw [mapM_cons] at h
    obtain ⟨b, hb, h⟩ := Option.bind_eq_some_iff.1 h
    obtain ⟨m', hm', -⟩ := Option.bind_eq_some_iff.1 h
    intro a' ha'
    rcases mem_cons.1 ha' with rfl | ha'
    · exact ⟨b, hb⟩
    · exact ih hm' a' ha'

theorem symbol_of_readIpv4 {text : List Char} {groups : List ℕ} (h : readIpv4 text = some groups) :
    ∀ c ∈ text, Symbol c := by
  unfold readIpv4 at h
  split at h
  · next hoctets =>
    intro c hc
    rcases Search.mem_splitOn '.' hc with rfl | ⟨part, hpart, hc⟩
    · exact .inr (.inr rfl)
    · obtain ⟨octet, hoctet⟩ := exists_of_mapM hoctets part hpart
      exact symbol_of_readOctet hoctet c hc
  · exact nomatch h

theorem symbol_of_readGroups {texts : List (List Char)} {groups : List ℕ} (h : readGroups texts = some groups) :
    ∀ text ∈ texts, ∀ c ∈ text, Symbol c := by
  induction texts generalizing groups with
  | nil => exact fun text htext => absurd htext not_mem_nil
  | cons text texts ih =>
    cases texts with
    | nil =>
      intro text' htext'
      rw [mem_singleton.1 htext']
      rw [readGroups, Option.or_eq_some_iff] at h
      rcases h with hipv4 | ⟨-, hgroup⟩
      · exact symbol_of_readIpv4 hipv4
      · obtain ⟨group, hgroup, -⟩ := Option.map_eq_some_iff.1 hgroup
        exact symbol_of_readGroup hgroup
    | cons next texts =>
      obtain ⟨group, hgroup, h⟩ := Option.bind_eq_some_iff.1 h
      obtain ⟨groups', hgroups, -⟩ := Option.bind_eq_some_iff.1 h
      intro text' htext'
      rcases mem_cons.1 htext' with rfl | htext'
      · exact symbol_of_readGroup hgroup
      · exact ih hgroups text' htext'

theorem symbol_of_colonPieces {text : List Char} (h : ∀ piece ∈ colonPieces text, ∀ c ∈ piece, Symbol c) :
    ∀ c ∈ text, Symbol c := by
  intro c hc
  rw [colonPieces, if_neg (ne_nil_of_mem hc)] at h
  rcases Search.mem_splitOn ':' hc with rfl | ⟨piece, hpiece, hc⟩
  · exact .inr (.inl rfl)
  · exact h piece hpiece c hc

/-- The symbols of an accepted text. -/
theorem symbol_of_parse {text : List Char} {groups : List ℕ} (h : parse text = some groups) : ∀ c ∈ text, Symbol c := by
  unfold parse at h
  split at h
  · obtain ⟨hgroups, -⟩ := Option.filter_eq_some_iff.1 h
    exact symbol_of_colonPieces (symbol_of_readGroups hgroups)
  · next position hfind =>
    obtain ⟨front, hfront, h⟩ := Option.bind_eq_some_iff.1 h
    obtain ⟨back, hback, -⟩ := Option.bind_eq_some_iff.1 h
    obtain ⟨rest, hrest⟩ := Search.prefix_of_find hfind
    have hdrop : text.drop (position + 2) = rest := by
      rw [← drop_drop, ← hrest]
      rfl
    intro c hc
    rw [← take_append_drop position text, ← hrest] at hc
    rcases mem_append.1 hc with hc | hc
    · refine symbol_of_colonPieces (fun piece hpiece => ?_) c hc
      obtain ⟨group, hgroup⟩ := exists_of_mapM hfront piece hpiece
      exact symbol_of_readGroup hgroup
    · rcases mem_append.1 hc with hc | hc
      · simp only [mem_cons, not_mem_nil, or_false, or_self] at hc
        exact .inr (.inl hc)
      · exact symbol_of_colonPieces (symbol_of_readGroups hback) c (hdrop ▸ hc)

end Ipv6
