import Mathlib

/-!
# HMAC-SHA256 and base64url

SHA-256 and the MAC made of it, over natural numbers below `2 ^ 32` so that the kernel can evaluate them, and base64url
without padding, whose decoding accepts the encodings and nothing else.
-/

namespace Sha256

def rotr (x n : ℕ) : ℕ := (x >>> n ||| x <<< (32 - n)) % 2 ^ 32

def roundConstants : List ℕ :=
  [0x428a2f98, 0x71374491, 0xb5c0fbcf, 0xe9b5dba5, 0x3956c25b, 0x59f111f1, 0x923f82a4, 0xab1c5ed5,
    0xd807aa98, 0x12835b01, 0x243185be, 0x550c7dc3, 0x72be5d74, 0x80deb1fe, 0x9bdc06a7, 0xc19bf174,
    0xe49b69c1, 0xefbe4786, 0x0fc19dc6, 0x240ca1cc, 0x2de92c6f, 0x4a7484aa, 0x5cb0a9dc, 0x76f988da,
    0x983e5152, 0xa831c66d, 0xb00327c8, 0xbf597fc7, 0xc6e00bf3, 0xd5a79147, 0x06ca6351, 0x14292967,
    0x27b70a85, 0x2e1b2138, 0x4d2c6dfc, 0x53380d13, 0x650a7354, 0x766a0abb, 0x81c2c92e, 0x92722c85,
    0xa2bfe8a1, 0xa81a664b, 0xc24b8b70, 0xc76c51a3, 0xd192e819, 0xd6990624, 0xf40e3585, 0x106aa070,
    0x19a4c116, 0x1e376c08, 0x2748774c, 0x34b0bcb5, 0x391c0cb3, 0x4ed8aa4a, 0x5b9cca4f, 0x682e6ff3,
    0x748f82ee, 0x78a5636f, 0x84c87814, 0x8cc70208, 0x90befffa, 0xa4506ceb, 0xbef9a3f7, 0xc67178f2]

/-- `count` words of the message schedule, from sixteen on. -/
def schedule : (count : ℕ) → List ℕ → List ℕ
  | count + 1, w :: words =>
    let (x, y) := (words.getD 0 0, words.getD 13 0)
    let σ₀ := rotr x 7 ^^^ rotr x 18 ^^^ x >>> 3
    let σ₁ := rotr y 17 ^^^ rotr y 19 ^^^ y >>> 10
    w :: schedule count (words ++ [(w + σ₀ + words.getD 8 0 + σ₁) % 2 ^ 32])
  | _, _ => []

def round (state : List ℕ) (input : ℕ × ℕ) : List ℕ :=
  match state with
  | [a, b, c, d, e, f, g, h] =>
    let choice := (e &&& f) ^^^ ((2 ^ 32 - 1 - e) &&& g)
    let majority := (a &&& b) ^^^ (a &&& c) ^^^ (b &&& c)
    let t := h + (rotr e 6 ^^^ rotr e 11 ^^^ rotr e 25) + choice + input.1 + input.2
    [(t + (rotr a 2 ^^^ rotr a 13 ^^^ rotr a 22) + majority) % 2 ^ 32, a, b, c, (d + t) % 2 ^ 32, e, f, g]
  | _ => state

def compress (state : List ℕ) (block : List UInt8) : List ℕ :=
  let words := (List.range 16).map fun i => ((block.drop (4 * i)).take 4).foldl (fun n b => n * 256 + b.toNat) 0
  List.zipWith (fun x y => (x + y) % 2 ^ 32) state ((roundConstants.zip (schedule 64 words)).foldl round state)

def blocks : ℕ → List UInt8 → List ℕ → List ℕ
  | 0, _, state => state
  | count + 1, bytes, state => blocks count (bytes.drop 64) (compress state (bytes.take 64))

def bigEndian (count n : ℕ) : List UInt8 := (List.range count).reverse.map fun i => UInt8.ofNat (n >>> (8 * i))

def digest (message : List UInt8) : List UInt8 :=
  let zeros := (119 - message.length % 64) % 64
  let padded := message ++ 0x80 :: List.replicate zeros 0 ++ bigEndian 8 (8 * message.length)
  (blocks (padded.length / 64) padded [0x6a09e667, 0xbb67ae85, 0x3c6ef372, 0xa54ff53a, 0x510e527f, 0x9b05688c, 0x1f83d9ab,
    0x5be0cd19]).flatMap (bigEndian 4)

def hmac (key message : List UInt8) : List UInt8 :=
  let key := if 64 < key.length then digest key else key
  let pad := fun x : UInt8 => (key ++ List.replicate (64 - key.length) 0).map (x ^^^ ·)
  digest (pad 0x5c ++ digest (pad 0x36 ++ message))

end Sha256

namespace Base64Url

def alphabet : List Char := "ABCDEFGHIJKLMNOPQRSTUVWXYZabcdefghijklmnopqrstuvwxyz0123456789-_".toList

def symbol (n : ℕ) : Char := alphabet.getD n 'A'

def value (c : Char) : ℕ := alphabet.idxOf c

theorem value_symbol {n : ℕ} (h : n < 64) : value (symbol n) = n := by
  revert n
  decide +kernel

def encode : List UInt8 → List Char
  | a :: b :: c :: rest => symbol (a.toNat / 4) :: symbol (a.toNat % 4 * 16 + b.toNat / 16) ::
      symbol (b.toNat % 16 * 4 + c.toNat / 64) :: symbol (c.toNat % 64) :: encode rest
  | [a, b] => [symbol (a.toNat / 4), symbol (a.toNat % 4 * 16 + b.toNat / 16), symbol (b.toNat % 16 * 4)]
  | [a] => [symbol (a.toNat / 4), symbol (a.toNat % 4 * 16)]
  | [] => []

/-- The whole bytes that the symbols of a text make. -/
def octets : List Char → List UInt8
  | w :: x :: y :: z :: rest => .ofNat (value w * 4 + value x / 16) :: .ofNat (value x % 16 * 16 + value y / 4) ::
      .ofNat (value y % 4 * 64 + value z) :: octets rest
  | [w, x, y] => [.ofNat (value w * 4 + value x / 16), .ofNat (value x % 16 * 16 + value y / 4)]
  | [w, x] => [.ofNat (value w * 4 + value x / 16)]
  | _ => []

/-- Other symbols are refused, and so are bits that belong to no byte and are not zero. -/
def decode (text : List Char) : Option (List UInt8) :=
  if encode (octets text) = text then some (octets text) else none

theorem ofNat_eq {n : ℕ} {b : UInt8} (h : n = b.toNat) : UInt8.ofNat n = b := by
  rw [h, UInt8.ofNat_toNat]

theorem octets_encode (bytes : List UInt8) : octets (encode bytes) = bytes := by
  fun_induction encode bytes with
  | case1 a b c rest ih =>
    have ha := a.toNat_lt
    have hb := b.toNat_lt
    have hc := c.toNat_lt
    rw [octets, value_symbol (by omega), value_symbol (by omega), value_symbol (by omega), value_symbol (by omega), ih,
      ofNat_eq (b := a) (by omega), ofNat_eq (b := b) (by omega), ofNat_eq (b := c) (by omega)]
  | case2 a b =>
    have ha := a.toNat_lt
    have hb := b.toNat_lt
    rw [octets, value_symbol (by omega), value_symbol (by omega), value_symbol (by omega),
      ofNat_eq (b := a) (by omega), ofNat_eq (b := b) (by omega)]
  | case3 a =>
    have ha := a.toNat_lt
    rw [octets, value_symbol (by omega), value_symbol (by omega), ofNat_eq (b := a) (by omega)]
  | case4 => rfl

theorem decode_eq_some {text : List Char} {bytes : List UInt8} : decode text = some bytes ↔ text = encode bytes := by
  rw [decode, Option.ite_none_right_eq_some, Option.some_inj]
  constructor
  · rintro ⟨htext, rfl⟩
    exact htext.symm
  · rintro rfl
    rw [octets_encode]
    exact ⟨rfl, rfl⟩

theorem mem_alphabet_of_mem_encode {bytes : List UInt8} {c : Char} (h : c ∈ encode bytes) : c ∈ alphabet := by
  have hsymbol : ∀ n, symbol n ∈ alphabet := fun n => by
    by_cases hn : n < alphabet.length
    · rw [symbol, List.getD_eq_getElem _ _ hn]
      exact List.getElem_mem hn
    · rw [symbol, List.getD_eq_default _ _ (Nat.le_of_not_lt hn)]
      decide
  fun_induction encode bytes <;> simp only [List.mem_cons, List.not_mem_nil, or_false] at h <;> grind

end Base64Url
