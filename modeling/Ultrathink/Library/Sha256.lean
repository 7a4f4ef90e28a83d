import Ultrathink.Library.JsText

/-!
# SHA-256

FIPS 180-4, on byte lists, and the lower-case hexadecimal form of a digest.
-/

namespace Ultrathink.Library.Sha256

open List JsText

def hexDigit (n : Nat) : UInt16 :=
  if n < 10 then (0x30 + n).toUInt16 else (0x57 + n).toUInt16

def isHexDigit (u : UInt16) : Bool := isDigit u || (0x61 ≤ u && u ≤ 0x66)

def hexValue (u : UInt16) : Nat := if isDigit u then u.toNat - 0x30 else u.toNat - 0x57

def hex (bytes : List UInt8) : Text :=
  bytes.flatMap (fun b => [hexDigit (b.toNat / 16), hexDigit (b.toNat % 16)])

/-- `Buffer.from(t, "hex")` of hexadecimal digits. -/
def unhex : Text → List UInt8
  | high :: low :: rest => (hexValue high * 16 + hexValue low).toUInt8 :: unhex rest
  | _ => []

/-- `/^[0-9a-f]{64}$/`. -/
def isHex64 (t : Text) : Bool := t.length = 64 && t.all isHexDigit

theorem isHexDigit_hexDigit {n : Nat} (small : n < 16) : isHexDigit (hexDigit n) := by
  revert n
  decide

theorem hex_length (bytes : List UInt8) : (hex bytes).length = 2 * bytes.length := by
  induction bytes with
  | nil => rfl
  | cons b rest ih =>
    rw [hex, flatMap_cons, length_append, ← hex, ih]
    simp only [length_cons, length_nil]
    omega

theorem isHexDigit_of_mem_hex {bytes : List UInt8} : ∀ u ∈ hex bytes, isHexDigit u := by
  intro u mem
  obtain ⟨b, -, digit⟩ := mem_flatMap.mp mem
  have bound := b.toNat_lt
  simp only [mem_cons, not_mem_nil, or_false] at digit
  rcases digit with rfl | rfl
  · exact isHexDigit_hexDigit (by omega)
  · exact isHexDigit_hexDigit (by omega)

theorem isHex64_hex {bytes : List UInt8} (length : bytes.length = 32) : isHex64 (hex bytes) := by
  rw [isHex64, hex_length, length, Bool.and_eq_true, all_eq_true]
  exact ⟨rfl, isHexDigit_of_mem_hex⟩

theorem hexValue_hexDigit {n : Nat} (small : n < 16) : hexValue (hexDigit n) = n := by
  revert n
  decide

theorem unhex_hex (bytes : List UInt8) : unhex (hex bytes) = bytes := by
  induction bytes with
  | nil => rfl
  | cons b rest ih =>
    have bound := b.toNat_lt
    have byte : hexValue (hexDigit (b.toNat / 16)) * 16 + hexValue (hexDigit (b.toNat % 16)) =
        b.toNat := by
      rw [hexValue_hexDigit (by omega), hexValue_hexDigit (by omega)]
      omega
    rw [hex, flatMap_cons, ← hex]
    simp only [cons_append, nil_append, unhex, byte, ih]
    simp

/-- The first 32 bits of the fractional parts of the cube roots of the first 64
primes. -/
def roundConstants : List UInt32 := [
  0x428a2f98, 0x71374491, 0xb5c0fbcf, 0xe9b5dba5, 0x3956c25b, 0x59f111f1, 0x923f82a4, 0xab1c5ed5,
  0xd807aa98, 0x12835b01, 0x243185be, 0x550c7dc3, 0x72be5d74, 0x80deb1fe, 0x9bdc06a7, 0xc19bf174,
  0xe49b69c1, 0xefbe4786, 0x0fc19dc6, 0x240ca1cc, 0x2de92c6f, 0x4a7484aa, 0x5cb0a9dc, 0x76f988da,
  0x983e5152, 0xa831c66d, 0xb00327c8, 0xbf597fc7, 0xc6e00bf3, 0xd5a79147, 0x06ca6351, 0x14292967,
  0x27b70a85, 0x2e1b2138, 0x4d2c6dfc, 0x53380d13, 0x650a7354, 0x766a0abb, 0x81c2c92e, 0x92722c85,
  0xa2bfe8a1, 0xa81a664b, 0xc24b8b70, 0xc76c51a3, 0xd192e819, 0xd6990624, 0xf40e3585, 0x106aa070,
  0x19a4c116, 0x1e376c08, 0x2748774c, 0x34b0bcb5, 0x391c0cb3, 0x4ed8aa4a, 0x5b9cca4f, 0x682e6ff3,
  0x748f82ee, 0x78a5636f, 0x84c87814, 0x8cc70208, 0x90befffa, 0xa4506ceb, 0xbef9a3f7, 0xc67178f2]

structure Words where
  a : UInt32
  b : UInt32
  c : UInt32
  d : UInt32
  e : UInt32
  f : UInt32
  g : UInt32
  h : UInt32

/-- The first 32 bits of the fractional parts of the square roots of the first
eight primes. -/
def initialWords : Words :=
  ⟨0x6a09e667, 0xbb67ae85, 0x3c6ef372, 0xa54ff53a, 0x510e527f, 0x9b05688c, 0x1f83d9ab, 0x5be0cd19⟩

def rotateRight (x : UInt32) (n : UInt32) : UInt32 := x >>> n ||| x <<< (32 - n)

/-- The word that joins the schedule sixteen places after `window.head`. -/
def nextWord (window : List UInt32) : UInt32 :=
  let w1 := window.getD 1 0
  let w14 := window.getD 14 0
  let s0 := rotateRight w1 7 ^^^ rotateRight w1 18 ^^^ w1 >>> 3
  let s1 := rotateRight w14 17 ^^^ rotateRight w14 19 ^^^ w14 >>> 10
  window.getD 0 0 + s0 + window.getD 9 0 + s1

def round (s : Words) (constant word : UInt32) : Words :=
  let s1 := rotateRight s.e 6 ^^^ rotateRight s.e 11 ^^^ rotateRight s.e 25
  let choice := (s.e &&& s.f) ^^^ (~~~s.e &&& s.g)
  let t1 := s.h + s1 + choice + constant + word
  let s0 := rotateRight s.a 2 ^^^ rotateRight s.a 13 ^^^ rotateRight s.a 22
  let majority := (s.a &&& s.b) ^^^ (s.a &&& s.c) ^^^ (s.b &&& s.c)
  ⟨t1 + (s0 + majority), s.a, s.b, s.c, s.d + t1, s.e, s.f, s.g⟩

/-- The rounds of a block; `window` holds the sixteen words of the schedule from
the current one on. -/
def rounds : List UInt32 → List UInt32 → Words → Words
  | constant :: rest, word :: later, s =>
    rounds rest (later ++ [nextWord (word :: later)]) (round s constant word)
  | _, _, s => s

def compress (s : Words) (block : List UInt32) : Words :=
  let t := rounds roundConstants block s
  ⟨s.a + t.a, s.b + t.b, s.c + t.c, s.d + t.d, s.e + t.e, s.f + t.f, s.g + t.g, s.h + t.h⟩

def bigEndian (n : Nat) : Nat → List UInt8
  | 0 => []
  | count + 1 => (n / 256 ^ count).toUInt8 :: bigEndian n count

/-- The message, a one bit, zeros to a whole block, and the length in bits. -/
def pad (message : List UInt8) : List UInt8 :=
  message ++ 0x80 :: List.replicate ((119 - message.length % 64) % 64) 0 ++
    bigEndian (8 * message.length) 8

def wordsOf : List UInt8 → List UInt32
  | a :: b :: c :: d :: rest =>
    (((a.toNat * 256 + b.toNat) * 256 + c.toNat) * 256 + d.toNat).toUInt32 :: wordsOf rest
  | _ => []

def blocks : Nat → List UInt32 → Words → Words
  | 0, _, s => s
  | count + 1, words, s => blocks count (words.drop 16) (compress s (words.take 16))

def bytesOf (s : Words) : List UInt8 :=
  [s.a, s.b, s.c, s.d, s.e, s.f, s.g, s.h].flatMap (fun w => bigEndian w.toNat 4)

def sha256 (message : List UInt8) : List UInt8 :=
  bytesOf (blocks ((pad message).length / 64) (wordsOf (pad message)) initialWords)

/-- `createHash("sha256").update(message).digest("hex")`. -/
def sha256Hex (message : List UInt8) : Text := hex (sha256 message)

theorem sha256_length (message : List UInt8) : (sha256 message).length = 32 := rfl

theorem isHex64_sha256Hex (message : List UInt8) : isHex64 (sha256Hex message) :=
  isHex64_hex (sha256_length message)

example : sha256Hex (toUtf8 (js "abc")) =
    js "ba7816bf8f01cfea414140de5dae2223b00361a396177a9cb410ff61f20015ad" := by
  decide +kernel

end Ultrathink.Library.Sha256
