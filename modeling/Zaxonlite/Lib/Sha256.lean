import Mathlib.Data.List.Basic

/-!
# SHA-256

The hash function of FIPS 180-4 over byte strings: the message is padded to whole 64-byte blocks, each
block is expanded to a schedule of 64 words, and 64 rounds fold the schedule into the chaining value.
The development above uses it only as a function; nothing here claims that it is hard to invert.
-/

namespace Sha256

abbrev Digest := Vector UInt8 32

/-- The eight words of the chaining value. -/
structure Chain where
  (a b c d e f g h : UInt32)

def initial : Chain where
  a := 0x6a09e667
  b := 0xbb67ae85
  c := 0x3c6ef372
  d := 0xa54ff53a
  e := 0x510e527f
  f := 0x9b05688c
  g := 0x1f83d9ab
  h := 0x5be0cd19

def roundConstants : List UInt32 :=
  [0x428a2f98, 0x71374491, 0xb5c0fbcf, 0xe9b5dba5, 0x3956c25b, 0x59f111f1, 0x923f82a4, 0xab1c5ed5,
   0xd807aa98, 0x12835b01, 0x243185be, 0x550c7dc3, 0x72be5d74, 0x80deb1fe, 0x9bdc06a7, 0xc19bf174,
   0xe49b69c1, 0xefbe4786, 0x0fc19dc6, 0x240ca1cc, 0x2de92c6f, 0x4a7484aa, 0x5cb0a9dc, 0x76f988da,
   0x983e5152, 0xa831c66d, 0xb00327c8, 0xbf597fc7, 0xc6e00bf3, 0xd5a79147, 0x06ca6351, 0x14292967,
   0x27b70a85, 0x2e1b2138, 0x4d2c6dfc, 0x53380d13, 0x650a7354, 0x766a0abb, 0x81c2c92e, 0x92722c85,
   0xa2bfe8a1, 0xa81a664b, 0xc24b8b70, 0xc76c51a3, 0xd192e819, 0xd6990624, 0xf40e3585, 0x106aa070,
   0x19a4c116, 0x1e376c08, 0x2748774c, 0x34b0bcb5, 0x391c0cb3, 0x4ed8aa4a, 0x5b9cca4f, 0x682e6ff3,
   0x748f82ee, 0x78a5636f, 0x84c87814, 0x8cc70208, 0x90befffa, 0xa4506ceb, 0xbef9a3f7, 0xc67178f2]

def rotateRight (x n : UInt32) : UInt32 :=
  (x >>> n) ||| (x <<< (32 - n))

/-- Big-endian bytes of a 64-bit length. -/
def encodeBe64 (n : ℕ) : List UInt8 :=
  (List.range 8).map fun i => UInt8.ofNat (n >>> (8 * (7 - i)))

/-- The message, a one bit, zeroes, and the bit length, filling whole blocks. -/
def pad (message : List UInt8) : List UInt8 :=
  message ++ 0x80 :: (List.replicate ((119 - message.length % 64) % 64) 0 ++
    encodeBe64 (8 * message.length))

/-- The big-endian words of a byte string. -/
def words : List UInt8 → List UInt32
  | b₀ :: b₁ :: b₂ :: b₃ :: bytes =>
    ((b₀.toUInt32 <<< 24) ||| (b₁.toUInt32 <<< 16) ||| (b₂.toUInt32 <<< 8) ||| b₃.toUInt32) ::
      words bytes
  | _ => []

/-- Extend a schedule held in reverse by one word. -/
def extend (schedule : List UInt32) : List UInt32 :=
  let w15 := schedule.getD 14 0
  let w2 := schedule.getD 1 0
  let s0 := rotateRight w15 7 ^^^ rotateRight w15 18 ^^^ (w15 >>> 3)
  let s1 := rotateRight w2 17 ^^^ rotateRight w2 19 ^^^ (w2 >>> 10)
  (schedule.getD 15 0 + s0 + schedule.getD 6 0 + s1) :: schedule

def schedule (block : List UInt32) : List UInt32 :=
  (Nat.repeat extend 48 block.reverse).reverse

def round (s : Chain) (kw : UInt32 × UInt32) : Chain :=
  let s1 := rotateRight s.e 6 ^^^ rotateRight s.e 11 ^^^ rotateRight s.e 25
  let ch := (s.e &&& s.f) ^^^ (~~~ s.e &&& s.g)
  let t1 := s.h + s1 + ch + kw.1 + kw.2
  let s0 := rotateRight s.a 2 ^^^ rotateRight s.a 13 ^^^ rotateRight s.a 22
  let maj := (s.a &&& s.b) ^^^ (s.a &&& s.c) ^^^ (s.b &&& s.c)
  { a := t1 + (s0 + maj), b := s.a, c := s.b, d := s.c, e := s.d + t1, f := s.e, g := s.f, h := s.g }

/-- Fold one block into the chaining value. -/
def compress (s : Chain) (block : List UInt32) : Chain :=
  let t := (roundConstants.zip (schedule block)).foldl round s
  { a := s.a + t.a, b := s.b + t.b, c := s.c + t.c, d := s.d + t.d,
    e := s.e + t.e, f := s.f + t.f, g := s.g + t.g, h := s.h + t.h }

/-- Fold every whole block of a list of words, at most `blocks` of them. -/
def compressAll : ℕ → Chain → List UInt32 → Chain
  | 0, s, _ => s
  | blocks + 1, s, ws => compressAll blocks (compress s (ws.take 16)) (ws.drop 16)

def Chain.digest (s : Chain) : Digest :=
  Vector.ofFn fun i : Fin 32 =>
    let word := match i.val / 4 with
      | 0 => s.a | 1 => s.b | 2 => s.c | 3 => s.d | 4 => s.e | 5 => s.f | 6 => s.g | _ => s.h
    (word >>> UInt32.ofNat (8 * (3 - i.val % 4))).toUInt8

/-- The digest of a byte string. -/
@[irreducible] def hash (message : List UInt8) : Digest :=
  let padded := pad message
  (compressAll (padded.length / 64) initial (words padded)).digest

/-- A key brought to the length of one block. -/
def blockKey (key : List UInt8) : List UInt8 :=
  let short := if 64 < key.length then (hash key).toList else key
  short ++ List.replicate (64 - short.length) 0

/-- The keyed digest of a byte string, HMAC. -/
@[irreducible] def hmac (key message : List UInt8) : Digest :=
  let inner := hash ((blockKey key).map (· ^^^ 0x36) ++ message)
  hash ((blockKey key).map (· ^^^ 0x5c) ++ inner.toList)

end Sha256
