import Gateway.Text.Utf8

/-!
# SHA-256 and HMAC

Tokens are signed with HMAC over SHA-256. The message is padded to whole blocks of sixty-four
octets, and each block is mixed into a state of eight words by sixty-four rounds; words are of 32
bits and their arithmetic wraps.

The round constants are the first 32 bits of the fractional parts of the cube roots of the first
sixty-four primes, and the initial state comes from the square roots of the first eight.

## Main definitions

* `Sha256.hash`: The thirty-two octets that stand for a message.
* `Hmac.sha256`: The thirty-two octets that stand for a message under a key.
-/

namespace Gateway

namespace Sha256

/-- The round constants. -/
def constants : Array UInt32 := #[
  0x428a2f98, 0x71374491, 0xb5c0fbcf, 0xe9b5dba5, 0x3956c25b, 0x59f111f1, 0x923f82a4, 0xab1c5ed5,
  0xd807aa98, 0x12835b01, 0x243185be, 0x550c7dc3, 0x72be5d74, 0x80deb1fe, 0x9bdc06a7, 0xc19bf174,
  0xe49b69c1, 0xefbe4786, 0x0fc19dc6, 0x240ca1cc, 0x2de92c6f, 0x4a7484aa, 0x5cb0a9dc, 0x76f988da,
  0x983e5152, 0xa831c66d, 0xb00327c8, 0xbf597fc7, 0xc6e00bf3, 0xd5a79147, 0x06ca6351, 0x14292967,
  0x27b70a85, 0x2e1b2138, 0x4d2c6dfc, 0x53380d13, 0x650a7354, 0x766a0abb, 0x81c2c92e, 0x92722c85,
  0xa2bfe8a1, 0xa81a664b, 0xc24b8b70, 0xc76c51a3, 0xd192e819, 0xd6990624, 0xf40e3585, 0x106aa070,
  0x19a4c116, 0x1e376c08, 0x2748774c, 0x34b0bcb5, 0x391c0cb3, 0x4ed8aa4a, 0x5b9cca4f, 0x682e6ff3,
  0x748f82ee, 0x78a5636f, 0x84c87814, 0x8cc70208, 0x90befffa, 0xa4506ceb, 0xbef9a3f7, 0xc67178f2]

/-- The eight words that are carried from block to block. -/
structure State where
  a : UInt32
  b : UInt32
  c : UInt32
  d : UInt32
  e : UInt32
  f : UInt32
  g : UInt32
  h : UInt32

/-- The state before the first block. -/
def State.initial : State :=
  ⟨0x6a09e667, 0xbb67ae85, 0x3c6ef372, 0xa54ff53a, 0x510e527f, 0x9b05688c, 0x1f83d9ab, 0x5be0cd19⟩

/-- Word-wise sum of two states. -/
def State.add (s t : State) : State :=
  ⟨s.a + t.a, s.b + t.b, s.c + t.c, s.d + t.d, s.e + t.e, s.f + t.f, s.g + t.g, s.h + t.h⟩

/-- Rotation to the right. -/
def rotate (x : UInt32) (n : UInt32) : UInt32 :=
  (x >>> n) ||| (x <<< (32 - n))

/-- One round with a constant and a word of the schedule. -/
def round (s : State) (k w : UInt32) : State :=
  let big₁ := rotate s.e 6 ^^^ rotate s.e 11 ^^^ rotate s.e 25
  let choice := (s.e &&& s.f) ^^^ ((s.e ^^^ 0xffffffff) &&& s.g)
  let t₁ := s.h + big₁ + choice + k + w
  let big₀ := rotate s.a 2 ^^^ rotate s.a 13 ^^^ rotate s.a 22
  let majority := (s.a &&& s.b) ^^^ (s.a &&& s.c) ^^^ (s.b &&& s.c)
  ⟨t₁ + (big₀ + majority), s.a, s.b, s.c, s.d + t₁, s.e, s.f, s.g⟩

/-- The word of four octets, the most significant first. -/
def word (a b c d : UInt8) : UInt32 :=
  (a.toUInt32 <<< 24) ||| (b.toUInt32 <<< 16) ||| (c.toUInt32 <<< 8) ||| d.toUInt32

/-- The words of a row of octets; up to three octets at the end are dropped. -/
def words : Bytes → List UInt32
  | a :: b :: c :: d :: rest => word a b c d :: words rest
  | _ => []

/-- Extends the schedule by `n` words, each made of four earlier ones. -/
def extend : Nat → Array UInt32 → Array UInt32
  | 0, w => w
  | n + 1, w =>
    let i := w.size
    let x := w.getD (i - 15) 0
    let y := w.getD (i - 2) 0
    let small₀ := rotate x 7 ^^^ rotate x 18 ^^^ (x >>> 3)
    let small₁ := rotate y 17 ^^^ rotate y 19 ^^^ (y >>> 10)
    extend n (w.push (w.getD (i - 16) 0 + small₀ + w.getD (i - 7) 0 + small₁))

/-- Mixes a block of sixty-four octets into the state. -/
def mix (s : State) (block : Bytes) : State :=
  let schedule := extend 48 (words block).toArray
  let mixed := (constants.toList.zip schedule.toList).foldl (fun s (k, w) => round s k w) s
  s.add mixed

/-- The octets of a number of 64 bits, the most significant first. -/
def lengthOctets (n : Nat) : Bytes :=
  (List.range 8).map fun i => (n / Nat.pow 256 (7 - i)).toUInt8

/-- A message with a set bit, zeros and its length in bits after it, in whole blocks. -/
def pad (message : Bytes) : Bytes :=
  let n := message.length
  message ++ 0x80 :: (List.replicate ((119 - n % 64) % 64) 0 ++ lengthOctets (n * 8))

/-- Mixes the blocks of a padded message into the state, one after the other. -/
def mixAll : Nat → State → Bytes → State
  | 0, s, _ => s
  | n + 1, s, bs => mixAll n (mix s (bs.take 64)) (bs.drop 64)

/-- The four octets of a word. -/
def octets (x : UInt32) : Bytes :=
  [(x >>> 24).toUInt8, (x >>> 16).toUInt8, (x >>> 8).toUInt8, x.toUInt8]

/-- The thirty-two octets that stand for a message. -/
def hash (message : Bytes) : Bytes :=
  let padded := pad message
  let s := mixAll (padded.length / 64) .initial padded
  [s.a, s.b, s.c, s.d, s.e, s.f, s.g, s.h].flatMap octets

end Sha256

namespace Hmac

/-- A key as one block: hashed if it is longer, and filled up with zeros. -/
def block (key : Bytes) : Bytes :=
  let key := if 64 < key.length then Sha256.hash key else key
  key ++ List.replicate (64 - key.length) 0

/-- The thirty-two octets that stand for a message under a key. -/
def sha256 (key message : Bytes) : Bytes :=
  let key := block key
  let inner := Sha256.hash (key.map (· ^^^ 0x36) ++ message)
  Sha256.hash (key.map (· ^^^ 0x5c) ++ inner)

end Hmac

end Gateway
