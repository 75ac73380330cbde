/-!
# The SHA-256 digest

The digest of a byte list, computed on 32-bit words. A message is padded to blocks of sixteen
words, each block is stretched to sixty-four words, and one round per word mixes them into the
state of eight words that the next block starts from.
-/
namespace Multilevel.Digest

/-- The eight words that a block is mixed into. -/
structure State where
  a : UInt32
  b : UInt32
  c : UInt32
  d : UInt32
  e : UInt32
  f : UInt32
  g : UInt32
  h : UInt32
  deriving Repr, DecidableEq

/-- The state before the first block: fractional bits of the square roots of the first primes. -/
def State.initial : State :=
  ⟨0x6a09e667, 0xbb67ae85, 0x3c6ef372, 0xa54ff53a,
    0x510e527f, 0x9b05688c, 0x1f83d9ab, 0x5be0cd19⟩

/-- One constant per round: fractional bits of the cube roots of the first sixty-four primes. -/
def roundConstants : List UInt32 := [
  0x428a2f98, 0x71374491, 0xb5c0fbcf, 0xe9b5dba5, 0x3956c25b, 0x59f111f1,
  0x923f82a4, 0xab1c5ed5, 0xd807aa98, 0x12835b01, 0x243185be, 0x550c7dc3,
  0x72be5d74, 0x80deb1fe, 0x9bdc06a7, 0xc19bf174, 0xe49b69c1, 0xefbe4786,
  0x0fc19dc6, 0x240ca1cc, 0x2de92c6f, 0x4a7484aa, 0x5cb0a9dc, 0x76f988da,
  0x983e5152, 0xa831c66d, 0xb00327c8, 0xbf597fc7, 0xc6e00bf3, 0xd5a79147,
  0x06ca6351, 0x14292967, 0x27b70a85, 0x2e1b2138, 0x4d2c6dfc, 0x53380d13,
  0x650a7354, 0x766a0abb, 0x81c2c92e, 0x92722c85, 0xa2bfe8a1, 0xa81a664b,
  0xc24b8b70, 0xc76c51a3, 0xd192e819, 0xd6990624, 0xf40e3585, 0x106aa070,
  0x19a4c116, 0x1e376c08, 0x2748774c, 0x34b0bcb5, 0x391c0cb3, 0x4ed8aa4a,
  0x5b9cca4f, 0x682e6ff3, 0x748f82ee, 0x78a5636f, 0x84c87814, 0x8cc70208,
  0x90befffa, 0xa4506ceb, 0xbef9a3f7, 0xc67178f2]

/-- A word turned to the right. -/
def rotate (x : UInt32) (count : UInt32) : UInt32 := (x >>> count) ||| (x <<< (32 - count))

/-- One round: the state after mixing in a constant and a word of the stretched block. -/
def State.step (s : State) (constant word : UInt32) : State :=
  let sumE := rotate s.e 6 ^^^ rotate s.e 11 ^^^ rotate s.e 25
  let choice := (s.e &&& s.f) ^^^ ((s.e ^^^ 0xffffffff) &&& s.g)
  let first := s.h + sumE + choice + constant + word
  let sumA := rotate s.a 2 ^^^ rotate s.a 13 ^^^ rotate s.a 22
  let majority := (s.a &&& s.b) ^^^ (s.a &&& s.c) ^^^ (s.b &&& s.c)
  ⟨first + (sumA + majority), s.a, s.b, s.c, s.d + first, s.e, s.f, s.g⟩

/-- The sum of two states, word by word. -/
def State.add (s t : State) : State :=
  ⟨s.a + t.a, s.b + t.b, s.c + t.c, s.d + t.d, s.e + t.e, s.f + t.f, s.g + t.g, s.h + t.h⟩

/-- The next word of a stretched block, from the sixteen words before it, the latest first. -/
def nextWord : List UInt32 → UInt32
  | [_, w2, _, _, _, _, w7, _, _, _, _, _, _, _, w15, w16] =>
    let low := rotate w15 7 ^^^ rotate w15 18 ^^^ (w15 >>> 3)
    let high := rotate w2 17 ^^^ rotate w2 19 ^^^ (w2 >>> 10)
    w16 + low + w7 + high
  | _ => 0

/-- Adds words to a stretched block, which is held latest word first. -/
def stretch : Nat → List UInt32 → List UInt32
  | 0, words => words
  | count + 1, words => stretch count (nextWord (words.take 16) :: words)

/-- Mixes a block of sixteen words into a state. -/
def State.mix (s : State) (block : List UInt32) : State :=
  let words := (stretch 48 block.reverse).reverse
  s.add ((roundConstants.zip words).foldl (fun state (constant, word) => state.step constant word) s)

/-- A number as bytes, the highest first. -/
def bigEndian : Nat → Nat → List UInt8
  | 0, _ => []
  | count + 1, n => bigEndian count (n / 256) ++ [UInt8.ofNat (n % 256)]

/-- A message with its padding: a one bit, zeros up to a block less eight bytes, and the count of
the message's bits in those. -/
def pad (message : List UInt8) : List UInt8 :=
  let zeros := (119 - message.length % 64) % 64
  message ++ 0x80 :: List.replicate zeros 0 ++ bigEndian 8 (8 * message.length)

/-- The words that bytes spell, the highest byte first. -/
def words : List UInt8 → List UInt32
  | p :: q :: r :: s :: rest =>
    ((p.toUInt32 <<< 24) ||| (q.toUInt32 <<< 16) ||| (r.toUInt32 <<< 8) ||| s.toUInt32)
      :: words rest
  | _ => []

/-- The blocks of sixteen words of a padded message. -/
def blocks : Nat → List UInt32 → List (List UInt32)
  | 0, _ => []
  | count + 1, all => all.take 16 :: blocks count (all.drop 16)

/-- The state after all blocks of a message. -/
def State.ofMessage (message : List UInt8) : State :=
  let all := words (pad message)
  (blocks (all.length / 16) all).foldl State.mix State.initial

/-- A word in eight hexadecimal digits. -/
def wordText (word : UInt32) : String :=
  let digits := Nat.toDigits 16 word.toNat
  "".pushn '0' (8 - digits.length) ++ String.ofList digits

/-- The digest of a message in hexadecimal digits. -/
def sha256 (message : List UInt8) : String :=
  let s := State.ofMessage message
  String.join ([s.a, s.b, s.c, s.d, s.e, s.f, s.g, s.h].map wordText)

end Multilevel.Digest
