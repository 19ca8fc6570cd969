import Weaver.Bytes

/-!
# SHA-256

The digest that names the content of a module. A message is padded to whole blocks of sixty-four
bytes; each block is expanded to sixty-four words, which are mixed one after the other into a chain
of eight words. The digest is the chain after the last block, highest byte first.
-/

namespace Weaver.Digest

/-! ## Padding -/

/-- The least number of zero bytes after which the marker byte, the zeros and the eight bytes of the
length complete a block. -/
def padZeros (length : Nat) : Nat :=
  (119 - length % 64) % 64

/-- Marks the end of the message with `0x80` and ends the last block with the length in bits,
highest byte first. -/
def pad (message : List UInt8) : List UInt8 :=
  message ++ [0x80] ++ List.replicate (padZeros message.length) 0
    ++ (Bytes.ofNat 8 (8 * message.length)).reverse

/-- Padding completes the last block. -/
theorem length_pad_mod (message : List UInt8) : (pad message).length % 64 = 0 := by
  simp only [pad, padZeros, List.length_append, List.length_replicate, List.length_reverse,
    Bytes.length_ofNat, List.length_cons, List.length_nil]
  omega

/-! ## Message schedule -/

/-- A word turned right by `n` places. -/
def rotateRight (x : UInt32) (n : UInt32) : UInt32 :=
  (x >>> n) ||| (x <<< (32 - n))

/-- The words of a block, four bytes each, highest byte first. -/
def words : (count : Nat) → List UInt8 → List UInt32
  | 0, _ => []
  | count + 1, bytes => (Bytes.toNat (bytes.take 4).reverse).toUInt32 :: words count (bytes.drop 4)

/-- One further word of the schedule, from the words two, seven, fifteen and sixteen places back. -/
def scheduleStep (w : Array UInt32) : Array UInt32 :=
  let t := w.size
  let w2 := w.getD (t - 2) 0
  let w15 := w.getD (t - 15) 0
  let s0 := rotateRight w15 7 ^^^ rotateRight w15 18 ^^^ (w15 >>> 3)
  let s1 := rotateRight w2 17 ^^^ rotateRight w2 19 ^^^ (w2 >>> 10)
  w.push (s1 + w.getD (t - 7) 0 + s0 + w.getD (t - 16) 0)

/-- The schedule after `count` further words. -/
def extend : (count : Nat) → Array UInt32 → Array UInt32
  | 0, w => w
  | count + 1, w => extend count (scheduleStep w)

/-- The sixty-four words that a block puts into the rounds. -/
def schedule (block : List UInt8) : List UInt32 :=
  (extend 48 (words 16 block).toArray).toList

/-! ## Rounds -/

/-- The eight words that are carried from block to block. -/
structure Chain where
  (a b c d e f g h : UInt32)
deriving DecidableEq

/-- The chain before the first block: the fractional parts of the square roots of the first eight
primes. -/
def Chain.start : Chain :=
  ⟨0x6a09e667, 0xbb67ae85, 0x3c6ef372, 0xa54ff53a, 0x510e527f, 0x9b05688c, 0x1f83d9ab, 0x5be0cd19⟩

/-- The round constants: the fractional parts of the cube roots of the first sixty-four primes. -/
def roundConstants : List UInt32 :=
  [0x428a2f98, 0x71374491, 0xb5c0fbcf, 0xe9b5dba5, 0x3956c25b, 0x59f111f1, 0x923f82a4, 0xab1c5ed5,
   0xd807aa98, 0x12835b01, 0x243185be, 0x550c7dc3, 0x72be5d74, 0x80deb1fe, 0x9bdc06a7, 0xc19bf174,
   0xe49b69c1, 0xefbe4786, 0x0fc19dc6, 0x240ca1cc, 0x2de92c6f, 0x4a7484aa, 0x5cb0a9dc, 0x76f988da,
   0x983e5152, 0xa831c66d, 0xb00327c8, 0xbf597fc7, 0xc6e00bf3, 0xd5a79147, 0x06ca6351, 0x14292967,
   0x27b70a85, 0x2e1b2138, 0x4d2c6dfc, 0x53380d13, 0x650a7354, 0x766a0abb, 0x81c2c92e, 0x92722c85,
   0xa2bfe8a1, 0xa81a664b, 0xc24b8b70, 0xc76c51a3, 0xd192e819, 0xd6990624, 0xf40e3585, 0x106aa070,
   0x19a4c116, 0x1e376c08, 0x2748774c, 0x34b0bcb5, 0x391c0cb3, 0x4ed8aa4a, 0x5b9cca4f, 0x682e6ff3,
   0x748f82ee, 0x78a5636f, 0x84c87814, 0x8cc70208, 0x90befffa, 0xa4506ceb, 0xbef9a3f7, 0xc67178f2]

/-- One round mixes a constant and a word of the schedule into the chain. -/
def Chain.round (s : Chain) (constant word : UInt32) : Chain :=
  let choice := (s.e &&& s.f) ^^^ (~~~s.e &&& s.g)
  let majority := (s.a &&& s.b) ^^^ (s.a &&& s.c) ^^^ (s.b &&& s.c)
  let sum0 := rotateRight s.a 2 ^^^ rotateRight s.a 13 ^^^ rotateRight s.a 22
  let sum1 := rotateRight s.e 6 ^^^ rotateRight s.e 11 ^^^ rotateRight s.e 25
  let t1 := s.h + sum1 + choice + constant + word
  ⟨t1 + (sum0 + majority), s.a, s.b, s.c, s.d + t1, s.e, s.f, s.g⟩

/-- Word-wise sum of two chains. -/
def Chain.add (s t : Chain) : Chain :=
  ⟨s.a + t.a, s.b + t.b, s.c + t.c, s.d + t.d, s.e + t.e, s.f + t.f, s.g + t.g, s.h + t.h⟩

/-- The chain after one block. -/
def Chain.compress (s : Chain) (block : List UInt8) : Chain :=
  s.add ((roundConstants.zip (schedule block)).foldl (fun t (k, w) => t.round k w) s)

/-- The chain after `count` blocks. -/
def Chain.absorb : (count : Nat) → Chain → List UInt8 → Chain
  | 0, s, _ => s
  | count + 1, s, bytes => Chain.absorb count (s.compress (bytes.take 64)) (bytes.drop 64)

/-- The thirty-two bytes of a chain, highest byte of each word first. -/
def Chain.bytes (s : Chain) : List UInt8 :=
  [s.a, s.b, s.c, s.d, s.e, s.f, s.g, s.h].flatMap fun w => (Bytes.ofNat 4 w.toNat).reverse

/-! ## Digest -/

/-- The SHA-256 digest of a message. -/
def sha256 (message : List UInt8) : List UInt8 :=
  let padded := pad message
  (Chain.start.absorb (padded.length / 64) padded).bytes

/-- Every digest has thirty-two bytes. -/
@[simp] theorem length_sha256 (message : List UInt8) : (sha256 message).length = 32 := by
  simp [sha256, Chain.bytes]

end Weaver.Digest
