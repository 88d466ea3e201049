/-
The SHA-256 digest.

A message is padded with a one bit, zeros and its length in bits to whole blocks
of sixty-four bytes.  Each block is expanded to sixty-four words, and one round
per word mixes the eight words of the state; the mixed state is added to the
state before the block.  All words have 32 bits and wrap.
-/
import AnimatedGlyph.Bytes.Text
import AnimatedGlyph.Bytes.WordOrder

namespace AnimatedGlyph
namespace Digest

/-! ## The words of the standard -/

def roundConstants : List UInt32 :=
  [0x428a2f98, 0x71374491, 0xb5c0fbcf, 0xe9b5dba5, 0x3956c25b, 0x59f111f1, 0x923f82a4, 0xab1c5ed5,
   0xd807aa98, 0x12835b01, 0x243185be, 0x550c7dc3, 0x72be5d74, 0x80deb1fe, 0x9bdc06a7, 0xc19bf174,
   0xe49b69c1, 0xefbe4786, 0x0fc19dc6, 0x240ca1cc, 0x2de92c6f, 0x4a7484aa, 0x5cb0a9dc, 0x76f988da,
   0x983e5152, 0xa831c66d, 0xb00327c8, 0xbf597fc7, 0xc6e00bf3, 0xd5a79147, 0x06ca6351, 0x14292967,
   0x27b70a85, 0x2e1b2138, 0x4d2c6dfc, 0x53380d13, 0x650a7354, 0x766a0abb, 0x81c2c92e, 0x92722c85,
   0xa2bfe8a1, 0xa81a664b, 0xc24b8b70, 0xc76c51a3, 0xd192e819, 0xd6990624, 0xf40e3585, 0x106aa070,
   0x19a4c116, 0x1e376c08, 0x2748774c, 0x34b0bcb5, 0x391c0cb3, 0x4ed8aa4a, 0x5b9cca4f, 0x682e6ff3,
   0x748f82ee, 0x78a5636f, 0x84c87814, 0x8cc70208, 0x90befffa, 0xa4506ceb, 0xbef9a3f7, 0xc67178f2]

/-- The eight words that a digest carries from block to block. -/
structure State where
  /-- The first word. -/
  a : UInt32
  /-- The second word. -/
  b : UInt32
  /-- The third word. -/
  c : UInt32
  /-- The fourth word. -/
  d : UInt32
  /-- The fifth word. -/
  e : UInt32
  /-- The sixth word. -/
  f : UInt32
  /-- The seventh word. -/
  g : UInt32
  /-- The eighth word. -/
  h : UInt32
  deriving DecidableEq

/-- The state before the first block. -/
def State.start : State :=
  ⟨0x6a09e667, 0xbb67ae85, 0x3c6ef372, 0xa54ff53a, 0x510e527f, 0x9b05688c, 0x1f83d9ab, 0x5be0cd19⟩

/-- The sum of two states, word by word. -/
def State.add (s t : State) : State :=
  ⟨s.a + t.a, s.b + t.b, s.c + t.c, s.d + t.d, s.e + t.e, s.f + t.f, s.g + t.g, s.h + t.h⟩

def State.bytes (s : State) : List UInt8 :=
  [s.a, s.b, s.c, s.d, s.e, s.f, s.g, s.h].flatMap fun word => Bytes.bigEndian 4 word.toNat

/-! ## Rounds -/

/-- Turn the bits of a word to the right. -/
def turnRight (x : UInt32) (n : UInt32) : UInt32 :=
  (x >>> n) ||| (x <<< (32 - n))

/-- One round, with its constant and its word of the block. -/
def State.round (s : State) (constant word : UInt32) : State :=
  let mix := turnRight s.e 6 ^^^ turnRight s.e 11 ^^^ turnRight s.e 25
  let choice := (s.e &&& s.f) ^^^ (~~~s.e &&& s.g)
  let one := s.h + mix + choice + constant + word
  let mixA := turnRight s.a 2 ^^^ turnRight s.a 13 ^^^ turnRight s.a 22
  let majority := (s.a &&& s.b) ^^^ (s.a &&& s.c) ^^^ (s.b &&& s.c)
  ⟨one + (mixA + majority), s.a, s.b, s.c, s.d + one, s.e, s.f, s.g⟩

/-- The word that follows the words of a block so far. -/
def nextWord (words : Array UInt32) : UInt32 :=
  let back (n : Nat) := words.getD (words.size - n) 0
  let near := back 2
  let far := back 15
  (turnRight near 17 ^^^ turnRight near 19 ^^^ (near >>> 10)) + back 7 +
    (turnRight far 7 ^^^ turnRight far 18 ^^^ (far >>> 3)) + back 16

/-- Add `n` words to the words of a block. -/
def expand : Nat → Array UInt32 → Array UInt32
  | 0, words => words
  | n + 1, words => expand n (words.push (nextWord words))

/-- The sixty-four words of a block. -/
def blockWords (block : List UInt8) : List UInt32 :=
  let words := (Bytes.groups 4 block).map fun bs => UInt32.ofNat (Bytes.ofBigEndian bs)
  (expand 48 words.toArray).toList

/-- Mix a block into the state. -/
def State.absorb (s : State) (block : List UInt8) : State :=
  s.add ((roundConstants.zip (blockWords block)).foldl (fun t kw => t.round kw.1 kw.2) s)

/-! ## The digest -/

/-- What follows a message of `length` bytes: a one bit, zeros, and the length in
bits as a word of eight bytes. -/
def padding (length : Nat) : List UInt8 :=
  0x80 :: List.replicate ((119 - length % 64) % 64) 0 ++ Bytes.bigEndian 8 (8 * length)

/-- The digest of a message. -/
def sha256 (message : List UInt8) : List UInt8 :=
  let blocks := Bytes.groups 64 (message ++ padding message.length)
  (blocks.foldl State.absorb State.start).bytes

/-- The digest of a message in hexadecimal. -/
def sha256Hex (message : List UInt8) : String :=
  Bytes.hex (sha256 message)

/-- A padded message is a whole number of blocks. -/
theorem length_padding (length : Nat) : (length + (padding length).length) % 64 = 0 := by
  have hb : (Bytes.bigEndian 8 (8 * length)).length = 8 := by
    rw [Bytes.bigEndian, List.length_reverse, Bytes.length_littleEndian]
  simp only [padding, List.length_append, List.length_cons, List.length_replicate, hb]
  omega

end Digest
end AnimatedGlyph
