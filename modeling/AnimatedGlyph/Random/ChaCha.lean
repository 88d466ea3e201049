/-
The random source of a seed.

The words of a seeded source are the key stream of the ChaCha cipher with eight
rounds.  The key is stretched from a 64-bit seed by a linear congruential
generator whose output is permuted, the block counter starts at zero, and the
nonce is zero.  Two 32-bit words of the key stream make one 64-bit word, the low
half first.

The stream is written as a function of the place in it, so that the source needs
no buffer: a block is computed whenever one of its words is asked for.
-/
import AnimatedGlyph.Random.Source

namespace AnimatedGlyph
namespace ChaCha

/-! ## Blocks -/

/-- The sixteen words of a block. -/
abbrev Block := Vector UInt32 16

/-- Turn the bits of a word to the left. -/
def turnLeft (x : UInt32) (n : UInt32) : UInt32 :=
  (x <<< n) ||| (x >>> (32 - n))

/-- Mix four words of a block. -/
def quarterRound (a b c d : Fin 16) (s : Block) : Block :=
  let s := s.set a (s[a] + s[b])
  let s := s.set d (turnLeft (s[d] ^^^ s[a]) 16)
  let s := s.set c (s[c] + s[d])
  let s := s.set b (turnLeft (s[b] ^^^ s[c]) 12)
  let s := s.set a (s[a] + s[b])
  let s := s.set d (turnLeft (s[d] ^^^ s[a]) 8)
  let s := s.set c (s[c] + s[d])
  s.set b (turnLeft (s[b] ^^^ s[c]) 7)

/-- A round over the columns and one over the diagonals. -/
def doubleRound (s : Block) : Block :=
  let s := quarterRound 0 4 8 12 s
  let s := quarterRound 1 5 9 13 s
  let s := quarterRound 2 6 10 14 s
  let s := quarterRound 3 7 11 15 s
  let s := quarterRound 0 5 10 15 s
  let s := quarterRound 1 6 11 12 s
  let s := quarterRound 2 7 8 13 s
  quarterRound 3 4 9 14 s

/-- The block of a key at a place of the stream. -/
def block (key : Vector UInt32 8) (counter : Nat) : Block :=
  let start : Block :=
    #v[0x61707865, 0x3320646e, 0x79622d32, 0x6b206574,
       key[0], key[1], key[2], key[3], key[4], key[5], key[6], key[7],
       UInt32.ofNat counter, UInt32.ofNat (counter / UInt32.size), 0, 0]
  let mixed := doubleRound (doubleRound (doubleRound (doubleRound start)))
  mixed.zipWith (fun x y => x + y) start

/-- The word of 64 bits at a place of the stream. -/
def streamWord (key : Vector UInt32 8) (place : Nat) : UInt64 :=
  let words := block key (place / 8)
  let low := words.toArray.getD (2 * (place % 8)) 0
  let high := words.toArray.getD (2 * (place % 8) + 1) 0
  low.toUInt64 ||| (high.toUInt64 <<< 32)

/-! ## Seeds -/

/-- The generator that stretches a seed, one step further. -/
def seedStep (s : UInt64) : UInt64 :=
  s * 6364136223846793005 + 11634580027462260723

/-- The word that the generator yields in a state. -/
def seedWord (s : UInt64) : UInt32 :=
  let x := (((s >>> 18) ^^^ s) >>> 27).toUInt32
  let n := (s >>> 59).toUInt32
  (x >>> n) ||| (x <<< (32 - n))

/-- The state of the generator after a number of steps. -/
def seedState (seed : UInt64) : Nat → UInt64
  | 0 => seed
  | n + 1 => seedStep (seedState seed n)

def keyOfSeed (seed : UInt64) : Vector UInt32 8 :=
  Vector.ofFn fun i => seedWord (seedState seed (i + 1))

end ChaCha

def RandomSource.ofSeed (seed : UInt64) : RandomSource :=
  let key := ChaCha.keyOfSeed seed
  RandomSource.ofSequence (ChaCha.streamWord key)

end AnimatedGlyph
