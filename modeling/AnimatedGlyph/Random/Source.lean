/-
Sources of random words.

A source is an endless sequence of 64-bit words together with the number of words
taken from it so far.  Taking a word returns it with the source one step further,
so that every consumer passes the source on and what has been drawn is always
visible in a statement.
-/

namespace AnimatedGlyph

/-- An endless sequence of words and how many of them have been taken. -/
structure RandomSource where
  /-- The word at each place of the sequence. -/
  word : Nat → UInt64
  /-- The number of words taken. -/
  taken : Nat

namespace RandomSource

/-- The source from its beginning. -/
def ofSequence (word : Nat → UInt64) : RandomSource :=
  ⟨word, 0⟩

/-- The source after `n` more words. -/
def skip (source : RandomSource) (n : Nat) : RandomSource :=
  ⟨source.word, source.taken + n⟩

/-- The next word. -/
def next (source : RandomSource) : UInt64 × RandomSource :=
  (source.word source.taken, source.skip 1)

/-- The next word as a number from zero up to, and not including, one.  It has the
word's highest 53 bits, as many as a double holds. -/
def nextUnit (source : RandomSource) : Float × RandomSource :=
  let (word, rest) := source.next
  ((word >>> 11).toFloat / 9007199254740992.0, rest)

end RandomSource
end AnimatedGlyph
