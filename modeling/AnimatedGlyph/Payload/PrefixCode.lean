/-
Prefix codes.

A canonical prefix code is given by the length of the code word of each symbol, a
length of zero meaning that the symbol is not used.  Words of one length are
consecutive numbers in the order of the symbols, and they come after all shorter
words.  So a word is recognised from the number of words of each length alone.

A code must leave no word unused.  Only two codes may do so: the one without symbols, and
the one whose single symbol has a word of one bit.
-/
import AnimatedGlyph.Payload.BitSource

namespace AnimatedGlyph
namespace Payload

/-- The length of the longest word. -/
def longestWord : Nat := 15

/-- A canonical prefix code. -/
structure PrefixCode where
  /-- The number of words of length one, two, and so on. -/
  counts : List Nat
  /-- The symbols in the order of their words. -/
  symbols : Array Nat

namespace PrefixCode

/-- The symbols with words of a given length. -/
def symbolsOfLength (lengths : List Nat) (length : Nat) : List Nat :=
  (lengths.zipIdx.filter fun entry => entry.1 == length).map Prod.snd

/-- The code with given lengths of words. -/
def ofLengths (lengths : List Nat) : PrefixCode :=
  let groups := (List.range longestWord).map fun i => symbolsOfLength lengths (i + 1)
  ⟨groups.map List.length, groups.flatten.toArray⟩

/-- How many of the longest words the words of the code take up. -/
def weightFrom : Nat → List Nat → Nat
  | _, [] => 0
  | room, count :: longer => count * (room / 2) + weightFrom (room / 2) longer

/-- Whether no word is left unused. -/
def isComplete (code : PrefixCode) : Bool :=
  weightFrom (Nat.pow 2 longestWord) code.counts == Nat.pow 2 longestWord

def complete? (lengths : List Nat) : Option PrefixCode :=
  let code := ofLengths lengths
  if code.isComplete then some code else none

/-- Whether the code has at most one symbol, with a word of one bit. -/
def isMeagre (code : PrefixCode) : Bool :=
  code.symbols.size ≤ 1 && code.counts.head? == some code.symbols.size

/-- The code with given lengths, if it may be used. -/
def ofLengths? (lengths : List Nat) : Option PrefixCode :=
  let code := ofLengths lengths
  if code.isComplete || code.isMeagre then some code else none

/-- Read on in a word.  `word` is what has been read, `first` the first word of its
length, and `index` the number of symbols with shorter words, each before the next
bit. -/
def readFrom (symbols : Array Nat) :
    List Nat → Nat → Nat → Nat → BitSource → Option (Nat × BitSource)
  | [], _, _, _, _ => none
  | count :: longer, word, first, index, source => do
    let (bit, source) ← source.next?
    let word := 2 * word + bit.toNat
    let first := 2 * first
    if word < first + count then
      let symbol ← symbols[index + (word - first)]?
      return (symbol, source)
    else readFrom symbols longer word (first + count) (index + count) source

/-- Read a symbol. -/
def read? (code : PrefixCode) (source : BitSource) : Option (Nat × BitSource) :=
  readFrom code.symbols code.counts 0 0 0 source

end PrefixCode
end Payload
end AnimatedGlyph
