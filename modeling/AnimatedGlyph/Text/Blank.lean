/-
Classes of characters, white space, and trimming.

The properties of characters that the library needs are sets of up to a few hundred
ranges, too many for a pattern match.  A `RangeTable` lists the ranges, and
`RangeTable.contains` asks whether a character lies in one of them.

A character is blank when it has the Unicode property White_Space.  The set is
larger than the ASCII blanks: it holds the no-break spaces, the spaces of fixed
width and the line and paragraph separators.  `trim` removes the blanks at both
ends of a text.
-/

namespace AnimatedGlyph
namespace Text

/-! ## Ranges -/

/-- Ranges of code points, both ends included. -/
abbrev RangeTable := List (Nat × Nat)

/-- Whether the character lies in one of the ranges. -/
def RangeTable.contains (table : RangeTable) (c : Char) : Bool :=
  table.any fun range => range.1 ≤ c.toNat && c.toNat ≤ range.2

/-! ## Blanks -/

/-- The ranges of the property White_Space. -/
def blankRanges : RangeTable :=
  [(0x09, 0x0d), (0x20, 0x20), (0x85, 0x85), (0xa0, 0xa0), (0x1680, 0x1680), (0x2000, 0x200a),
   (0x2028, 0x2029), (0x202f, 0x202f), (0x205f, 0x205f), (0x3000, 0x3000)]

/-- Whether the character is white space. -/
def isBlank (c : Char) : Bool :=
  blankRanges.contains c

/-- Every blank of core's ASCII class is blank here. -/
theorem isBlank_of_isWhitespace {c : Char} (h : c.isWhitespace = true) : isBlank c = true := by
  simp only [Char.isWhitespace, Bool.or_eq_true, decide_eq_true_eq] at h
  rcases h with ((rfl | rfl) | rfl) | rfl <;> rfl

/-- The characters from the first that is not blank on. -/
def trimStart (cs : List Char) : List Char :=
  cs.dropWhile isBlank

/-- The characters up to the last that is not blank. -/
def trimEnd (cs : List Char) : List Char :=
  (cs.reverse.dropWhile isBlank).reverse

/-- The characters between the blanks at the two ends. -/
def trimChars (cs : List Char) : List Char :=
  trimEnd (trimStart cs)

/-- The text without the blanks at its two ends. -/
def trim (s : String) : String :=
  String.ofList (trimChars s.toList)

end Text
end AnimatedGlyph
