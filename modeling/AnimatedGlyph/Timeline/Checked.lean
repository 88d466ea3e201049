/-
Arithmetic that notices when a result does not fit.

Frames are words of 32 bits and the sums and products of a schedule are words of 64.
The operations here have no result where the exact one is not a word, and what asked
for it stops there, as the conversion of a document does when the frame after a stroke
is no word.

A schedule is counted in natural numbers, which lose nothing.  `schedule?` counts it in
words, with these operations alone: where it has a result, words are enough.
-/
import AnimatedGlyph.Timeline.Window

namespace AnimatedGlyph

/-- A result, or none if a number on the way to it does not fit in its word. -/
abbrev Checked (α : Type) : Type := Option α

namespace Checked

/-! ## Operations on words -/

/-- The sum of two words of 64 bits. -/
def add64 (a b : UInt64) : Checked UInt64 :=
  if a.toNat + b.toNat < UInt64.size then some (a + b) else none

/-- The product of two words of 64 bits. -/
def mul64 (a b : UInt64) : Checked UInt64 :=
  if a.toNat * b.toNat < UInt64.size then some (a * b) else none

/-- The sum of two words of 32 bits. -/
def add32 (a b : UInt32) : Checked UInt32 :=
  if a.toNat + b.toNat < UInt32.size then some (a + b) else none

/-- A word of 64 bits as one of 32. -/
def narrow (a : UInt64) : Checked UInt32 :=
  if a.toNat < UInt32.size then some a.toUInt32 else none

/-! ## Schedules -/

def window? (words total i : UInt64) : Checked FrameWindow := do
  let start := (← mul64 i total) / words
  let next := (← mul64 (← add64 i 1) total) / words
  let least ← add64 start 1
  return ⟨← narrow start, ← narrow (min (max next least) total)⟩

/-- The windows of a line with so many words. -/
def schedule? (words : Nat) (total : UInt32) : Checked (List FrameWindow) :=
  (List.range words).mapM fun i =>
    window? (UInt64.ofNat words) total.toUInt64 (UInt64.ofNat i)

end Checked
end AnimatedGlyph
