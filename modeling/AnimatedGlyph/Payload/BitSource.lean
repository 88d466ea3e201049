/-
Reading bits from bytes.

The bits of a byte come lowest first.  A source keeps the bits that are left of the
byte it has begun apart from the bytes that it has not touched, so that a run of
whole bytes can be taken once the begun byte is dropped.
-/

namespace AnimatedGlyph
namespace Payload

/-- Bits that have not been read yet. -/
structure BitSource where
  /-- The bits that are left of the byte that was begun. -/
  begun : List Bool
  /-- The bytes after it. -/
  bytes : List UInt8

/-- The bits of a byte, lowest first. -/
def bitsOf (b : UInt8) : List Bool :=
  (List.range 8).map fun i => b.toNat.testBit i

namespace BitSource

def ofBytes (bytes : List UInt8) : BitSource := ⟨[], bytes⟩

/-- The number of bits that are left. -/
def size (source : BitSource) : Nat :=
  source.begun.length + 8 * source.bytes.length

def next? (source : BitSource) : Option (Bool × BitSource) :=
  match source.begun, source.bytes with
  | bit :: begun, bytes => some (bit, ⟨begun, bytes⟩)
  | [], b :: bytes =>
    match bitsOf b with
    | bit :: begun => some (bit, ⟨begun, bytes⟩)
    | [] => none
  | [], [] => none

/-- The number that the next `n` bits make, the first being the lowest. -/
def number? : Nat → BitSource → Option (Nat × BitSource)
  | 0, source => some (0, source)
  | n + 1, source => do
    let (bit, source) ← source.next?
    let (higher, source) ← number? n source
    return (bit.toNat + 2 * higher, source)

/-- The bytes after the one that was begun. -/
def wholeBytes (source : BitSource) : List UInt8 :=
  source.bytes

end BitSource
end Payload
end AnimatedGlyph
