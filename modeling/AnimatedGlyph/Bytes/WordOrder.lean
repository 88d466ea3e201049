/-
Words as bytes, in both orders.

Digests are big-endian and archives are little-endian.  `bigEndian` and
`littleEndian` write a natural number in a given number of bytes and drop what
does not fit; `ofBigEndian` and `ofLittleEndian` read any number of bytes back.
-/

namespace AnimatedGlyph
namespace Bytes

/-- The number in `width` bytes, the least significant first. -/
def littleEndian : Nat → Nat → List UInt8
  | 0, _ => []
  | width + 1, n => UInt8.ofNat n :: littleEndian width (n / 256)

/-- The number in `width` bytes, the most significant first. -/
def bigEndian (width n : Nat) : List UInt8 :=
  (littleEndian width n).reverse

/-- The number whose bytes these are, the least significant first. -/
def ofLittleEndian : List UInt8 → Nat
  | [] => 0
  | b :: rest => b.toNat + 256 * ofLittleEndian rest

/-- The number whose bytes these are, the most significant first. -/
def ofBigEndian (bs : List UInt8) : Nat :=
  bs.foldl (fun n b => 256 * n + b.toNat) 0

/-- The width is the number of bytes. -/
theorem length_littleEndian (width n : Nat) : (littleEndian width n).length = width := by
  induction width generalizing n with
  | zero => rfl
  | succ width ih => simp [littleEndian, ih]

/-- A number that fits reads back. -/
theorem ofLittleEndian_littleEndian (width n : Nat) (h : n < Nat.pow 256 width) :
    ofLittleEndian (littleEndian width n) = n := by
  induction width generalizing n with
  | zero =>
    have hone : Nat.pow 256 0 = 1 := rfl
    have hn : n = 0 := by omega
    rw [hn]
    rfl
  | succ width ih =>
    have hsucc : Nat.pow 256 (width + 1) = Nat.pow 256 width * 256 := rfl
    have hq : n / 256 < Nat.pow 256 width := by omega
    have hb : (UInt8.ofNat n).toNat = n % 256 := rfl
    rw [littleEndian, ofLittleEndian, ih (n / 256) hq, hb]
    omega

/-- Cut bytes into groups of `size`, the last of which may be shorter. -/
def groups (size : Nat) (bs : List UInt8) : List (List UInt8) :=
  match bs with
  | [] => []
  | b :: rest => (b :: rest.take (size - 1)) :: groups size (rest.drop (size - 1))
termination_by bs.length
decreasing_by simp only [List.length_cons, List.length_drop]; omega

end Bytes
end AnimatedGlyph
