/-
Rounding a double to an integer and to hundredths.

Every coordinate that leaves the library is a double rounded to two decimal
places, and `toHundredths` is the one place where that rounding is done.  It
multiplies by one hundred, rounds to the nearest integer with halves going away
from zero, and divides again, each step being the usual correctly rounded
operation on doubles.  A product too large for a double becomes infinite and
stays so.

The rounding to an integer is written on the unpacked form of a double, a sign
with a mantissa and a power of two, so that it is exact integer arithmetic with
nothing left to the machine.
-/

namespace AnimatedGlyph
namespace Number

open Float.Model (UnpackedFloat)

/-- The nearest integer to `m / 2 ^ k`, a half going up. -/
def roundHalfUp (m k : Nat) : Nat :=
  (2 * m + Nat.pow 2 k) / Nat.pow 2 (k + 1)

/-- The nearest integer to a double, as a double.  A half goes away from zero,
and the sign is kept, so that a small negative number becomes negative zero.  A
double with a non-negative power of two is an integer already. -/
def roundHalfAway (x : Float) : Float :=
  match x.toModel.unpack with
  | .finite sign m (.negSucc k) _ =>
    let n := Float.ofNat (roundHalfUp m (k + 1))
    match sign with
    | .positive => n
    | .negative => -n
  | _ => x

/-- The double rounded to two decimal places. -/
def toHundredths (x : Float) : Float :=
  roundHalfAway (x * 100.0) / 100.0

/-- The number of hundredths in a double, as a 64-bit integer.  What lies
outside the range of such integers goes to its nearer end, and a double that is
no number counts as none. -/
def hundredths (x : Float) : Int64 :=
  (roundHalfAway (x * 100.0)).toModel.toInt64

/-- A double that is a number: neither infinite nor the result of an undefined
operation. -/
structure FiniteFloat where
  /-- The double. -/
  val : Float
  /-- It is a number. -/
  finite : val.isFinite = true
  deriving DecidableEq

/-- The double as a finite one, if it is finite. -/
def FiniteFloat.ofFloat? (x : Float) : Option FiniteFloat :=
  if h : x.isFinite = true then some ⟨x, h⟩ else none

end Number
end AnimatedGlyph
