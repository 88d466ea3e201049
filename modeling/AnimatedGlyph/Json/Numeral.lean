/-
Reading the numerals of a JSON text.

A numeral is split into its sign, its digits before and after the point, and its
exponent.  An integer that fits the integer types of a number stays one.  All
else becomes a double by a fixed rule: as many leading digits as fit in 64 bits
make an integer, the integer is converted to a double, and that double is
multiplied or divided by one power of ten.  The rule rounds at each of these
steps, so it does not always give the double nearest to the numeral.
-/
import AnimatedGlyph.Json.Draft

namespace AnimatedGlyph
namespace Json

/-! ## The parts of a numeral -/

/-- The parts of a numeral, with digits as bytes of the text. -/
structure Numeral where
  /-- Whether a minus sign stands in front. -/
  isNegative : Bool
  /-- The digits before the point. -/
  whole : List UInt8
  /-- The digits after the point, if there is one. -/
  fraction : Option (List UInt8)
  /-- Whether the exponent has a minus sign, and its digits. -/
  exponent : Option (Bool × List UInt8)

/-- A fault met by a reader that wants the number, and by one that passes over
it. -/
structure LeafFault where
  /-- What reading meets. -/
  wanted : Fault
  /-- What passing over meets. -/
  passed : Fault

/-- The same fault either way. -/
def LeafFault.both (fault : Fault) : LeafFault :=
  ⟨fault, fault⟩

/-- A digit is missing in front of the rest of the text.  Only a reader that wants
the number tells the end of the text apart. -/
def LeafFault.noDigit (rest : List UInt8) : LeafFault :=
  ⟨if rest.isEmpty then .truncated else .malformed, .malformed⟩

/-- Whether the byte is a digit. -/
def isDigit (b : UInt8) : Bool :=
  48 ≤ b && b ≤ 57

/-- The digits before the point: a lone zero, or digits that do not start with
one. -/
def scanWhole (bs : List UInt8) : Except LeafFault (List UInt8 × List UInt8) :=
  match bs with
  | [] => .error (.noDigit [])
  | b :: rest =>
    if b = 48 then
      if (rest.takeWhile isDigit).isEmpty then .ok ([b], rest) else .error (.both .malformed)
    else if isDigit b then
      .ok (b :: rest.takeWhile isDigit, rest.dropWhile isDigit)
    else .error (.both .malformed)

/-- One digit or more. -/
def scanDigits (bs : List UInt8) : Except LeafFault (List UInt8 × List UInt8) :=
  let digits := bs.takeWhile isDigit
  if digits.isEmpty then .error (.noDigit bs) else .ok (digits, bs.dropWhile isDigit)

/-- The point and the digits after it, if there is a point. -/
def scanFraction (bs : List UInt8) : Except LeafFault (Option (List UInt8) × List UInt8) :=
  match bs with
  | [] => .ok (none, [])
  | b :: rest =>
    if b = 46 then do
      let (digits, rest) ← scanDigits rest
      return (some digits, rest)
    else .ok (none, bs)

/-- The sign of an exponent and what follows it. -/
def scanExponentSign (bs : List UInt8) : Bool × List UInt8 :=
  match bs with
  | [] => (false, [])
  | b :: rest => if b = 45 then (true, rest) else if b = 43 then (false, rest) else (false, bs)

def scanExponent (bs : List UInt8) :
    Except LeafFault (Option (Bool × List UInt8) × List UInt8) :=
  match bs with
  | [] => .ok (none, [])
  | b :: rest =>
    if b = 101 ∨ b = 69 then do
      let (falling, rest) := scanExponentSign rest
      let (digits, rest) ← scanDigits rest
      return (some (falling, digits), rest)
    else .ok (none, bs)

/-- A numeral without its sign. -/
def scanUnsigned (isNegative : Bool) (bs : List UInt8) :
    Except LeafFault (Numeral × List UInt8) := do
  let (whole, rest) ← scanWhole bs
  let (fraction, rest) ← scanFraction rest
  let (exponent, rest) ← scanExponent rest
  return (⟨isNegative, whole, fraction, exponent⟩, rest)

def scanNumeral (bs : List UInt8) : Except LeafFault (Numeral × List UInt8) :=
  match bs with
  | [] => scanUnsigned false []
  | b :: rest => if b = 45 then scanUnsigned true rest else scanUnsigned false bs

/-! ## The number of a numeral -/

/-- Append digits to an integer while it stays below `2 ^ 64`.  The second number
counts the digits that found no room. -/
def takeDigits (n : Nat) : List UInt8 → Nat × Nat
  | [] => (n, 0)
  | d :: rest =>
    let longer := 10 * n + (d.toNat - 48)
    if longer < UInt64.size then takeDigits longer rest else (n, rest.length + 1)

/-- The number that digits stand for. -/
def digitsValue (digits : List UInt8) : Nat :=
  digits.foldl (fun n d => 10 * n + (d.toNat - 48)) 0

/-- The double nearest to a power of ten. -/
def powerOfTen (k : Nat) : Float :=
  Float.ofScientific 1 false k

/-- The greatest exponent with a power of ten among the doubles. -/
def greatestPower : Nat := 308

/-- Divide by ten `k` times, in steps of the greatest power. -/
def divideByPower (x : Float) (k : Nat) : Float :=
  if k ≤ greatestPower then x / powerOfTen k
  else if x == 0.0 then x
  else divideByPower (x / powerOfTen greatestPower) (k - greatestPower)
termination_by k
decreasing_by simp only [greatestPower] at *; omega

/-- The double `significand * 10 ^ exponent`, unless it is too large. -/
def scaleByPower (significand : Nat) (exponent : Int) : Option Float :=
  let x := (UInt64.ofNat significand).toFloat
  match exponent with
  | .ofNat k =>
    if k ≤ greatestPower then
      let scaled := x * powerOfTen k
      if scaled.isInf then none else some scaled
    else if x == 0.0 then some x else none
  | .negSucc k => some (divideByPower x (k + 1))

/-- A double with the sign of a numeral. -/
def withSign (isNegative : Bool) (x : Float) : Float :=
  if isNegative then -x else x

/-- The double of a numeral, unless it is too large. -/
def Numeral.double? (numeral : Numeral) : Option JsonNumber := do
  let (whole, wholeLeft) := takeDigits 0 numeral.whole
  let fraction := numeral.fraction.getD []
  let (significand, fractionLeft) := takeDigits whole fraction
  let point : Int := (wholeLeft : Int) - ((fraction.length - fractionLeft : Nat) : Int)
  let exponent : Int :=
    match numeral.exponent with
    | none => point
    | some (true, digits) => point - digitsValue digits
    | some (false, digits) => point + digitsValue digits
  let x ← scaleByPower significand exponent
  let x ← Number.FiniteFloat.ofFloat? (withSign numeral.isNegative x)
  return .double x

/-- The integer of a numeral, if it is one and fits. -/
def Numeral.integer? (numeral : Numeral) : Option JsonNumber :=
  match numeral.fraction, numeral.exponent, takeDigits 0 numeral.whole with
  | none, none, (n, 0) =>
    if numeral.isNegative then
      if h : 0 < n ∧ n ≤ 0x8000000000000000 then some (.negative ⟨n - 1, by omega⟩) else none
    else some (.natural (UInt64.ofNat n))
  | _, _, _ => none

/-- The number of a numeral, unless it is too large. -/
def Numeral.number? (numeral : Numeral) : Option JsonNumber :=
  match numeral.integer? with
  | some n => some n
  | none => numeral.double?

/-- Read a number.  Nothing is left of a text that cannot be followed. -/
def readNumber (bs : List UInt8) : Leaf JsonNumber × Option (List UInt8) :=
  match scanNumeral bs with
  | .error fault => (⟨.error fault.wanted, some fault.passed⟩, none)
  | .ok (numeral, rest) =>
    match numeral.number? with
    | some n => (.sound n, some rest)
    | none => (⟨.error .malformed, none⟩, some rest)

end Json
end AnimatedGlyph
