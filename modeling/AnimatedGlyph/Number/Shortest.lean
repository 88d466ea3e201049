/-
The shortest decimal that names a double.

A positive double is `m * 2 ^ q`.  The reals that round to it form an interval
around it, and any decimal inside that interval names the double.  `shortest`
finds the decimal with the fewest digits in the interval, and among those the
one nearest to the double.

The search walks over decimal grids, the multiples of `10 ^ k`, from coarse to
fine.  On each grid only the two neighbours of the double need a test, since the
interval holds a point of the grid only if it holds one of them.  All tests are
comparisons of natural numbers: the double is kept as a fraction of the grid's
step, so no digit is ever guessed.
-/

namespace AnimatedGlyph
namespace Number

/-- The decimal number `digits * 10 ^ exponent`. -/
structure Decimal where
  /-- The significant digits, read as one natural number. -/
  digits : Nat
  /-- The power of ten that scales them. -/
  exponent : Int
  deriving DecidableEq, Repr

/-! ## One grid

`num / den` is the value of one unit of the mantissa measured in steps of the
grid, so that the double itself is `m * num / den` steps.  The interval reaches
half a unit above the double, and half a unit below it, or a quarter when the
mantissa is the least one and the doubles below lie twice as dense; `below` is
that distance in quarters of a unit.  The two ends belong to the interval when
the mantissa is even, because ties are read to the even neighbour. -/

/-- Whether the grid point `c` lies in the interval of the mantissa `m`. -/
def namesDouble (m below num den c : Nat) : Bool :=
  if m % 2 = 0 then
    (4 * m - below) * num ≤ 4 * den * c && 4 * den * c ≤ (4 * m + 2) * num
  else
    (4 * m - below) * num < 4 * den * c && 4 * den * c < (4 * m + 2) * num

/-- The grid point nearest to the double among those in its interval; of two
equally near the even one. -/
def gridPoint (m below num den : Nat) : Option Nat :=
  let floor := m * num / den
  let excess := m * num % den
  let low := namesDouble m below num den floor
  let high := namesDouble m below num den (floor + 1)
  if low && high then
    if 2 * excess < den then some floor
    else if den < 2 * excess then some (floor + 1)
    else if floor % 2 = 0 then some floor else some (floor + 1)
  else if low then some floor
  else if high then some (floor + 1)
  else none

/-! ## The search -/

/-- The fraction `2 ^ q / 10 ^ k`, as a numerator and a denominator. -/
def unitInSteps (q k : Int) : Nat × Nat :=
  (Nat.pow 2 q.toNat * Nat.pow 10 (-k).toNat, Nat.pow 2 (-q).toNat * Nat.pow 10 k.toNat)

/-- The first grid with a point in the interval, going from `10 ^ k` to finer
grids.  Seventeen digits always name a double, so the count of grids to try is
never used up; were it, the answer would still be the grid point below. -/
def searchGrids (m below : Nat) (q : Int) : Nat → Int → Decimal
  | 0, k =>
    let (num, den) := unitInSteps q k
    ⟨m * num / den, k⟩
  | tries + 1, k =>
    let (num, den) := unitInSteps q k
    match gridPoint m below num den with
    | some c => ⟨c, k⟩
    | none => searchGrids m below q tries (k - 1)

/-- A power of ten at or above `m * 2 ^ q`, found from the length of the mantissa
in bits and the decimal logarithm of two. -/
def coarsestGrid (m : Nat) (q : Int) : Int :=
  ((m.log2 + 1 : Int) + q) * 30103 / 100000 + 1

/-- The least mantissa of a normal double. -/
def leastNormalMantissa : Nat := Nat.pow 2 52

/-- The exponent shared by the smallest doubles. -/
def leastExponent : Int := -1074

/-- The distance from `m * 2 ^ q` to the end of the interval below it, in quarters
of a unit of the mantissa. -/
def quartersBelow (m : Nat) (q : Int) : Nat :=
  if m = leastNormalMantissa ∧ leastExponent < q then 1 else 2

/-- The shortest decimal that names the double `m * 2 ^ q`. -/
def shortest (m : Nat) (q : Int) : Decimal :=
  searchGrids m (quartersBelow m q) q 20 (coarsestGrid m q)

end Number
end AnimatedGlyph
