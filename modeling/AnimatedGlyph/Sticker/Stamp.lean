/-
Stamps.

A stamp marks one run of the compiler.  It has a number that no other run has, made
of 16 random bytes, and the time of the run in universal time.

Days are counted in years that begin with March, so that the day that only some years
have comes last; four hundred such years have the same number of days as any other
four hundred.
-/
import AnimatedGlyph.Bytes.Text

namespace AnimatedGlyph

/-- What marks one run of the compiler. -/
structure Stamp where
  /-- A number of its own. -/
  id : String
  /-- When it was. -/
  createdAt : String
  deriving DecidableEq

/-! ## Numbers -/

/-- A byte whose high bits are fixed and whose other bits are free. -/
def fixHighBits (mask fixed : UInt8) (b : UInt8) : UInt8 :=
  (b &&& mask) ||| fixed

/-- The bytes of a random number: two of them carry the version, four, and the
variant. -/
def markRandom (bytes : List UInt8) : List UInt8 :=
  (bytes.modify 6 (fixHighBits 0x0f 0x40)).modify 8 (fixHighBits 0x3f 0x80)

/-- The number of a run from 16 random bytes, in five groups of hexadecimal digits. -/
def idText (bytes : List UInt8) : String :=
  let group (start count : Nat) : String :=
    Bytes.hex (((markRandom bytes).drop start).take count)
  group 0 4 ++ "-" ++ group 4 2 ++ "-" ++ group 6 2 ++ "-" ++ group 8 2 ++ "-" ++ group 10 6

/-! ## Times -/

/-- The digits of a number, with zeros in front up to a width. -/
def padded (width n : Nat) : String :=
  let digits := toString n
  String.ofList (List.replicate (width - digits.length) '0') ++ digits

/-- The year, the month and the day of a number of days after the start of 1970. -/
def dateOfDays (days : Nat) : Nat × Nat × Nat :=
  let shifted := days + 719468
  let era := shifted / 146097
  let dayOfEra := shifted % 146097
  let yearOfEra := (dayOfEra - dayOfEra / 1460 + dayOfEra / 36524 - dayOfEra / 146096) / 365
  let dayOfYear := dayOfEra - (365 * yearOfEra + yearOfEra / 4 - yearOfEra / 100)
  let marchMonth := (5 * dayOfYear + 2) / 153
  let day := dayOfYear - (153 * marchMonth + 2) / 5 + 1
  let month := if marchMonth < 10 then marchMonth + 3 else marchMonth - 9
  let year := yearOfEra + 400 * era + if month ≤ 2 then 1 else 0
  (year, month, day)

/-- The part of a second in as many groups of three digits as it needs. -/
def fractionText (nanoseconds : Nat) : String :=
  if nanoseconds = 0 then ""
  else if nanoseconds % 1000000 = 0 then "." ++ padded 3 (nanoseconds / 1000000)
  else if nanoseconds % 1000 = 0 then "." ++ padded 6 (nanoseconds / 1000)
  else "." ++ padded 9 nanoseconds

/-- A time, given in seconds and a part of a second after the start of 1970. -/
def timeText (seconds nanoseconds : Nat) : String :=
  let (year, month, day) := dateOfDays (seconds / 86400)
  let second := seconds % 86400
  padded 4 year ++ "-" ++ padded 2 month ++ "-" ++ padded 2 day ++ "T" ++
    padded 2 (second / 3600) ++ ":" ++ padded 2 (second / 60 % 60) ++ ":" ++
    padded 2 (second % 60) ++ fractionText nanoseconds ++ "Z"

/-- The stamp of a run at a time. -/
def Stamp.ofRandom (bytes : List UInt8) (seconds nanoseconds : Nat) : Stamp :=
  ⟨idText bytes, timeText seconds nanoseconds⟩

end AnimatedGlyph
