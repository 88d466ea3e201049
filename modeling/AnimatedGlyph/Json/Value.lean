/-
JSON values.

A number is a natural number below `2 ^ 64`, a negative integer down to
`-2 ^ 63`, or a finite double; the three are told apart, so that `1` and `1.0`
are different values.  An object keeps its members in order, and it may hold a
name twice: the readers that care say which of the two counts.
-/
import AnimatedGlyph.Number.Rounding

namespace AnimatedGlyph

/-- A number of a JSON text. -/
inductive JsonNumber where
  /-- An integer that is not negative. -/
  | natural (n : UInt64)
  /-- The negative integer `-(n + 1)`. -/
  | negative (n : Fin 0x8000000000000000)
  /-- A number with a point or an exponent, or an integer outside both ranges. -/
  | double (x : Number.FiniteFloat)
  deriving DecidableEq

/-- A JSON value. -/
inductive Json where
  /-- The value `null`. -/
  | null
  /-- A truth value. -/
  | bool (b : Bool)
  | number (n : JsonNumber)
  /-- A text. -/
  | string (s : String)
  /-- A list of values. -/
  | array (items : List Json)
  /-- Named values in order. -/
  | object (members : List (String × Json))

namespace Json

/-- A double as a value.  What is no number has no numeral and becomes `null`. -/
def ofFloat (x : Float) : Json :=
  match Number.FiniteFloat.ofFloat? x with
  | some x => number (.double x)
  | none => null

/-- A natural number below `2 ^ 64` as a value. -/
def ofUInt64 (n : UInt64) : Json :=
  number (.natural n)

/-- A frame or a size as a value. -/
def ofUInt32 (n : UInt32) : Json :=
  ofUInt64 n.toUInt64

/-- A small code as a value. -/
def ofUInt8 (n : UInt8) : Json :=
  ofUInt64 n.toUInt64

/-- A count as a value. -/
def ofCount (n : Nat) : Json :=
  ofUInt64 (UInt64.ofNat n)

/-- An optional value, `null` if absent. -/
def ofOption {α : Type} (encode : α → Json) : Option α → Json
  | some a => encode a
  | none => null

/-- A list of values. -/
def ofList {α : Type} (encode : α → Json) (items : List α) : Json :=
  array (items.map encode)

/-- A member that is left out when its value is absent. -/
def optionalMember {α : Type} (name : String) (encode : α → Json) :
    Option α → List (String × Json)
  | some a => [(name, encode a)]
  | none => []

end Json
end AnimatedGlyph
