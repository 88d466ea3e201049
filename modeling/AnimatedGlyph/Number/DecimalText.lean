/-
The text of a double.

A finite double is written with the shortest digits that name it.  Between
`1e-5` and `1e16` they are written out around a decimal point, and every such
text has a point with a digit on either side, so that it never looks like an
integer.  Outside that range one digit stands before the point, the point is
left out when nothing follows it, and the exponent carries its sign.
-/
import AnimatedGlyph.Number.Shortest

namespace AnimatedGlyph
namespace Number

/-! ## The style

The choices that a decimal text leaves open are one record, so that the writer
itself holds no constant. -/

/-- How a decimal is laid out. -/
structure DecimalStyle where
  /-- The least power of ten that is written out around a point. -/
  leastPlain : Int
  /-- The greatest power of ten that is written out around a point. -/
  greatestPlain : Int
  /-- What stands for an absent fraction. -/
  wholeTail : String
  /-- What opens an exponent that is not negative. -/
  risingMark : String
  /-- What opens a negative exponent. -/
  fallingMark : String

/-- The style of every double in a document. -/
def DecimalStyle.plain : DecimalStyle where
  leastPlain := -5
  greatestPlain := 15
  wholeTail := ".0"
  risingMark := "e+"
  fallingMark := "e-"

/-! ## The writer -/

/-- A run of zeros. -/
def zeros (n : Nat) : String :=
  String.ofList (List.replicate n '0')

/-- The text of a positive decimal. -/
def Decimal.text (style : DecimalStyle) (d : Decimal) : String :=
  let digits := (toString d.digits).toList
  let leading := d.exponent + digits.length - 1
  if leading < style.leastPlain ∨ style.greatestPlain < leading then
    let fraction := if digits.length ≤ 1 then "" else "." ++ String.ofList (digits.drop 1)
    let mark := if leading < 0 then style.fallingMark else style.risingMark
    String.ofList (digits.take 1) ++ fraction ++ mark ++ toString leading.natAbs
  else if 0 ≤ d.exponent then
    String.ofList digits ++ zeros d.exponent.toNat ++ style.wholeTail
  else if leading < 0 then
    "0." ++ zeros (-leading - 1).toNat ++ String.ofList digits
  else
    let whole := leading.toNat + 1
    String.ofList (digits.take whole) ++ "." ++ String.ofList (digits.drop whole)

/-- The mark before a negative number. -/
def signText : Float.Model.UnpackedFloat.Sign → String
  | .negative => "-"
  | .positive => ""

/-- The text of a double, if it is a number. -/
def floatText? (x : Float) : Option String :=
  match x.toModel.unpack with
  | .zero sign => some (signText sign ++ "0" ++ DecimalStyle.plain.wholeTail)
  | .finite sign m q _ => some (signText sign ++ (shortest m q).text .plain)
  | _ => none

end Number
end AnimatedGlyph
