/-
Stroke colours.

Each line that shows a glyph takes the next colour of the palette, and after the
last colour comes the first.  In a document a colour is four numbers from zero to
one, its channels rounded to hundredths and an opaque alpha.
-/
import AnimatedGlyph.Json.Record

namespace AnimatedGlyph

/-- A colour of eight bits a channel. -/
structure Colour where
  red : UInt8
  green : UInt8
  blue : UInt8
  deriving DecidableEq

/-- A colour with alpha, in numbers from zero to one. -/
structure Rgba where
  red : Float
  green : Float
  blue : Float
  /-- The opacity. -/
  alpha : Float
  deriving DecidableEq

namespace Rgba

/-- White, opaque. -/
def white : Rgba := ⟨1.0, 1.0, 1.0, 1.0⟩

/-- The channels as a JSON list. -/
def toJson (c : Rgba) : Json :=
  .array [.ofFloat c.red, .ofFloat c.green, .ofFloat c.blue, .ofFloat c.alpha]

/-- A colour from a list of its four channels. -/
def decode : Json.Decoder Rgba := fun depth draft => do
  match ← Json.decodeExactly 4 Json.decodeFloat depth draft with
  | [red, green, blue, alpha] => return ⟨red, green, blue, alpha⟩
  | _ => .error .mismatch

end Rgba

namespace Colour

/-- A channel as a number from zero to one, in hundredths. -/
def unitChannel (channel : UInt8) : Float :=
  Number.toHundredths (channel.toFloat / 255.0)

/-- The opaque colour in numbers from zero to one. -/
def toRgba (c : Colour) : Rgba :=
  ⟨unitChannel c.red, unitChannel c.green, unitChannel c.blue, 1.0⟩

end Colour

/-- The colours of the lines. -/
def palette : Vector Colour 29 :=
  #v[⟨0x43, 0xab, 0xc9⟩, ⟨0xda, 0x62, 0x1e⟩, ⟨0xd3, 0xb5, 0x3d⟩, ⟨0x0d, 0x3d, 0x56⟩,
     ⟨0xad, 0x2a, 0x1a⟩, ⟨0xa3, 0xb8, 0x6c⟩, ⟨0xc2, 0x57, 0x1a⟩, ⟨0x3c, 0x64, 0x78⟩,
     ⟨0xbc, 0xa1, 0x36⟩, ⟨0x9a, 0x26, 0x17⟩, ⟨0xb5, 0xc6, 0x89⟩, ⟨0x14, 0x96, 0xbb⟩,
     ⟨0xf6, 0x4b, 0x44⟩, ⟨0xfa, 0xc9, 0x00⟩, ⟨0xef, 0x7c, 0x85⟩, ⟨0xef, 0xed, 0xd2⟩,
     ⟨0xbc, 0xad, 0xcc⟩, ⟨0x00, 0xc1, 0x9f⟩, ⟨0x32, 0x92, 0xbc⟩, ⟨0xbc, 0xcc, 0xd7⟩,
     ⟨0xfa, 0xb8, 0xc0⟩, ⟨0x77, 0x5a, 0xa6⟩, ⟨0xfc, 0xed, 0x5a⟩, ⟨0x8e, 0xce, 0xc1⟩,
     ⟨0xf6, 0x4b, 0x44⟩, ⟨0x32, 0x92, 0xbc⟩, ⟨0xef, 0x7c, 0x85⟩, ⟨0x8e, 0xce, 0xc1⟩,
     ⟨0xbc, 0xcc, 0xd7⟩]

/-- A place in the palette. -/
abbrev PaletteCursor := Fin 29

namespace PaletteCursor

/-- The first colour's place. -/
def first : PaletteCursor := 0

/-- The colour at the place. -/
def colour (cursor : PaletteCursor) : Colour :=
  palette[cursor]

/-- The next place, the first again after the last. -/
def advance (cursor : PaletteCursor) : PaletteCursor :=
  cursor + 1

end PaletteCursor
end AnimatedGlyph
