/-
The canvas that the nodes are projected on.

The canvas says how far a unit of the grid is, where the centre lies, and how
large captions are.  Its vertical axis points down.  A text of a single line has
its caption above the grid, so its canvas lies one font size lower; every text
gets its canvas from the same settings, and nothing is carried from one to the
next.
-/
import AnimatedGlyph.Grid.Node
import AnimatedGlyph.Json.Record

namespace AnimatedGlyph

/-- A point of the canvas, or the offset from one point to another. -/
structure Point where
  /-- The distance to the right. -/
  x : Float
  /-- The distance down. -/
  y : Float
  deriving DecidableEq

namespace Point

/-- No offset. -/
def zero : Point := ⟨0.0, 0.0⟩

/-- The point rounded to hundredths. -/
def toHundredths (p : Point) : Point :=
  ⟨Number.toHundredths p.x, Number.toHundredths p.y⟩

/-- The coordinates as a JSON list. -/
def toJson (p : Point) : Json :=
  .array [.ofFloat p.x, .ofFloat p.y]

/-- A point from a list of its two coordinates. -/
def decode : Json.Decoder Point := fun depth draft => do
  match ← Json.decodeExactly 2 Json.decodeFloat depth draft with
  | [x, y] => return ⟨x, y⟩
  | _ => .error .mismatch

end Point

/-- How the grid lies on the canvas. -/
structure Canvas where
  /-- The length of a unit of the grid. -/
  scale : Float
  /-- The centre, from the left. -/
  originX : Float
  /-- The centre, from the top. -/
  originY : Float
  /-- The height of captions. -/
  fontSize : Float
  /-- The space between the letters of a caption. -/
  fontSpacing : Float
  deriving DecidableEq

namespace Canvas

/-- The canvas of a sticker unless its settings say otherwise. -/
def standard : Canvas where
  scale := 200.0
  originX := 256.0
  originY := 256.0
  fontSize := 20.0
  fontSpacing := 5.0

/-- The canvas of a text with so many lines. -/
def forLineCount (canvas : Canvas) (lines : Nat) : Canvas :=
  { canvas with originY := canvas.originY + (if lines = 1 then canvas.fontSize else 0.0) }

/-- Whether two canvases are equal number by number.  Zeros of either sign are
equal, and what is no number equals nothing. -/
def agrees (a b : Canvas) : Bool :=
  a.scale == b.scale && a.originX == b.originX && a.originY == b.originY &&
    a.fontSize == b.fontSize && a.fontSpacing == b.fontSpacing

/-- The canvas as a record. -/
def toJson (canvas : Canvas) : Json :=
  .object [("scale", .ofFloat canvas.scale), ("originX", .ofFloat canvas.originX),
    ("originY", .ofFloat canvas.originY), ("fontSize", .ofFloat canvas.fontSize),
    ("fontSpacing", .ofFloat canvas.fontSpacing)]

/-- Reads a canvas, in which every field may be absent. -/
def reader : Json.RecordReader Canvas :=
  mk <$> Json.defaulted "scale" Json.decodeFloat standard.scale
    <*> Json.defaulted "originX" Json.decodeFloat standard.originX
    <*> Json.defaulted "originY" Json.decodeFloat standard.originY
    <*> Json.defaulted "fontSize" Json.decodeFloat standard.fontSize
    <*> Json.defaulted "fontSpacing" Json.decodeFloat standard.fontSpacing

/-- A canvas from its record. -/
def decode : Json.Decoder Canvas :=
  reader.decode

end Canvas
end AnimatedGlyph
