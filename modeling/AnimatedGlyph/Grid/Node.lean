/-
The calibration nodes.

Every glyph is drawn on the same eleven nodes: an outer ring of six, an inner ring
of four, and the centre.  A node is written as its digit, and the centre as the
letter `a`.

A node is given in polar form.  The cosine and the sine of its angle are doubles
of the table rather than results of a computation, so that a projection is exact
arithmetic on known numbers.  They belong to the angle in radians, rounded to a
double; that is why the cosine of ninety degrees is a tiny number and not zero,
and the sine of thirty degrees falls just short of a half.
-/

namespace AnimatedGlyph

/-- A calibration node: the outer ring is 0 to 5, the inner ring 6 to 9, the centre
10. -/
abbrev Node := Fin 11

/-- A direction from the centre. -/
structure Bearing where
  /-- The angle in degrees, counter-clockwise from the right. -/
  degrees : Float
  cosine : Float
  sine : Float

namespace Bearing

/-- Straight up. -/
def up : Bearing := ⟨90.0, 6.123233995736766e-17, 1.0⟩

def rightUp : Bearing := ⟨30.0, 0.8660254037844387, 0.49999999999999994⟩

def rightDown : Bearing := ⟨-30.0, 0.8660254037844387, -0.49999999999999994⟩

/-- Straight down. -/
def down : Bearing := ⟨-90.0, 6.123233995736766e-17, -1.0⟩

def leftDown : Bearing := ⟨-150.0, -0.8660254037844387, -0.49999999999999994⟩

def leftUp : Bearing := ⟨150.0, -0.8660254037844387, 0.49999999999999994⟩

def right : Bearing := ⟨0.0, 1.0, 0.0⟩

end Bearing

/-- A place in polar form. -/
structure Polar where
  /-- The distance from the centre. -/
  magnitude : Float
  /-- The direction from the centre. -/
  bearing : Bearing

namespace Node

/-- Where the nodes lie. -/
def places : Vector Polar 11 :=
  #v[⟨1.0, .up⟩, ⟨1.0, .rightUp⟩, ⟨1.0, .rightDown⟩, ⟨1.0, .down⟩, ⟨1.0, .leftDown⟩, ⟨1.0, .leftUp⟩,
     ⟨0.5, .rightUp⟩, ⟨0.5, .rightDown⟩, ⟨0.5, .leftDown⟩, ⟨0.5, .leftUp⟩, ⟨0.0, .right⟩]

/-- Where a node lies. -/
def place (node : Node) : Polar :=
  places[node]

/-- Every node in order. -/
def all : List Node :=
  List.finRange 11

/-- The character that a node is written as. -/
def char (node : Node) : Char :=
  if node = 10 then 'a' else Char.ofNat (48 + node.val)

/-- The node that a character names, in either case of the letter. -/
def ofChar? (c : Char) : Option Node :=
  if '0' ≤ c ∧ c ≤ '9' then some (Fin.ofNat 11 (c.toNat - 48))
  else if c = 'a' ∨ c = 'A' then some 10
  else none

/-- A node reads back from its character. -/
theorem ofChar?_char : ∀ node : Node, ofChar? node.char = some node := by decide

end Node
end AnimatedGlyph
