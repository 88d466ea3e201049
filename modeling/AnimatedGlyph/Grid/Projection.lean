/-
Projecting the nodes.

`project` places the nodes on a canvas.  A `Layout` keeps a projection together
with the canvas it belongs to and makes a new one only for a canvas that differs
in some number; it counts the projections made.  A layout is moved to a canvas that is
given, or to what its own canvas is for some number of lines, and the answer to such a
request says whether the nodes had to be projected again.
-/
import AnimatedGlyph.Grid.Canvas

namespace AnimatedGlyph

/-- Where each node lies on a canvas. -/
abbrev Projection := Vector Point 11

/-- Where a polar place lies on a canvas. -/
def Polar.onCanvas (place : Polar) (canvas : Canvas) : Point :=
  ⟨canvas.originX + place.magnitude * place.bearing.cosine * canvas.scale,
   canvas.originY - place.magnitude * place.bearing.sine * canvas.scale⟩

/-- Where the nodes lie on a canvas. -/
def project (canvas : Canvas) : Projection :=
  Vector.ofFn fun node => (Node.place node).onCanvas canvas

/-! ## Layouts -/

/-- A projection, its canvas, and the number of projections made. -/
structure Layout where
  canvas : Canvas
  points : Projection
  /-- The number of projections made so far. -/
  projections : Nat

namespace Layout

/-- The first layout. -/
def ofCanvas (canvas : Canvas) : Layout :=
  ⟨canvas, project canvas, 1⟩

/-- Move to a canvas, and whether that needed a new projection. -/
def reconfigure (layout : Layout) (canvas : Canvas) : Bool × Layout :=
  if canvas.agrees layout.canvas then (false, layout)
  else (true, ⟨canvas, project canvas, layout.projections + 1⟩)

/-- What the counter of all projections shows if it showed `before` until the layout was made.
It has 32 bits and goes on from zero after its greatest number. -/
def counter (layout : Layout) (before : UInt32) : UInt32 :=
  before + .ofNat layout.projections

/-- The point at a place of the projection, if there is one. -/
def point? (layout : Layout) (index : Nat) : Option Point :=
  layout.points[index]?

end Layout

/-! ## Requests -/

/-- A request to a layout. -/
inductive LayoutRequest where
  /-- Move to a canvas. -/
  | move (canvas : Canvas)
  /-- Move to what the layout's own canvas is for so many lines. -/
  | lines (count : Nat)

namespace Layout

/-- The canvas that a request asks for. -/
def target (layout : Layout) : LayoutRequest → Canvas
  | .move canvas => canvas
  | .lines count => layout.canvas.forLineCount count

/-- Do what a request asks for. -/
def follow (layout : Layout) (request : LayoutRequest) : Bool × Layout :=
  layout.reconfigure (layout.target request)

/-- Follow requests one after the other. -/
def run (layout : Layout) : List LayoutRequest → List Bool × Layout
  | [] => ([], layout)
  | request :: rest =>
    let (changed, layout) := layout.follow request
    let (answers, layout) := layout.run rest
    (changed :: answers, layout)

end Layout
end AnimatedGlyph
