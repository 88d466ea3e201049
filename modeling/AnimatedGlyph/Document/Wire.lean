/-
The Lottie form of a document.

Every layer becomes one Lottie layer.  Strokes and letters become groups of curves
with a style, the nodes become circles, and the background a plain rectangle.

Effects are driven by the window of their layer.  A trim draws the stroke over the
whole window.  An opacity effect shows it from the frame after the start up to and
including the frame at the end, and in any case for one frame; its keyframes have
ascending times, so the one at the end of the window is left out when the window is
too short to hold it.  Times are 32-bit words, and where the next frame is no such
word there is no Lottie form.
-/
import AnimatedGlyph.Document.Basic
import AnimatedGlyph.Lottie.Animation
import AnimatedGlyph.Timeline.Checked

namespace AnimatedGlyph

open Lottie (Bezier Curve Easing Ellipse Keyframe Property ShapeItem StrokeStyle Transform Trim)

/-! ## Shapes -/

def strokeStyle (colour : Rgba) (width : Float) (lineJoin : UInt8) : ShapeItem :=
  .style {
    colour := .fixed colour
    opacity := .fixed 100.0
    width := .fixed width
    lineCap := 2
    lineJoin := lineJoin
    miterLimit := 10.0
    blendMode := 0
    name := "Stroke" }

/-- A curve without tangents. -/
def polyline (points : List Point) : ShapeItem :=
  let tangents := points.map fun _ => Point.zero
  .curve ⟨.fixed ⟨tangents, tangents, points, false⟩, none⟩

def nodeCircle (point : Point) : ShapeItem :=
  .ellipse ⟨.fixed point.toHundredths, .fixed ⟨20.0, 20.0⟩, "Circle Path"⟩

def gridShapes (nodes : Projection) : List ShapeItem :=
  nodes.toList.map nodeCircle ++ [strokeStyle .white 3.0 1]

def pathCurve (path : StrokePath) : ShapeItem :=
  .curve ⟨.fixed ⟨path.inTangents, path.outTangents, path.vertices, path.isClosed⟩, none⟩

/-- The trim that draws a stroke over a window. -/
def trimOver (window : FrameWindow) : Trim where
  name := "TrimPath"
  index := 3
  hidden := false
  start := (Property.fixed 0.0).withIndex 1
  stop := (Property.animated
    [.eased window.start 0.0 (.single 0.3 1.0) (.single 0.333 0.0),
      .hold window.stop 100.0]).withIndex 2
  offset := (Property.fixed 0.0).withIndex 3
  mode := 1

/-- The keyframes of the opacity over a window. -/
def opacityKeyframes (window : FrameWindow) : Checked (List Keyframe) := do
  let on ← Checked.add32 window.start 1
  let off ← Checked.add32 (max window.stop on) 1
  return [.hold window.start 0.0, .hold on 100.0] ++
    (if on < window.stop then [.hold window.stop 100.0] else []) ++ [.hold off 0.0]

/-- The transform that shows a stroke as keyframes of its opacity say. -/
def opacityOver (frames : List Keyframe) : Transform :=
  { Transform.identity with opacity := (Property.animated frames).withIndex 11 }

def effectShape (window : FrameWindow) : Effect → Checked ShapeItem
  | .trim => some (.trim (trimOver window))
  | .opacity => (opacityKeyframes window).map fun frames => .transform (opacityOver frames)

def strokeShapes (window : FrameWindow) (stroke : StrokeLayer) : Checked (List ShapeItem) :=
  (stroke.effects.mapM (effectShape window)).map fun effects =>
    [pathCurve stroke.path, strokeStyle stroke.colour.toRgba stroke.width 2] ++ effects

/-- The shapes of a letter, which are one group. -/
def captionShapes (caption : CaptionLayer) : List ShapeItem :=
  let placed : Transform := { Transform.identity with
    anchor := .fixed caption.anchor.toHundredths
    position := .fixed caption.position.toHundredths }
  [.group (caption.letter.strokes.map polyline ++
    [strokeStyle .white 2.0 2, .transform placed]) none]

/-! ## Layers and documents -/

def Layer.toLottie (layer : Layer) : Checked Lottie.Layer :=
  let start := layer.window.start
  let stop := layer.window.stop
  match layer.kind with
  | .grid nodes => some (.ofShapes layer.name start stop 0 (gridShapes nodes))
  | .background plain =>
    some (.solid layer.name start stop plain.colour plain.width plain.height)
  | .stroke stroke =>
    (strokeShapes layer.window stroke).map (.ofShapes layer.name start stop start)
  | .caption caption =>
    some { Lottie.Layer.ofShapes layer.name start stop 0 (captionShapes caption) with
      depth := some 0
      index := some 0
      stretch := some 1.0
      autoOrient := some 0
      blendMode := some 0 }

namespace AnimationDocument

/-- The animation that some layers make with the other members of a document. -/
def animationOf (document : AnimationDocument) (layers : List Lottie.Layer) :
    Lottie.Animation where
  version := document.version
  frameRate := document.frameRate
  inPoint := 0
  outPoint := document.totalFrames
  name := document.name
  depth := 0
  height := document.height
  width := document.width
  generator := document.generator
  layers := layers

/-- The Lottie form of a document. -/
def toLottie (document : AnimationDocument) : Checked Lottie.Animation :=
  (document.layers.mapM Layer.toLottie).map document.animationOf

/-- The document as a JSON value. -/
def toJson (document : AnimationDocument) : Checked Json :=
  document.toLottie.map Lottie.Animation.toJson

end AnimationDocument
end AnimatedGlyph
