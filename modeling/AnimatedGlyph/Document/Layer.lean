/-
The layers of a document.

A document is a stack of layers, the first on top, each shown in a window of
frames.  There are four kinds: the grid of nodes, the plain background, the stroke
of a glyph, and a letter of a caption.
-/
import AnimatedGlyph.Caption.Letterform
import AnimatedGlyph.Colour.Palette
import AnimatedGlyph.Grid.Projection
import AnimatedGlyph.Stroke.Path
import AnimatedGlyph.Timeline.Window

namespace AnimatedGlyph

/-- A way to animate a stroke over its window. -/
inductive Effect where
  /-- The stroke is drawn from its start to its end. -/
  | trim
  /-- The stroke shows from the frame after its start to the end of the window. -/
  | opacity
  deriving DecidableEq

/-- The stroke of a glyph. -/
structure StrokeLayer where
  path : StrokePath
  colour : Colour
  width : Float
  /-- Its effects in order. -/
  effects : List Effect
  deriving DecidableEq

/-- A plain background. -/
structure BackgroundLayer where
  /-- Its colour as it is written. -/
  colour : String
  width : UInt32
  height : UInt32
  deriving DecidableEq

/-- A letter of a caption. -/
structure CaptionLayer where
  character : Char
  /-- Its strokes. -/
  letter : Letterform
  /-- The point of the letter that lies at the position. -/
  anchor : Point
  /-- The place of the letter on the canvas. -/
  position : Point
  deriving DecidableEq

/-- What a layer shows. -/
inductive LayerKind where
  | grid (nodes : Projection)
  | background (background : BackgroundLayer)
  | stroke (stroke : StrokeLayer)
  /-- A letter. -/
  | caption (caption : CaptionLayer)
  deriving DecidableEq

/-- A layer of a document. -/
structure Layer where
  name : String
  /-- When it shows. -/
  window : FrameWindow
  /-- What it shows. -/
  kind : LayerKind
  deriving DecidableEq

namespace LayerKind

def isStroke : LayerKind → Bool
  | .stroke _ => true
  | _ => false

/-- Whether it is a letter of a caption. -/
def isCaption : LayerKind → Bool
  | .caption _ => true
  | _ => false

end LayerKind

namespace Layer

def grid (nodes : Projection) (total : UInt32) : Layer :=
  ⟨"CalibrationGrid", .full total, .grid nodes⟩

/-- The layer of the background.  It is off in the last frame, so that the sticker
blinks once in every round. -/
def background (colour : String) (width height total : UInt32) : Layer :=
  ⟨"Background", ⟨0, if total = 0 then 0 else total - 1⟩, .background ⟨colour, width, height⟩⟩

/-- The effects of a stroke. -/
def effectsOf (animated : Bool) : List Effect :=
  if animated then [.trim, .opacity] else []

def stroke (name : String) (window : FrameWindow) (path : StrokePath) (colour : Colour)
    (width : Float) (animated : Bool) : Layer :=
  ⟨name, window, .stroke ⟨path, colour, width, effectsOf animated⟩⟩

/-- The layer of a letter.  A letter lies at its position with the middle of its
upper edge. -/
def caption (character : Char) (letter : Letterform) (position : Point)
    (window : FrameWindow) : Layer :=
  ⟨"char " ++ character.toString, window,
    .caption ⟨character, letter, ⟨letter.width / 2.0, 0.0⟩, position⟩⟩

end Layer
end AnimatedGlyph
