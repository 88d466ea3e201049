/-
Animation documents.

A document is what compiling a text gives: a stack of layers with the length and the
size of the whole.
-/
import AnimatedGlyph.Document.Layer

namespace AnimatedGlyph

/-- A compiled animation. -/
structure AnimationDocument where
  /-- The version of the format in which it is written. -/
  version : String
  name : String
  /-- What made it. -/
  generator : String
  /-- The number of frames in a second. -/
  frameRate : Float
  totalFrames : UInt32
  width : UInt32
  height : UInt32
  /-- Its layers, the first on top. -/
  layers : List Layer
  deriving DecidableEq

namespace AnimationDocument

def formatVersion : String := "5.7.0"

/-- The name of a document unless its settings say otherwise. -/
def standardName : String := "GlyphSticker"

/-- The layers of one or more kinds. -/
def layersOf (document : AnimationDocument) (kinds : LayerKind → Bool) : List Layer :=
  document.layers.filter fun layer => kinds layer.kind

def strokeLayers (document : AnimationDocument) : List Layer :=
  document.layersOf LayerKind.isStroke

/-- The layers with letters. -/
def captionLayers (document : AnimationDocument) : List Layer :=
  document.layersOf LayerKind.isCaption

end AnimationDocument
end AnimatedGlyph
