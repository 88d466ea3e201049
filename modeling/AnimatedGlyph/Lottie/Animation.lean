/-
Animations of the Lottie format.

An animation is a stack of layers, the first on top.  A layer either has shapes or
is a plain rectangle, and the members that belong to only one of the two may be
absent.
-/
import AnimatedGlyph.Lottie.ShapeReader

namespace AnimatedGlyph
namespace Lottie

/-- A layer of an animation. -/
structure Layer where
  name : String
  /-- What kind of layer it is. -/
  type : UInt8
  depth : Option UInt8
  /-- Its number. -/
  index : Option UInt32
  /-- How far its time is stretched. -/
  stretch : Option Float
  /-- The first frame in which it shows. -/
  inPoint : UInt32
  /-- The frame after the last in which it shows. -/
  outPoint : UInt32
  /-- The frame at which its own time starts. -/
  startTime : UInt32
  /-- Its placement. -/
  transform : Transform
  /-- Whether it turns with its path. -/
  autoOrient : Option UInt8
  /-- How it mixes with what lies below. -/
  blendMode : Option UInt8
  shapes : Option (List ShapeItem)
  solidColour : Option String
  solidHeight : Option UInt32
  solidWidth : Option UInt32

namespace Layer

/-- The type of plain rectangles. -/
def solidType : UInt8 := 1

/-- The type of layers with shapes. -/
def shapeType : UInt8 := 4

def ofShapes (name : String) (inPoint outPoint startTime : UInt32) (shapes : List ShapeItem) :
    Layer where
  name := name
  type := shapeType
  depth := none
  index := none
  stretch := none
  inPoint := inPoint
  outPoint := outPoint
  startTime := startTime
  transform := .identity
  autoOrient := none
  blendMode := none
  shapes := some shapes
  solidColour := none
  solidHeight := none
  solidWidth := none

/-- A plain rectangle. -/
def solid (name : String) (inPoint outPoint : UInt32) (colour : String) (width height : UInt32) :
    Layer where
  name := name
  type := solidType
  depth := none
  index := none
  stretch := none
  inPoint := inPoint
  outPoint := outPoint
  startTime := 0
  transform := .identity
  autoOrient := none
  blendMode := none
  shapes := none
  solidColour := some colour
  solidHeight := some height
  solidWidth := some width

/-- The layer as a record. -/
def toJson (layer : Layer) : Json :=
  .object ([("nm", .string layer.name), ("ty", .ofUInt8 layer.type)] ++
    Json.optionalMember "ddd" .ofUInt8 layer.depth ++
    Json.optionalMember "ind" .ofUInt32 layer.index ++
    Json.optionalMember "sr" .ofFloat layer.stretch ++
    [("ip", .ofUInt32 layer.inPoint), ("op", .ofUInt32 layer.outPoint),
      ("st", .ofUInt32 layer.startTime), ("ks", layer.transform.toJson)] ++
    Json.optionalMember "ao" .ofUInt8 layer.autoOrient ++
    Json.optionalMember "bm" .ofUInt8 layer.blendMode ++
    Json.optionalMember "shapes" (fun items => .array (itemsToJson items)) layer.shapes ++
    Json.optionalMember "sc" .string layer.solidColour ++
    Json.optionalMember "sh" .ofUInt32 layer.solidHeight ++
    Json.optionalMember "sw" .ofUInt32 layer.solidWidth)

def reader : Json.RecordReader Layer :=
  mk <$> Json.required "nm" Json.decodeString
    <*> Json.required "ty" Json.decodeUInt8
    <*> Json.optional "ddd" Json.decodeUInt8
    <*> Json.optional "ind" Json.decodeUInt32
    <*> Json.optional "sr" Json.decodeFloat
    <*> Json.required "ip" Json.decodeUInt32
    <*> Json.required "op" Json.decodeUInt32
    <*> Json.required "st" Json.decodeUInt32
    <*> Json.required "ks" Transform.decode
    <*> Json.optional "ao" Json.decodeUInt8
    <*> Json.optional "bm" Json.decodeUInt8
    <*> Json.optional "shapes" (Json.decodeList ShapeItem.decode)
    <*> Json.optional "sc" Json.decodeString
    <*> Json.optional "sh" Json.decodeUInt32
    <*> Json.optional "sw" Json.decodeUInt32

/-- A layer from its record. -/
def decode : Json.Decoder Layer :=
  reader.decode

end Layer

structure Animation where
  version : String
  /-- The number of frames in a second. -/
  frameRate : Float
  /-- The first frame. -/
  inPoint : UInt32
  /-- The frame after the last. -/
  outPoint : UInt32
  name : String
  depth : UInt8
  height : UInt32
  width : UInt32
  /-- What made it. -/
  generator : String
  /-- Its layers, the first on top. -/
  layers : List Layer

namespace Animation

/-- The animation as a record. -/
def toJson (animation : Animation) : Json :=
  .object [("v", .string animation.version), ("fr", .ofFloat animation.frameRate),
    ("ip", .ofUInt32 animation.inPoint), ("op", .ofUInt32 animation.outPoint),
    ("nm", .string animation.name), ("ddd", .ofUInt8 animation.depth),
    ("h", .ofUInt32 animation.height), ("w", .ofUInt32 animation.width),
    ("meta", .object [("g", .string animation.generator)]),
    ("layers", .ofList Layer.toJson animation.layers)]

/-- Reads what made an animation. -/
def generatorReader : Json.RecordReader String :=
  Json.required "g" Json.decodeString

def reader : Json.RecordReader Animation :=
  mk <$> Json.required "v" Json.decodeString
    <*> Json.required "fr" Json.decodeFloat
    <*> Json.required "ip" Json.decodeUInt32
    <*> Json.required "op" Json.decodeUInt32
    <*> Json.required "nm" Json.decodeString
    <*> Json.required "ddd" Json.decodeUInt8
    <*> Json.required "h" Json.decodeUInt32
    <*> Json.required "w" Json.decodeUInt32
    <*> Json.required "meta" generatorReader.decode
    <*> Json.required "layers" (Json.decodeList Layer.decode)

/-- An animation from its record. -/
def decode : Json.Decoder Animation :=
  reader.decode

end Animation
end Lottie
end AnimatedGlyph
