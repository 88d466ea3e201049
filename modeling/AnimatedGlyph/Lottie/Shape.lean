/-
Shapes of the Lottie format.

A shape item is a record whose member `ty` says what it is.  Groups hold further
items, so that items form a tree.  An item writes its tag first and then its fields
in the order in which they stand here.
-/
import AnimatedGlyph.Colour.Palette
import AnimatedGlyph.Grid.Canvas
import AnimatedGlyph.Lottie.Property

namespace AnimatedGlyph
namespace Lottie

/-! ## Parts of shapes -/

/-- A curve with tangents on both sides of each vertex. -/
structure Bezier where
  /-- The tangents with which the vertices are reached. -/
  inTangents : List Point
  /-- The tangents with which the vertices are left. -/
  outTangents : List Point
  vertices : List Point
  /-- Whether the curve returns to its first vertex. -/
  closed : Bool
  deriving DecidableEq

namespace Bezier

/-- The curve as a record. -/
def toJson (bezier : Bezier) : Json :=
  .object [("i", .ofList Point.toJson bezier.inTangents),
    ("o", .ofList Point.toJson bezier.outTangents),
    ("v", .ofList Point.toJson bezier.vertices), ("c", .bool bezier.closed)]

/-- Reads a curve. -/
def reader : Json.RecordReader Bezier :=
  mk <$> Json.required "i" (Json.decodeList Point.decode)
    <*> Json.required "o" (Json.decodeList Point.decode)
    <*> Json.required "v" (Json.decodeList Point.decode)
    <*> Json.required "c" Json.decodeBool

/-- A curve from its record. -/
def decode : Json.Decoder Bezier :=
  reader.decode

end Bezier

/-- How a layer or a group is placed. -/
structure Transform where
  /-- The point that is placed. -/
  anchor : Property Point
  /-- Where it is placed. -/
  position : Property Point
  /-- The size, in hundredths. -/
  scale : Property Point
  /-- The angle, in degrees. -/
  rotation : Property Float
  /-- The opacity, in hundredths. -/
  opacity : Property Float
  /-- How far it is skewed. -/
  skew : Property Float
  /-- The axis along which it is skewed. -/
  skewAxis : Property Float
  deriving DecidableEq

namespace Transform

/-- The transform that changes nothing. -/
def identity : Transform where
  anchor := .fixed ⟨0.0, 0.0⟩
  position := .fixed ⟨0.0, 0.0⟩
  scale := .fixed ⟨100.0, 100.0⟩
  rotation := .fixed 0.0
  opacity := .fixed 100.0
  skew := .fixed 0.0
  skewAxis := .fixed 0.0

/-- The members of the record. -/
def members (transform : Transform) : List (String × Json) :=
  [("a", transform.anchor.toJson Point.toJson), ("p", transform.position.toJson Point.toJson),
    ("s", transform.scale.toJson Point.toJson), ("r", transform.rotation.toJson .ofFloat),
    ("o", transform.opacity.toJson .ofFloat), ("sk", transform.skew.toJson .ofFloat),
    ("sa", transform.skewAxis.toJson .ofFloat)]

/-- The transform as a record. -/
def toJson (transform : Transform) : Json :=
  .object transform.members

def reader : Json.RecordReader Transform :=
  mk <$> Json.required "a" (Property.decode Point.decode)
    <*> Json.required "p" (Property.decode Point.decode)
    <*> Json.required "s" (Property.decode Point.decode)
    <*> Json.required "r" (Property.decode Json.decodeFloat)
    <*> Json.required "o" (Property.decode Json.decodeFloat)
    <*> Json.required "sk" (Property.decode Json.decodeFloat)
    <*> Json.required "sa" (Property.decode Json.decodeFloat)

/-- A transform from its record. -/
def decode : Json.Decoder Transform :=
  reader.decode

end Transform

/-! ## Plain items -/

structure Ellipse where
  /-- Its centre. -/
  position : Property Point
  /-- Its width and height. -/
  size : Property Point
  name : String
  deriving DecidableEq

structure Curve where
  course : Property Bezier
  name : Option String
  deriving DecidableEq

/-- How curves are drawn. -/
structure StrokeStyle where
  colour : Property Rgba
  /-- The opacity, in hundredths. -/
  opacity : Property Float
  width : Property Float
  /-- The shape of the ends. -/
  lineCap : UInt8
  /-- The shape of the corners. -/
  lineJoin : UInt8
  /-- How far a sharp corner may reach. -/
  miterLimit : Float
  /-- How the colour mixes with what lies below. -/
  blendMode : UInt8
  name : String
  deriving DecidableEq

/-- Which part of the curves is drawn. -/
structure Trim where
  name : String
  /-- Its number. -/
  index : UInt8
  /-- Whether it is switched off. -/
  hidden : Bool
  /-- Where the part starts, in hundredths of the curve. -/
  start : Property Float
  /-- Where the part ends, in hundredths of the curve. -/
  stop : Property Float
  /-- How far both ends are moved on. -/
  offset : Property Float
  /-- Whether several curves are trimmed as one. -/
  mode : UInt8
  deriving DecidableEq

namespace Ellipse

/-- The members of the record. -/
def members (ellipse : Ellipse) : List (String × Json) :=
  [("p", ellipse.position.toJson Point.toJson), ("s", ellipse.size.toJson Point.toJson),
    ("nm", .string ellipse.name)]

def reader : Json.RecordReader Ellipse :=
  mk <$> Json.required "p" (Property.decode Point.decode)
    <*> Json.required "s" (Property.decode Point.decode)
    <*> Json.required "nm" Json.decodeString

end Ellipse

namespace Curve

/-- The members of the record. -/
def members (curve : Curve) : List (String × Json) :=
  [("ks", curve.course.toJson Bezier.toJson)] ++ Json.optionalMember "nm" .string curve.name

def reader : Json.RecordReader Curve :=
  mk <$> Json.required "ks" (Property.decode Bezier.decode)
    <*> Json.optional "nm" Json.decodeString

end Curve

namespace StrokeStyle

/-- The members of the record. -/
def members (style : StrokeStyle) : List (String × Json) :=
  [("c", style.colour.toJson Rgba.toJson), ("o", style.opacity.toJson .ofFloat),
    ("w", style.width.toJson .ofFloat), ("lc", .ofUInt8 style.lineCap),
    ("lj", .ofUInt8 style.lineJoin), ("ml", .ofFloat style.miterLimit),
    ("bm", .ofUInt8 style.blendMode), ("nm", .string style.name)]

def reader : Json.RecordReader StrokeStyle :=
  mk <$> Json.required "c" (Property.decode Rgba.decode)
    <*> Json.required "o" (Property.decode Json.decodeFloat)
    <*> Json.required "w" (Property.decode Json.decodeFloat)
    <*> Json.required "lc" Json.decodeUInt8
    <*> Json.required "lj" Json.decodeUInt8
    <*> Json.required "ml" Json.decodeFloat
    <*> Json.required "bm" Json.decodeUInt8
    <*> Json.required "nm" Json.decodeString

end StrokeStyle

namespace Trim

/-- The members of the record. -/
def members (trim : Trim) : List (String × Json) :=
  [("nm", .string trim.name), ("ix", .ofUInt8 trim.index), ("hd", .bool trim.hidden),
    ("s", trim.start.toJson .ofFloat), ("e", trim.stop.toJson .ofFloat),
    ("o", trim.offset.toJson .ofFloat), ("m", .ofUInt8 trim.mode)]

def reader : Json.RecordReader Trim :=
  mk <$> Json.required "nm" Json.decodeString
    <*> Json.required "ix" Json.decodeUInt8
    <*> Json.required "hd" Json.decodeBool
    <*> Json.required "s" (Property.decode Json.decodeFloat)
    <*> Json.required "e" (Property.decode Json.decodeFloat)
    <*> Json.required "o" (Property.decode Json.decodeFloat)
    <*> Json.required "m" Json.decodeUInt8

end Trim

/-! ## Items -/

/-- The tags of items. -/
inductive ShapeTag where
  | ellipse
  | curve
  | style
  | trim
  | transform
  | group
  deriving DecidableEq

namespace ShapeTag

/-- Every tag, in the order of their numbers. -/
def all : List ShapeTag :=
  [.ellipse, .curve, .style, .trim, .transform, .group]

def word : ShapeTag → String
  | .ellipse => "el"
  | .curve => "sh"
  | .style => "st"
  | .trim => "tm"
  | .transform => "tr"
  | .group => "gr"

/-- The tag that a word stands for. -/
def ofWord? (word : String) : Option ShapeTag :=
  all.find? fun tag => tag.word == word

end ShapeTag

inductive ShapeItem where
  | ellipse (ellipse : Ellipse)
  | curve (curve : Curve)
  /-- A style for the curves before it. -/
  | style (style : StrokeStyle)
  /-- A trim of the curves before it. -/
  | trim (trim : Trim)
  /-- The placement of the items before it. -/
  | transform (transform : Transform)
  /-- Items that belong together. -/
  | group (items : List ShapeItem) (name : Option String)

def ShapeItem.tag : ShapeItem → ShapeTag
  | .ellipse _ => .ellipse
  | .curve _ => .curve
  | .style _ => .style
  | .trim _ => .trim
  | .transform _ => .transform
  | .group _ _ => .group

/-- A record with its tag in front. -/
def tagged (tag : ShapeTag) (members : List (String × Json)) : Json :=
  .object (("ty", .string tag.word) :: members)

mutual
/-- The item as a record. -/
def ShapeItem.toJson : ShapeItem → Json
  | .ellipse item => tagged .ellipse item.members
  | .curve item => tagged .curve item.members
  | .style item => tagged .style item.members
  | .trim item => tagged .trim item.members
  | .transform item => tagged .transform item.members
  | .group items name =>
    tagged .group ([("it", .array (itemsToJson items))] ++ Json.optionalMember "nm" .string name)

/-- The items as records. -/
def itemsToJson : List ShapeItem → List Json
  | [] => []
  | item :: rest => item.toJson :: itemsToJson rest
end

end Lottie
end AnimatedGlyph
