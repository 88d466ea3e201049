/-
Animated properties of the Lottie format.

A property has either one value for all time or a list of keyframes.  The flag `a`
says which of the two it is, but a reader goes by the value itself: whatever reads
as a list of keyframes is one, and anything else is a fixed value.

Member names of the format are short; the fields here carry the meaning.
-/
import AnimatedGlyph.Json.Record

namespace AnimatedGlyph
namespace Lottie

/-! ## Keyframes -/

/-- A handle of the curve along which a value eases, one number for each dimension. -/
structure Easing where
  /-- The progress in time. -/
  time : List Float
  /-- The progress of the value. -/
  value : List Float
  deriving DecidableEq

namespace Easing

/-- A handle in one dimension. -/
def single (time value : Float) : Easing := ⟨[time], [value]⟩

/-- The handle as a record. -/
def toJson (easing : Easing) : Json :=
  .object [("x", .ofList .ofFloat easing.time), ("y", .ofList .ofFloat easing.value)]

/-- Reads a handle. -/
def reader : Json.RecordReader Easing :=
  mk <$> Json.required "x" (Json.decodeList Json.decodeFloat)
    <*> Json.required "y" (Json.decodeList Json.decodeFloat)

end Easing

/-- The value of a property from a frame on. -/
structure Keyframe where
  /-- The handle at which the curve arrives. -/
  easeIn : Option Easing
  /-- The handle at which the curve leaves. -/
  easeOut : Option Easing
  /-- The frame. -/
  time : UInt32
  /-- The value, one number for each dimension. -/
  value : List Float
  deriving DecidableEq

namespace Keyframe

/-- A value that is held from a frame on. -/
def hold (time : UInt32) (value : Float) : Keyframe :=
  ⟨none, none, time, [value]⟩

/-- A value that eases towards the next one. -/
def eased (time : UInt32) (value : Float) (easeIn easeOut : Easing) : Keyframe :=
  ⟨some easeIn, some easeOut, time, [value]⟩

/-- The keyframe as a record. -/
def toJson (keyframe : Keyframe) : Json :=
  .object (Json.optionalMember "i" Easing.toJson keyframe.easeIn ++
    Json.optionalMember "o" Easing.toJson keyframe.easeOut ++
      [("t", .ofUInt32 keyframe.time), ("s", .ofList .ofFloat keyframe.value)])

def reader : Json.RecordReader Keyframe :=
  mk <$> Json.optional "i" Easing.reader.decode
    <*> Json.optional "o" Easing.reader.decode
    <*> Json.required "t" Json.decodeUInt32
    <*> Json.required "s" (Json.decodeList Json.decodeFloat)

/-- A keyframe from its record. -/
def decode : Json.Decoder Keyframe :=
  reader.decode

end Keyframe

/-! ## Properties -/

/-- What a property is over time. -/
inductive PropertyValue (α : Type) where
  /-- It changes with the keyframes. -/
  | keyframes (frames : List Keyframe)
  /-- It is always the same. -/
  | fixed (value : α)
  deriving DecidableEq

namespace PropertyValue

def toJson {α : Type} (encode : α → Json) : PropertyValue α → Json
  | .keyframes frames => .ofList Keyframe.toJson frames
  | .fixed value => encode value

/-- A list of keyframes, or else a fixed value. -/
def decodeEither {α : Type} (decode : Json.Decoder α) : Json.Decoder (PropertyValue α) :=
  fun depth draft =>
    match Json.decodeList Keyframe.decode depth draft with
    | .ok frames => .ok (.keyframes frames)
    | .error _ => (decode depth draft).map .fixed

/-- A value of either kind, which is read whole before its kind is determined. -/
def decode {α : Type} (decode : Json.Decoder α) : Json.Decoder (PropertyValue α) :=
  Json.afterWhole (decodeEither decode)

end PropertyValue

/-- A property of a shape or a transform. -/
structure Property (α : Type) where
  /-- Zero for a fixed value, one for keyframes. -/
  flag : UInt8
  value : PropertyValue α
  /-- The number of the property among its like. -/
  index : Option UInt8
  deriving DecidableEq

namespace Property

/-- A property that never changes. -/
def fixed {α : Type} (value : α) : Property α :=
  ⟨0, .fixed value, none⟩

def animated {α : Type} (frames : List Keyframe) : Property α :=
  ⟨1, .keyframes frames, none⟩

/-- The property with a number. -/
def withIndex {α : Type} (property : Property α) (index : UInt8) : Property α :=
  { property with index := some index }

/-- The keyframes of the property, if it has them. -/
def keyframes? {α : Type} (property : Property α) : Option (List Keyframe) :=
  match property.value with
  | .keyframes frames => some frames
  | .fixed _ => none

/-- The property as a record. -/
def toJson {α : Type} (encode : α → Json) (property : Property α) : Json :=
  .object ([("a", .ofUInt8 property.flag), ("k", property.value.toJson encode)] ++
    Json.optionalMember "ix" .ofUInt8 property.index)

def reader {α : Type} (decode : Json.Decoder α) : Json.RecordReader (Property α) :=
  mk <$> Json.required "a" Json.decodeUInt8
    <*> Json.required "k" (PropertyValue.decode decode)
    <*> Json.optional "ix" Json.decodeUInt8

/-- A property from its record. -/
def decode {α : Type} (decode : Json.Decoder α) : Json.Decoder (Property α) :=
  (reader decode).decode

end Property
end Lottie
end AnimatedGlyph
