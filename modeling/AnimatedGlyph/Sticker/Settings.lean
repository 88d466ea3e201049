/-
The settings of a sticker.

Settings are read from a file in which every field may be absent.  `check` says
which settings can be used; the first condition that fails is reported.
-/
import AnimatedGlyph.Document.Basic
import AnimatedGlyph.Files.View

namespace AnimatedGlyph

/-- How stickers are made. -/
structure StickerSettings where
  canvas : Canvas
  totalFrames : UInt32
  width : UInt32
  height : UInt32
  /-- How far from the top the caption stands. -/
  captionTop : Float
  /-- The colour of the background as it is written. -/
  background : String
  name : String
  deriving DecidableEq

/-- Why settings cannot be used. -/
inductive SettingsError where
  /-- The animation has no two frames. -/
  | tooFewFrames (count : UInt32)
  /-- The sticker has no area. -/
  | emptySize
  /-- The grid has no extent. -/
  | scaleNotPositive
  deriving DecidableEq

/-- The message of a refusal. -/
def SettingsError.message : SettingsError → String
  | .tooFewFrames count =>
    "Invalid configuration: totalFrames must be at least 2, got " ++ toString count.toNat
  | .emptySize => "Invalid configuration: canvas size must be non-zero"
  | .scaleNotPositive => "Invalid configuration: scale must be positive"

namespace StickerSettings

/-- The settings unless a file says otherwise. -/
def standard : StickerSettings where
  canvas := .standard
  totalFrames := 180
  width := 512
  height := 512
  captionTop := 30.0
  background := "#000000"
  name := AnimationDocument.standardName

/-- The number of frames in a second: every sticker lasts three seconds. -/
def frameRate (settings : StickerSettings) : Float :=
  settings.totalFrames.toFloat / 3.0

/-- The settings as a record. -/
def toJson (settings : StickerSettings) : Json :=
  .object [("canvas", settings.canvas.toJson), ("totalFrames", .ofUInt32 settings.totalFrames),
    ("width", .ofUInt32 settings.width), ("height", .ofUInt32 settings.height),
    ("captionTop", .ofFloat settings.captionTop), ("background", .string settings.background),
    ("name", .string settings.name)]

/-- Reads settings, in which every field may be absent. -/
def reader : Json.RecordReader StickerSettings :=
  mk <$> Json.defaulted "canvas" Canvas.decode standard.canvas
    <*> Json.defaulted "totalFrames" Json.decodeUInt32 standard.totalFrames
    <*> Json.defaulted "width" Json.decodeUInt32 standard.width
    <*> Json.defaulted "height" Json.decodeUInt32 standard.height
    <*> Json.defaulted "captionTop" Json.decodeFloat standard.captionTop
    <*> Json.defaulted "background" Json.decodeString standard.background
    <*> Json.defaulted "name" Json.decodeString standard.name

/-- Settings from their record. -/
def decode : Json.Decoder StickerSettings :=
  reader.decode

/-- Refuse settings that cannot be used. -/
def check (settings : StickerSettings) : Except SettingsError Unit :=
  if settings.totalFrames < 2 then .error (.tooFewFrames settings.totalFrames)
  else if settings.width = 0 ∨ settings.height = 0 then .error .emptySize
  else if settings.canvas.scale ≤ 0.0 then .error .scaleNotPositive
  else .ok ()

def load (path : String) (view : FileView) : Except (LoadError SettingsError) StickerSettings := do
  let settings ← view.load decode path
  settings.check.mapError .refused
  return settings

/-- The message of settings that were not loaded. -/
def loadMessage : LoadError SettingsError → String
  | .unreadable fault => fault.report
  | .malformed path fault => "Invalid configuration: " ++ malformedDetail path fault
  | .refused cause => cause.message

end StickerSettings
end AnimatedGlyph
