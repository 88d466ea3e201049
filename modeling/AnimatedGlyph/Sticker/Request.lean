/-
What is asked of the compiler.

A request is a text with options and, if the sticker is to be the same every time,
a seed.  Its key stands for everything that its sticker depends on apart from the
settings: the text without the blanks at its ends, the options, and the engine.
-/
import AnimatedGlyph.Digest.Sha256
import AnimatedGlyph.Json.Record
import AnimatedGlyph.Text.Blank

namespace AnimatedGlyph

/-- How a text is compiled. -/
structure CompileOptions where
  /-- Whether the strokes move. -/
  animated : Bool
  /-- Whether a text of one line has a caption. -/
  showCaption : Bool
  deriving DecidableEq

namespace CompileOptions

/-- The options unless a request says otherwise. -/
def standard : CompileOptions := ⟨true, true⟩

/-- The options as a record. -/
def toJson (options : CompileOptions) : Json :=
  .object [("animated", .bool options.animated), ("showCaption", .bool options.showCaption)]

/-- Reads options, each of which may be absent. -/
def reader : Json.RecordReader CompileOptions :=
  mk <$> Json.defaulted "animated" Json.decodeBool standard.animated
    <*> Json.defaulted "showCaption" Json.decodeBool standard.showCaption

/-- Options from their record. -/
def decode : Json.Decoder CompileOptions :=
  reader.decode

end CompileOptions

/-- A text to compile. -/
structure CompileRequest where
  text : String
  options : CompileOptions
  /-- The seed of the tangents, if they are to be the same every time. -/
  seed : Option UInt64
  deriving DecidableEq

namespace CompileRequest

/-- The request as a record. -/
def toJson (request : CompileRequest) : Json :=
  .object [("text", .string request.text), ("options", request.options.toJson),
    ("seed", .ofOption .ofUInt64 request.seed)]

def reader : Json.RecordReader CompileRequest :=
  mk <$> Json.required "text" Json.decodeString
    <*> Json.defaulted "options" CompileOptions.decode .standard
    <*> Json.optional "seed" Json.decodeUInt64

/-- A request from its record. -/
def decode : Json.Decoder CompileRequest :=
  reader.decode

end CompileRequest

/-! ## Keys -/

def textBytes (text : String) : List UInt8 :=
  text.toUTF8.toList

def textHash (text : String) : String :=
  Digest.sha256Hex (textBytes text)

/-- What the key of a request starts with: stickers that do not move are kept
apart. -/
def keyPrefix (options : CompileOptions) : String :=
  if options.animated then "" else "static:"

/-- The text that the key of a request is the hash of. -/
def keyText (text : String) (options : CompileOptions) (engine : String) : String :=
  keyPrefix options ++ Text.trim text ++ ":" ++ Json.boolText options.showCaption ++ ":" ++ engine

/-- The key of a request. -/
def stickerKey (text : String) (options : CompileOptions) (engine : String) : String :=
  textHash (keyText text options engine)

end AnimatedGlyph
