/-
The payload of a sticker.

A payload is the compact text of a document in a gzip member.  Reading it back gives
the Lottie form of the document.  Two documents have the same hash if their canonical
texts are the same.
-/
import AnimatedGlyph.Document.Wire
import AnimatedGlyph.Json.Canonical
import AnimatedGlyph.Payload.Gzip
import AnimatedGlyph.Sticker.Request

namespace AnimatedGlyph

def payloadMediaType : String := "application/x-tgsticker"

/-- The extension of files with payloads. -/
def payloadExtension : String := "tgs"

/-- Why a payload was not read. -/
inductive PayloadError where
  /-- It is no gzip member. -/
  | corrupt
  /-- Its text is no animation. -/
  | unreadable (fault : Json.Fault)
  deriving DecidableEq

/-- The hash of a JSON value, which is that of its canonical text. -/
def documentHash (value : Json) : String :=
  textHash value.canonical

namespace AnimationDocument

/-- The compact text of a document. -/
def text (document : AnimationDocument) : Checked String :=
  document.toJson.map Json.compact

def payload (document : AnimationDocument) : Checked (List UInt8) :=
  document.text.map fun text => Payload.gzip (textBytes text)

def hash (document : AnimationDocument) : Checked String :=
  document.toJson.map documentHash

end AnimationDocument

def readPayload (payload : List UInt8) : Except PayloadError Lottie.Animation :=
  match Payload.gunzip? payload with
  | none => .error .corrupt
  | some bytes => (Json.ofText Lottie.Animation.decode bytes).mapError .unreadable

end AnimatedGlyph
