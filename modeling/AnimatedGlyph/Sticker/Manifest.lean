/-
Stickers with their manifests.

A sticker is a payload together with what is known about it: the engine, the key
of the request, the hash of the document, and the report on the text.  The stamp of
the run is not computed; it comes with the request.
-/
import AnimatedGlyph.Bytes.Text
import AnimatedGlyph.Sticker.Compile
import AnimatedGlyph.Sticker.Payload
import AnimatedGlyph.Sticker.Stamp

namespace AnimatedGlyph

structure Sticker where
  /-- The run it comes from. -/
  stamp : Stamp
  engineVersion : String
  cacheKey : String
  documentHash : String
  mediaType : String
  validation : Report
  payload : List UInt8

namespace Sticker

/-- The length of the payload. -/
def size (sticker : Sticker) : Nat :=
  sticker.payload.length

/-- The manifest, which holds the payload as well. -/
def toJson (sticker : Sticker) : Json :=
  .object [("id", .string sticker.stamp.id), ("engine_version", .string sticker.engineVersion),
    ("created_at", .string sticker.stamp.createdAt), ("cache_key", .string sticker.cacheKey),
    ("document_hash", .string sticker.documentHash), ("media_type", .string sticker.mediaType),
    ("size_bytes", .ofCount sticker.size), ("validation", sticker.validation.toJson),
    ("data_base64", .string (Bytes.base64 sticker.payload))]

/-- The sticker of a request from the report on its text and its document. -/
def ofDocument (stamp : Stamp) (request : CompileRequest) (validation : Report)
    (document : AnimationDocument) : Checked Sticker := do
  let payload ← document.payload
  let hash ← document.hash
  return {
    stamp := stamp
    engineVersion := Engine.versionText
    cacheKey := stickerKey request.text request.options Engine.versionText
    documentHash := hash
    mediaType := payloadMediaType
    validation := validation
    payload := payload }

/-- The sticker of a request from its report and its document, if it has these. -/
def ofChecked (stamp : Stamp) (request : CompileRequest) :
    Option (Report × AnimationDocument) → Checked (Option Sticker)
  | none => some none
  | some (validation, document) => (ofDocument stamp request validation document).map some

end Sticker

namespace GlyphCompiler

/-- The sticker of a request, if its text has a glyph. -/
def compileSticker (compiler : GlyphCompiler) (stamp : Stamp) (chance : RandomSource)
    (request : CompileRequest) : Checked (Option Sticker) :=
  Sticker.ofChecked stamp request (compiler.compileChecked chance request)

end GlyphCompiler
end AnimatedGlyph
