/-
Sessions with one compiler.

A session makes calls on a compiler one after the other.  Bare compilations draw from
a source that they share; requests have sources of their own.  The session counts
how often a text was validated and how often the nodes were projected, at the places
where this is done, and nothing else passes from one call to the next.  Both counters
have 32 bits and go on from zero after their greatest number.  A call that stops at a
number too large for its word has been counted like any other.
-/
import AnimatedGlyph.Sticker.Manifest

namespace AnimatedGlyph

/-- A call on a compiler. -/
inductive Call where
  /-- Compile a text with the shared source. -/
  | compile (text : String) (options : CompileOptions)
  | request (request : CompileRequest)
  | sticker (stamp : Stamp) (request : CompileRequest)
  | validate (text : String)
  | settings
  /-- Look up a name. -/
  | glyph (name : String)

/-- The answer to a call. -/
inductive Answer where
  /-- A document, if the text has a glyph. -/
  | document (document : Option AnimationDocument)
  /-- A sticker, if the text has a glyph and the frames of its document are words. -/
  | sticker (sticker : Checked (Option Sticker))
  | report (report : Report)
  | settings (settings : StickerSettings)
  /-- The code of a name, if it has one. -/
  | glyph (code : Option GlyphCode)

/-- What calls are made on, and what they leave behind. -/
structure Session where
  compiler : GlyphCompiler
  /-- The source that bare compilations share. -/
  source : RandomSource
  /-- The source of requests without a seed. -/
  chance : RandomSource
  /-- How often the nodes have been projected. -/
  projections : UInt32
  /-- How often a text has been validated. -/
  validations : UInt32

namespace Session

/-- The session before its first call. -/
def begin (compiler : GlyphCompiler) (source chance : RandomSource) : Session :=
  ⟨compiler, source, chance, 0, 0⟩

/-- Report on a text.  This is where texts are counted. -/
def validate (session : Session) (text : String) : Report × Session :=
  (session.compiler.report text, { session with validations := session.validations + 1 })

/-- The document of a text from the report on it.  The counter of projections goes on by
those of the layout in which the document has its nodes. -/
def assemble (session : Session) (options : CompileOptions) (report : Report)
    (source : RandomSource) : AnimationDocument × RandomSource × Session :=
  let (document, source) := session.compiler.assemble options report source
  let layout := (session.compiler.sceneOf options report).layout
  (document, source, { session with projections := layout.counter session.projections })

/-- The document of a text, if it has a glyph, drawn from the shared source. -/
def compile (session : Session) (options : CompileOptions) (text : String) :
    Option AnimationDocument × Session :=
  let (report, session) := session.validate text
  if report.isValid then
    let (document, source, session) := session.assemble options report session.source
    (some document, { session with source := source })
  else (none, session)

/-- The report on the text of a request and the document, if the text has a glyph.  The
request has a source of its own. -/
def compileChecked (session : Session) (request : CompileRequest) :
    Option (Report × AnimationDocument) × Session :=
  let (report, session) := session.validate request.text
  if report.isValid then
    let source := GlyphCompiler.sourceOf session.chance request
    let (document, _, session) := session.assemble request.options report source
    (some (report, document), session)
  else (none, session)

/-- Make a call. -/
def call (session : Session) : Call → Answer × Session
  | .compile text options =>
    let (document, session) := session.compile options text
    (.document document, session)
  | .request request =>
    let (checked, session) := session.compileChecked request
    (.document (checked.map Prod.snd), session)
  | .sticker stamp request =>
    let (checked, session) := session.compileChecked request
    (.sticker (Sticker.ofChecked stamp request checked), session)
  | .validate text =>
    let (report, session) := session.validate text
    (.report report, session)
  | .settings => (.settings session.compiler.settings, session)
  | .glyph name => (.glyph (session.compiler.table.get? name), session)

/-- Make calls one after the other. -/
def run (session : Session) : List Call → List Answer × Session
  | [] => ([], session)
  | call :: rest =>
    let (answer, session) := session.call call
    let (answers, session) := session.run rest
    (answer :: answers, session)

end Session
end AnimatedGlyph
