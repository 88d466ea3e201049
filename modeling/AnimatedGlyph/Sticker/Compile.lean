/-
Compiling a text.

Each glyph of a text becomes a stroke in a window of its own, and the glyphs of a
line share the timeline.  A line that has a glyph takes the next colour of the
palette; how thick its strokes are depends on its place among all lines.  A text of
one line has each glyph's label set above the grid, letter by letter.

Every word goes on top of the words before it, its letters on top of its stroke, and
below everything lie the grid and the background.  A text without a glyph has no
document.
-/
import AnimatedGlyph.Caption.Typeset
import AnimatedGlyph.Document.Basic
import AnimatedGlyph.Engine
import AnimatedGlyph.Random.ChaCha
import AnimatedGlyph.Report.Basic
import AnimatedGlyph.Sticker.Request
import AnimatedGlyph.Sticker.Settings

namespace AnimatedGlyph

/-- The width of the strokes in a line: eight in the first line, and from there on
rising with the number of lines that follow, which counts modulo twenty. -/
def strokeWidth (index lines : Nat) : Float :=
  if index = 0 then 8.0
  else Number.toHundredths (6.0 + Float.ofNat ((lines - index) % 20) * 0.6)

/-- Compiles texts with a table of glyphs and settings. -/
structure GlyphCompiler where
  table : GlyphTable
  /-- How stickers are made. -/
  settings : StickerSettings

/-- What all words of a text have in common. -/
structure Scene where
  /-- How stickers are made. -/
  settings : StickerSettings
  options : CompileOptions
  lines : Nat

namespace Scene

/-- The canvas, on which a caption needs room. -/
def canvas (scene : Scene) : Canvas :=
  scene.settings.canvas.forLineCount scene.lines

/-- The nodes on the canvas, for which they are projected once. -/
def layout (scene : Scene) : Layout :=
  .ofCanvas scene.canvas

/-- Where the nodes lie. -/
def points (scene : Scene) : Projection :=
  scene.layout.points

/-- Whether words have captions. -/
def hasCaptions (scene : Scene) : Bool :=
  scene.options.showCaption && scene.lines == 1

/-- The letters of a word. -/
def captionLayers (scene : Scene) (window : FrameWindow) (label : String) : List Layer :=
  if scene.hasCaptions then
    typesetCentred scene.canvas window scene.settings.width.toFloat scene.settings.captionTop label
  else []

/-- The stroke of a word. -/
def strokeLayer (scene : Scene) (colour : Colour) (width : Float) (glyph : ResolvedGlyph)
    (window : FrameWindow) (source : RandomSource) : Layer × RandomSource :=
  let (path, source) := StrokePath.ofEdges (glyph.code.edges scene.points) source
  (.stroke glyph.label window path colour width scene.options.animated, source)

/-- Put the words of a line on top of the layers `below`. -/
def stackWords (scene : Scene) (colour : Colour) (width : Float) :
    List (ResolvedGlyph × FrameWindow) → List Layer → RandomSource → List Layer × RandomSource
  | [], below, source => (below, source)
  | (glyph, window) :: rest, below, source =>
    let (stroke, source) := scene.strokeLayer colour width glyph window source
    scene.stackWords colour width rest
      (scene.captionLayers window glyph.label ++ stroke :: below) source

/-- Put a line on top of the layers `below`. -/
def stackLine (scene : Scene) (cursor : PaletteCursor) (line : LineReport) (below : List Layer)
    (source : RandomSource) : List Layer × RandomSource :=
  let windows := schedule line.glyphs.length scene.settings.totalFrames
  scene.stackWords cursor.colour (strokeWidth line.index scene.lines) (line.glyphs.zip windows)
    below source

/-- Put lines that have glyphs on top of the layers `below`. -/
def stackLines (scene : Scene) : PaletteCursor → List LineReport → List Layer → RandomSource →
    List Layer × RandomSource
  | _, [], below, source => (below, source)
  | cursor, line :: rest, below, source =>
    let (below, source) := scene.stackLine cursor line below source
    scene.stackLines cursor.advance rest below source

/-- The layers that lie below all words. -/
def ground (scene : Scene) : List Layer :=
  let settings := scene.settings
  [.grid scene.points settings.totalFrames,
    .background settings.background settings.width settings.height settings.totalFrames]

def document (scene : Scene) (layers : List Layer) : AnimationDocument where
  version := AnimationDocument.formatVersion
  name := scene.settings.name
  generator := Engine.signature
  frameRate := scene.settings.frameRate
  totalFrames := scene.settings.totalFrames
  width := scene.settings.width
  height := scene.settings.height
  layers := layers

end Scene

namespace GlyphCompiler

/-- The compiler with the built-in glyphs and the standard settings. -/
def standard : GlyphCompiler := ⟨.builtin, .standard⟩

def report (compiler : GlyphCompiler) (text : String) : Report :=
  AnimatedGlyph.report compiler.table text

/-- What the words of a text have in common, from the report on it. -/
def sceneOf (compiler : GlyphCompiler) (options : CompileOptions) (report : Report) : Scene :=
  ⟨compiler.settings, options, report.lines.length⟩

/-- The document of a text that has a glyph, from the report on it. -/
def assemble (compiler : GlyphCompiler) (options : CompileOptions) (report : Report)
    (source : RandomSource) : AnimationDocument × RandomSource :=
  let scene := compiler.sceneOf options report
  let (layers, source) := scene.stackLines .first report.usableLines scene.ground source
  (scene.document layers, source)

def compile (compiler : GlyphCompiler) (options : CompileOptions) (text : String)
    (source : RandomSource) : Option AnimationDocument × RandomSource :=
  let report := compiler.report text
  if report.isValid then
    let (document, source) := compiler.assemble options report source
    (some document, source)
  else (none, source)

/-- The source that a request draws from: its own if it has a seed, and `chance`
otherwise. -/
def sourceOf (chance : RandomSource) (request : CompileRequest) : RandomSource :=
  match request.seed with
  | some seed => .ofSeed seed
  | none => chance

/-- The report on the text of a request and the document, if the text has a glyph. -/
def compileChecked (compiler : GlyphCompiler) (chance : RandomSource) (request : CompileRequest) :
    Option (Report × AnimationDocument) :=
  let report := compiler.report request.text
  if report.isValid then
    let (document, _) := compiler.assemble request.options report (sourceOf chance request)
    some (report, document)
  else none

def compileRequest (compiler : GlyphCompiler) (chance : RandomSource) (request : CompileRequest) :
    Option AnimationDocument :=
  (compiler.compileChecked chance request).map Prod.snd

/-- Compiling a request is compiling its text from its source. -/
theorem compileRequest_eq (compiler : GlyphCompiler) (chance : RandomSource)
    (request : CompileRequest) :
    compiler.compileRequest chance request =
      (compiler.compile request.options request.text (sourceOf chance request)).1 := by
  rw [compileRequest, compileChecked, compile]
  cases (compiler.report request.text).isValid <;> rfl

end GlyphCompiler
end AnimatedGlyph
