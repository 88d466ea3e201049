/-
Carrying out a command line.

The dictionary is loaded before the settings, and when either fails nothing else is
done.  A text without a glyph is reported on like any other, but it has no sticker,
and no file is written for it.

What a command does is an `Action`: it says something and ends, or it has a file to
write and says afterwards how that went, or it stops without a word because a frame
does not fit in its word.  `run` carries out an action in a directory of files.
-/
import AnimatedGlyph.Command.Invocation
import AnimatedGlyph.Files.Directory
import AnimatedGlyph.Sticker.Manifest

namespace AnimatedGlyph
namespace Command

/-! ## Output -/

/-- How a value is laid out. -/
inductive TextForm where
  /-- On one line. -/
  | compact
  /-- Over several lines. -/
  | pretty
  deriving DecidableEq

/-- What is said, if anything is, and the status in the end. -/
structure Output where
  value : Option Json
  /-- How it is laid out. -/
  form : TextForm
  status : UInt8

/-- The status of a success. -/
def succeeded : UInt8 := 0

/-- The status of a failure. -/
def failed : UInt8 := 1

/-- The status when a text has no glyph, or when arguments are not understood. -/
def unusable : UInt8 := 2

/-- The status when arithmetic overflows. -/
def overflowed : UInt8 := 101

/-- The text of a value in a layout, with the members of objects in ascending order of their
names. -/
def TextForm.layOut (form : TextForm) (value : Json) : String :=
  match form with
  | .compact => value.settle.compact ++ "\n"
  | .pretty => value.settle.pretty ++ "\n"

namespace Output

/-- The text that is printed. -/
def text (output : Output) : String :=
  match output.value with
  | some value => output.form.layOut value
  | none => ""

/-- A failure to load a file. -/
def loadFailure (message : String) : Output :=
  ⟨some (.object [("error", .string message)]), .compact, failed⟩

/-- A compilation that came to nothing. -/
def noSticker (message : String) (status : UInt8) : Output :=
  ⟨some (.object [("success", .bool false), ("error", .string message)]), .compact, status⟩

/-- A text without a glyph. -/
def noGlyphs : Output :=
  .noSticker "No glyphs found" unusable

/-- What is said when a file was written, or was not. -/
def ofSaving (path : String) (size : Nat) : Option FileFault → Output
  | none =>
    ⟨some (.object [("success", .bool true), ("path", .string path), ("sizeBytes", .ofCount size)]),
      .compact, succeeded⟩
  | some fault => .noSticker fault.report failed

/-- An overflow, which ends everything at once. -/
def ofOverflow : Output :=
  ⟨none, .compact, overflowed⟩

end Output

/-! ## Tasks -/

/-- What a command does. -/
inductive Action where
  /-- Say something and end. -/
  | finish (output : Output)
  /-- Write a file and say how that went. -/
  | save (path : String) (content : List UInt8)
  /-- Stop where arithmetic overflows. -/
  | stop

/-- What a command finds around it. -/
structure Surroundings where
  /-- What is found at a path. -/
  view : String → FileView
  /-- What marks this run. -/
  stamp : Stamp
  /-- The random source of requests without a seed. -/
  chance : RandomSource

/-- An entry of the list of glyphs. -/
def glyphEntry (entry : String × GlyphCode) : Json :=
  .object [("name", .string entry.1), ("code", entry.2.toJson)]

/-- The content of a file for a document: its payload if the path has the extension
of payloads, and its text otherwise. -/
def fileContent (path : String) (document : AnimationDocument) : Checked (List UInt8) :=
  if Path.extension? path = some payloadExtension then document.payload
  else document.text.map textBytes

/-- Carry out a task. -/
def Task.perform (task : Task) (compiler : GlyphCompiler) (surroundings : Surroundings) : Action :=
  match task with
  | .glyphs => .finish ⟨some (.ofList glyphEntry compiler.table.toList), .pretty, succeeded⟩
  | .validate text =>
    let report := compiler.report text
    .finish ⟨some report.toJson, .pretty, if report.isValid then succeeded else unusable⟩
  | .compile request none =>
    match compiler.compileSticker surroundings.stamp surroundings.chance request with
    | none => .stop
    | some none => .finish .noGlyphs
    | some (some sticker) =>
      .finish ⟨some (.object [("success", .bool true), ("sticker", sticker.toJson)]), .pretty,
        succeeded⟩
  | .compile request (some path) =>
    match compiler.compileRequest surroundings.chance request with
    | none => .finish .noGlyphs
    | some document =>
      match fileContent path document with
      | none => .stop
      | some content => .save path content

/-! ## Invocations -/

/-- The table of glyphs that an invocation asks for. -/
def loadTable (view : String → FileView) : Option String → Except String GlyphTable
  | none => .ok .builtin
  | some path =>
    (GlyphTable.load path (view path)).mapError fun error =>
      "Failed to load glyphs: " ++ GlyphTable.loadMessage error

/-- The settings that an invocation asks for. -/
def loadSettings (view : String → FileView) : Option String → Except String StickerSettings
  | none => .ok .standard
  | some path =>
    (StickerSettings.load path (view path)).mapError fun error =>
      "Failed to load config: " ++ StickerSettings.loadMessage error

namespace Invocation

/-- The compiler that an invocation asks for. -/
def loadCompiler (invocation : Invocation) (view : String → FileView) :
    Except String GlyphCompiler := do
  let table ← loadTable view invocation.dictionary
  let settings ← loadSettings view invocation.settings
  return ⟨table, settings⟩

/-- What an invocation does. -/
def action (invocation : Invocation) (surroundings : Surroundings) : Action :=
  match invocation.loadCompiler surroundings.view with
  | .error message => .finish (.loadFailure message)
  | .ok compiler => invocation.task.perform compiler surroundings

/-- Carry out an invocation in a directory of files. -/
def run (invocation : Invocation) (directory : Directory) (stamp : Stamp) (chance : RandomSource) :
    Output × Directory :=
  match invocation.action ⟨directory.view, stamp, chance⟩ with
  | .stop => (.ofOverflow, directory)
  | .finish output => (output, directory)
  | .save path content =>
    match directory.write path content with
    | .ok changed => (.ofSaving path content.length none, changed)
    | .error fault => (.ofSaving path content.length (some fault), directory)

end Invocation
end Command
end AnimatedGlyph
