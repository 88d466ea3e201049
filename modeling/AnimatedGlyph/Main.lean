/-
The command line.

Everything that a command does is computed by `AnimatedGlyph.Command`; here files are
read and written, and the time and random bytes are taken from the system.
-/
import Std.Time.DateTime
import AnimatedGlyph.Command.Run

namespace AnimatedGlyph
namespace Command

/-- What the command line understands. -/
def usage : String :=
  "Usage: glyphsticker-cli [-g FILE] [-c FILE] [-v] COMMAND\n\n" ++
  "Commands:\n" ++
  "  glyphs                 List known glyph names\n" ++
  "  validate -i TEXT       Validate input text\n" ++
  "  compile -i TEXT [--static] [--no-caption] [--seed N] [-o FILE]\n" ++
  "                         Compile input text into a sticker\n" ++
  "  help                   Show this text\n\n" ++
  "Options:\n" ++
  "  -g, --glyphs FILE      Extra glyph dictionary (JSON) merged over the built-in glyphs\n" ++
  "  -c, --config FILE      Sticker config (JSON)\n" ++
  "  -v, --verbose          Log debug output to stderr\n"

/-- The fault that the system reports. -/
def faultOf : IO.Error → FileFault
  | .noFileOrDirectory .. => .absent
  | .inappropriateType _ 21 _ => .isDirectory
  | .inappropriateType _ _ "is a directory" => .isDirectory
  | .inappropriateType _ _ "illegal operation on a directory" => .isDirectory
  | .inappropriateType .. => .notDirectory
  | error => .other (toString error)

/-- What is found at a path. -/
def viewFile (path : String) : IO FileView := do
  try
    return .ok (← IO.FS.readBinFile path).toList
  catch error =>
    return .error (faultOf error)

/-- Write a file, and the fault if that fails. -/
def saveFile (path : String) (content : List UInt8) : IO (Option FileFault) := do
  try
    IO.FS.writeBinFile path ⟨content.toArray⟩
    return none
  catch error =>
    return some (faultOf error)

/-- The stamp of this run. -/
def takeStamp : IO Stamp := do
  let bytes ← IO.getRandomBytes 16
  let now ← Std.Time.Timestamp.now
  let nanoseconds := now.toNanosecondsSinceUnixEpoch.val.toNat
  return .ofRandom bytes.toList (nanoseconds / 1000000000) (nanoseconds % 1000000000)

/-- A random source that no other run has. -/
def takeChance : IO RandomSource := do
  let bytes ← IO.getRandomBytes 8
  return .ofSeed (bytes.toList.foldl (fun n b => 256 * n + b.toUInt64) 0)

/-- What an invocation finds around it. -/
def takeSurroundings (invocation : Invocation) : IO Surroundings := do
  let paths := invocation.dictionary.toList ++ invocation.settings.toList
  let views ← paths.mapM fun path => do return (path, ← viewFile path)
  return ⟨fun path => (views.lookup path).getD (.error .absent), ← takeStamp, ← takeChance⟩

/-- Print an output and end with its status. -/
def finish (output : Output) : IO UInt32 := do
  IO.print output.text
  return output.status.toUInt32

/-- Carry out an invocation. -/
def perform (invocation : Invocation) : IO UInt32 := do
  if invocation.verbose then IO.eprintln Engine.signature
  match invocation.action (← takeSurroundings invocation) with
  | .finish output => finish output
  | .save path content => finish (.ofSaving path content.length (← saveFile path content))
  | .stop => finish .ofOverflow

end Command
end AnimatedGlyph

/-- Carry out a command line. -/
def main (args : List String) : IO UInt32 := do
  match AnimatedGlyph.Command.Invocation.parse args with
  | .ok invocation => AnimatedGlyph.Command.perform invocation
  | .error .help => do
    IO.print AnimatedGlyph.Command.usage
    return 0
  | .error .refused => do
    IO.eprint AnimatedGlyph.Command.usage
    return 2
