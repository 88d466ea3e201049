/-
What is found at a path.

The library reads no files of its own.  It is given what was found at a path,
either the bytes of a file or the fault met on the way, and it says from that what
loading the file amounts to.
-/
import AnimatedGlyph.Json.Decoder

namespace AnimatedGlyph

/-- Why a file was not read or written. -/
inductive FileFault where
  /-- Nothing has that name. -/
  | absent
  /-- The path goes through something that is no directory. -/
  | notDirectory
  /-- The path leads to a directory. -/
  | isDirectory
  /-- The name is longer than names may be. -/
  | nameTooLong
  /-- The content is no text. -/
  | notText
  /-- Something else, in the words of the system. -/
  | other (message : String)
  deriving DecidableEq

namespace FileFault

def message : FileFault → String
  | .absent => "No such file or directory (os error 2)"
  | .notDirectory => "Not a directory (os error 20)"
  | .isDirectory => "Is a directory (os error 21)"
  | .nameTooLong => "File name too long (os error 36)"
  | .notText => "stream did not contain valid UTF-8"
  | .other message => message

/-- Whether the fault says that there is nothing at the path. -/
def leavesNothing : FileFault → Bool
  | .absent | .notDirectory | .nameTooLong => true
  | _ => false

end FileFault

/-- What is found at a path: the bytes of a file, or a fault. -/
abbrev FileView := Except FileFault (List UInt8)

/-- Whether there is something at the path. -/
def FileView.exists : FileView → Bool
  | .error fault => !fault.leavesNothing
  | .ok _ => true

/-- The bytes of a file that holds a text. -/
def FileView.textBytes : FileView → Except FileFault (List UInt8)
  | .error fault => .error fault
  | .ok bytes => if (ByteArray.mk bytes.toArray).validateUTF8 then .ok bytes else .error .notText

/-- Why a file could not be loaded. -/
inductive LoadError (ε : Type) where
  /-- The file was not read. -/
  | unreadable (fault : FileFault)
  /-- The text is not JSON of the right shape. -/
  | malformed (path : String) (fault : Json.Fault)
  /-- The content is refused. -/
  | refused (cause : ε)

/-- Load a value from the JSON text in a file. -/
def FileView.load {α ε : Type} (decode : Json.Decoder α) (path : String) (view : FileView) :
    Except (LoadError ε) α := do
  let bytes ← view.textBytes.mapError .unreadable
  (Json.ofText decode bytes).mapError (.malformed path)

/-- The message of a fault in a file. -/
def FileFault.report (fault : FileFault) : String :=
  "I/O error: " ++ fault.message

/-- What is said of a file whose text was not read as JSON. -/
def malformedDetail (path : String) (fault : Json.Fault) : String :=
  path ++ ": " ++ fault.category ++ " error"

end AnimatedGlyph
