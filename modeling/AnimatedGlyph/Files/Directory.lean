/-
Paths and a directory of files.

A path is a sequence of names between slashes.  Empty names and single dots stand for
nothing, and a name's extension is what follows its last dot, unless the dot is its
first character.

A directory holds files under their names and has no directories in it.  Paths start
from it, and what lies outside it counts as directories in which nothing can be
found.  Following a path says where it ends and what can be read or written there.
Paths and the names in them are limited in length.  The limit of a name is met only
where the name is looked up, and that of a path before anything else.
-/
import AnimatedGlyph.Files.View
import AnimatedGlyph.Text.Pieces

namespace AnimatedGlyph

/-! ## Paths -/

namespace Path

/-- The parts of a path between its slashes. -/
def parts (path : String) : List String :=
  (Text.pieces (· == '/') path.toList).map String.ofList

/-- Whether a part stands for nothing. -/
def isIdle (part : String) : Bool :=
  part == "" || part == "."

/-- The last part that stands for something, if it is a name. -/
def fileName? (path : String) : Option String :=
  match ((parts path).filter fun part => !isIdle part).getLast? with
  | some ".." => none
  | last => last

/-- The extension of a name, read backwards. -/
def extensionOf? (name : List Char) : Option (List Char) :=
  match name.dropWhile (· != '.') with
  | _ :: _ :: _ => some (name.takeWhile (· != '.'))
  | _ => none

/-- The extension of the last name of a path. -/
def extension? (path : String) : Option String := do
  let name ← fileName? path
  let reversed ← extensionOf? name.toList.reverse
  return String.ofList reversed.reverse

end Path
/-! ## Directories -/

/-- Files under their names. -/
structure Directory where
  /-- The names with the contents of the files. -/
  files : List (String × List UInt8)

/-- Where a path ends. -/
inductive Place where
  /-- At the directory. -/
  | inside
  /-- At a directory outside. -/
  | outside
  | file (name : String)
  /-- At a name in the directory that no file has. -/
  | free (name : String)
  | nowhere (fault : FileFault)
  deriving DecidableEq

/-- Why no name can be looked up at a place. -/
def Place.faultAsParent? : Place → Option FileFault
  | .inside => none
  | .outside => none
  | .file _ => some .notDirectory
  | .free _ => some .absent
  | .nowhere fault => some fault

namespace Directory

/-- The longest name, in bytes. -/
def longestName : Nat := 255

/-- The longest path, in bytes. -/
def longestPath : Nat := 4095

/-- The content of a file. -/
def content? (directory : Directory) (name : String) : Option (List UInt8) :=
  directory.files.lookup name

/-- Where one more part of a path leads. -/
def follow (directory : Directory) : Place → String → Place
  | .inside, part =>
    if Path.isIdle part then .inside
    else if part = ".." then .outside
    else if longestName < part.utf8ByteSize then .nowhere .nameTooLong
    else if (directory.content? part).isSome then .file part
    else .free part
  | .outside, part =>
    if Path.isIdle part || part == ".." then .outside
    else if longestName < part.utf8ByteSize then .nowhere .nameTooLong
    else .nowhere .absent
  | .file _, _ => .nowhere .notDirectory
  | .free _, _ => .nowhere .absent
  | .nowhere fault, _ => .nowhere fault

/-- Where parts of a path lead. -/
def followAll (directory : Directory) (path : String) (parts : List String) : Place :=
  let start := if path.toList.head? = some '/' then Place.outside else .inside
  parts.foldl directory.follow start

/-- Where a path leads. -/
def locate (directory : Directory) (path : String) : Place :=
  if path.isEmpty then .nowhere .absent
  else if longestPath < path.utf8ByteSize then .nowhere .nameTooLong
  else directory.followAll path (Path.parts path)

/-- What is found at a path. -/
def view (directory : Directory) (path : String) : FileView :=
  match directory.locate path with
  | .inside => .error .isDirectory
  | .outside => .error .isDirectory
  | .file name =>
    match directory.content? name with
    | some content => .ok content
    | none => .error .absent
  | .free _ => .error .absent
  | .nowhere fault => .error fault

/-- The files with a new one in front, which takes the place of one of its name. -/
def put (directory : Directory) (name : String) (content : List UInt8) : Directory :=
  ⟨(name, content) :: directory.files.filter fun file => file.1 != name⟩

/-- Whether a path asks for a directory by the slash after its last name. -/
def asksForDirectory (path : String) : Bool :=
  match (Path.parts path).reverse.dropWhile (· == "") with
  | last :: _ => path.toList.getLast? == some '/' && last != "." && last != ".."
  | [] => false

/-- The path without its last name and the slashes around it. -/
def parentParts (path : String) : List String :=
  ((Path.parts path).reverse.dropWhile (· == "")).tail.reverse

/-- Write a file.  A path that asks for a directory names no file, whatever its last
name is. -/
def write (directory : Directory) (path : String) (content : List UInt8) :
    Except FileFault Directory :=
  if path.utf8ByteSize ≤ longestPath && asksForDirectory path then
    let fault := (directory.followAll path (parentParts path)).faultAsParent?
    .error (fault.getD .isDirectory)
  else
    match directory.locate path with
    | .inside => .error .isDirectory
    | .outside => .error .isDirectory
    | .file name => .ok (directory.put name content)
    | .free name => .ok (directory.put name content)
    | .nowhere fault => .error fault

end Directory
end AnimatedGlyph
