/-
Tables of named glyphs.

A table holds a code for each name.  A name that is written again gives way to the
new code, and the entries are listed in ascending order of the names.  Tables with
the same entries are equal.

A dictionary is merged into a table in place.  Its entries are written only when all of
them have been read, so that a dictionary that is refused leaves the table as it was.

A table is changed by registering a name, by merging a dictionary, and by loading a
dictionary file, which puts another table in its place.  Each step has an answer, and
a step that is refused is followed by the next one all the same.
-/
import Std.Data.ExtTreeMap
import AnimatedGlyph.Glyph.Builtin
import AnimatedGlyph.Glyph.Dictionary

namespace AnimatedGlyph

/-- The codes of named glyphs. -/
structure GlyphTable where
  codes : Std.ExtTreeMap String GlyphCode

namespace GlyphTable

/-! ## Entries -/

/-- The table without entries. -/
def empty : GlyphTable := ⟨∅⟩

def get? (table : GlyphTable) (name : String) : Option GlyphCode :=
  table.codes[name]?

/-- Whether the name has a code. -/
def contains (table : GlyphTable) (name : String) : Bool :=
  (table.get? name).isSome

/-- The names and codes in ascending order of the names. -/
def toList (table : GlyphTable) : List (String × GlyphCode) :=
  table.codes.toList.mergeSort fun entry later => entry.1 ≤ later.1

/-- The number of names. -/
def size (table : GlyphTable) : Nat :=
  table.codes.size

/-- Give a name a code, in place of the one it had. -/
def insert (table : GlyphTable) (name : String) (code : GlyphCode) : GlyphTable :=
  ⟨table.codes.insert name code⟩

/-- Give codes to names, one after the other. -/
def insertAll (table : GlyphTable) (entries : List (String × GlyphCode)) : GlyphTable :=
  entries.foldl (fun table entry => table.insert entry.1 entry.2) table

/-- Give a code to a name, which is put in lower case. -/
def register (table : GlyphTable) (name : String) (code : GlyphCode) : GlyphTable :=
  table.insert (Text.lowercase name) code

def builtin : GlyphTable :=
  builtinGlyphs.foldl (fun table entry =>
    match GlyphCode.parse entry.2 with
    | .ok code => table.register entry.1 code
    | .error _ => table) empty

/-! ## Dictionaries -/

/-- Work on a table that may be refused on the way.  What was written until then stays. -/
abbrev Work := ExceptT DictionaryError (StateM GlyphTable)

def write (entry : String × GlyphCode) : Work Unit :=
  modify fun table => table.insert entry.1 entry.2

/-- Write the entries of a dictionary, and count them. -/
def mergeWork (dictionary : GlyphDictionary) : Work Nat := do
  MonadExcept.ofExcept dictionary.checkEngine
  let entries ← MonadExcept.ofExcept dictionary.entries
  forM entries write
  return entries.length

/-- Merge a dictionary into a table: the number of its entries or the reason to refuse it,
and the table afterwards. -/
def merge (table : GlyphTable) (dictionary : GlyphDictionary) :
    Except DictionaryError Nat × GlyphTable :=
  (mergeWork dictionary).run.run table

/-- The table of the built-in glyphs and the dictionary in a file. -/
def load (path : String) (view : FileView) : Except (LoadError DictionaryError) GlyphTable :=
  if view.exists then do
    let dictionary ← view.load GlyphDictionary.decode path
    let (answer, table) := builtin.merge dictionary
    let _ ← answer.mapError .refused
    return table
  else .error (.refused (.notFound path))

/-- The message of a table that was not loaded. -/
def loadMessage : LoadError DictionaryError → String
  | .unreadable fault => fault.report
  | .malformed path fault => "Invalid glyph dictionary: " ++ malformedDetail path fault
  | .refused cause => cause.message

end GlyphTable

/-! ## Steps -/

/-- A change of a table. -/
inductive TableStep where
  | register (name : String) (code : GlyphCode)
  | merge (dictionary : GlyphDictionary)
  /-- Replace the table by one from a dictionary file. -/
  | load (path : String) (view : FileView)

/-- The number of entries that a step merged, if it merges any, or why it was refused. -/
abbrev StepAnswer := Except (LoadError DictionaryError) (Option Nat)

namespace GlyphTable

/-- Take a step. -/
def step (table : GlyphTable) : TableStep → StepAnswer × GlyphTable
  | .register name code => (.ok none, table.register name code)
  | .merge dictionary =>
    let (answer, table) := table.merge dictionary
    ((answer.mapError .refused).map some, table)
  | .load path view =>
    match load path view with
    | .ok loaded => (.ok none, loaded)
    | .error error => (.error error, table)

/-- Take steps one after the other. -/
def run (table : GlyphTable) : List TableStep → List StepAnswer × GlyphTable
  | [] => ([], table)
  | step :: rest =>
    let (answer, table) := table.step step
    let (answers, table) := table.run rest
    (answer :: answers, table)

end GlyphTable
end AnimatedGlyph
