/-
Dictionaries of named glyphs.

A dictionary gives names to glyph codes.  It carries a version of its own and the
version of the oldest engine that understands it; an older engine refuses it whole.
A name that a text gives twice counts once, with the code that was given last.

`DictionaryError` lists every reason to refuse a dictionary.
-/
import AnimatedGlyph.Engine
import AnimatedGlyph.Glyph.Code
import AnimatedGlyph.Text.Blank
import AnimatedGlyph.Files.View

namespace AnimatedGlyph

/-! ## Entries -/

/-- The entries without those whose name comes again later. -/
def lastEntries {α : Type} : List (String × α) → List (String × α)
  | [] => []
  | entry :: rest =>
    if entry.1 ∈ rest.map Prod.fst then lastEntries rest else entry :: lastEntries rest

/-- An entry that is kept was there. -/
theorem mem_of_mem_lastEntries {α : Type} {entries : List (String × α)} {entry : String × α}
    (h : entry ∈ lastEntries entries) : entry ∈ entries := by
  induction entries with
  | nil => exact h
  | cons first rest ih =>
    rw [lastEntries] at h
    split at h
    · exact List.mem_cons_of_mem _ (ih h)
    · rcases List.mem_cons.mp h with rfl | h
      · exact List.mem_cons_self
      · exact List.mem_cons_of_mem _ (ih h)

/-- The names that are kept are distinct. -/
theorem nodup_lastEntries {α : Type} (entries : List (String × α)) :
    ((lastEntries entries).map Prod.fst).Nodup := by
  induction entries with
  | nil => exact List.nodup_nil
  | cons first rest ih =>
    rw [lastEntries]
    split
    · exact ih
    · rename_i absent
      refine List.nodup_cons.mpr ⟨fun h => absent ?_, ih⟩
      obtain ⟨entry, kept, same⟩ := List.mem_map.mp h
      exact List.mem_map.mpr ⟨entry, mem_of_mem_lastEntries kept, same⟩

/-! ## Dictionaries -/

/-- A dictionary as it is written. -/
structure GlyphDictionary where
  /-- Its own version. -/
  version : String
  /-- The version of the oldest engine that understands it. -/
  engineMinVersion : String
  /-- The names with the texts of their codes. -/
  glyphs : List (String × String)
  /-- No name is given twice. -/
  distinct : (glyphs.map Prod.fst).Nodup

namespace GlyphDictionary

/-- The dictionary of some entries, the last of each name. -/
def ofEntries (version engineMinVersion : String) (entries : List (String × String)) :
    GlyphDictionary :=
  ⟨version, engineMinVersion, lastEntries entries, nodup_lastEntries entries⟩

def reader : Json.RecordReader GlyphDictionary :=
  ofEntries <$> Json.required "version" Json.decodeString
    <*> Json.defaulted "engineMinVersion" Json.decodeString Engine.dictionaryMinimum
    <*> Json.required "glyphs" (Json.decodeMembers Json.decodeString)

/-- A dictionary from its record. -/
def decode : Json.Decoder GlyphDictionary :=
  reader.decode

end GlyphDictionary

/-! ## Refusals -/

/-- Why a dictionary is refused. -/
inductive DictionaryError where
  /-- There is no file with a dictionary. -/
  | notFound (path : String)
  /-- The version of the engine is not written as one. -/
  | unreadableVersion
  /-- A newer engine is asked for. -/
  | newerEngine (version engineMinVersion : String)
  /-- A name that no token can be. -/
  | badName (name : String)
  /-- A text that is no glyph code. -/
  | badCode (cause : CodeError)
  deriving DecidableEq

/-- The message of a refusal. -/
def DictionaryError.message : DictionaryError → String
  | .notFound path => "Glyph dictionary not found: " ++ path
  | .unreadableVersion => "Invalid glyph dictionary: Invalid dictionary min version"
  | .newerEngine version minimum =>
    "Dictionary version " ++ version ++ " requires engine >= " ++ minimum ++ ", current is " ++
      Engine.versionText
  | .badName name =>
    "Invalid glyph dictionary: glyph name " ++ Text.quoted name ++ " cannot be a single token"
  | .badCode cause => "Glyph error: " ++ cause.message

namespace GlyphDictionary

/-- Refuse a dictionary that asks for a newer engine. -/
def checkEngine (dictionary : GlyphDictionary) : Except DictionaryError Unit :=
  match SemanticVersion.parse? dictionary.engineMinVersion with
  | none => .error .unreadableVersion
  | some minimum =>
    if Engine.version.compare minimum = .lt then
      .error (.newerEngine dictionary.version dictionary.engineMinVersion)
    else .ok ()

/-- Whether a token cannot hold the character. -/
def dividesNames (c : Char) : Bool :=
  Text.isBlank c || c == ','

/-- The name under which a table knows an entry. -/
def tableName (name : String) : String :=
  Text.lowercase (Text.trim name)

/-- An entry of a table from an entry of a dictionary. -/
def readEntry (entry : String × String) : Except DictionaryError (String × GlyphCode) :=
  let name := tableName entry.1
  if name.isEmpty || name.toList.any dividesNames then .error (.badName name)
  else (GlyphCode.parse entry.2).mapError .badCode |>.map fun code => (name, code)

/-- The entries that a dictionary adds to a table. -/
def entries (dictionary : GlyphDictionary) : Except DictionaryError (List (String × GlyphCode)) :=
  dictionary.glyphs.mapM readEntry

end GlyphDictionary
end AnimatedGlyph
