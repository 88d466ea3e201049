/-
The engine that compiles stickers.

Dictionaries name the oldest engine that they can be used with, and documents and
keys name the engine they come from, so its version is a part of what the library
computes.
-/
import AnimatedGlyph.Glyph.Version

namespace AnimatedGlyph
namespace Engine

/-- The version of the engine. -/
def version : SemanticVersion := ⟨1, 0, 0, [], []⟩

/-- The version as it is written. -/
def versionText : String := "1.0.0"

/-- The engine that a dictionary asks for unless it says otherwise. -/
def dictionaryMinimum : String := "1.0.0"

/-- The name under which documents know the engine. -/
def signature : String := "glyphsticker-core " ++ versionText

end Engine
end AnimatedGlyph
