/-
What is found out about a token.

A token either stands for a glyph or breaks a rule.  A `Violation` names the token
and the cause; the rule that was broken, the severity, the message and the advice
all follow from these two.
-/
import AnimatedGlyph.Glyph.Code

namespace AnimatedGlyph

/-! ## Glyphs -/

/-- How a token stands for a glyph. -/
inductive GlyphSource where
  /-- It is the name of the glyph. -/
  | named
  /-- It is the code of the glyph. -/
  | raw
  deriving DecidableEq

def GlyphSource.word : GlyphSource → String
  | .named => "named"
  | .raw => "raw"

/-- A token that stands for a glyph. -/
structure ResolvedGlyph where
  /-- The token: a name in lower case, or a code as it was typed. -/
  token : String
  code : GlyphCode
  /-- How the token stands for the glyph. -/
  source : GlyphSource
  deriving DecidableEq

namespace ResolvedGlyph

/-- What a layer of the glyph is called: its name, or else its code. -/
def label (glyph : ResolvedGlyph) : String :=
  match glyph.source with
  | .named => glyph.token
  | .raw => glyph.code.text

/-- The glyph as a record. -/
def toJson (glyph : ResolvedGlyph) : Json :=
  .object [("token", .string glyph.token), ("code", glyph.code.toJson),
    ("source", .string glyph.source.word)]

end ResolvedGlyph

/-! ## Violations -/

/-- How much a violation matters. -/
inductive Severity where
  /-- The text as a whole is of no use. -/
  | error
  /-- A token is passed over. -/
  | warning
  deriving DecidableEq

def Severity.word : Severity → String
  | .error => "error"
  | .warning => "warning"

/-- What is wrong with a token. -/
inductive Objection where
  /-- No ASCII character is left of it. -/
  | notAscii
  /-- No glyph has that name. -/
  | unknownName
  /-- It is no glyph code. -/
  | badCode (cause : CodeError)
  /-- No token of the text stands for a glyph. -/
  | noUsableGlyph
  deriving DecidableEq

/-- A token, or a whole text, that breaks a rule. -/
structure Violation where
  /-- The token, or the text. -/
  token : String
  /-- What is wrong with it. -/
  objection : Objection
  deriving DecidableEq

namespace Violation

/-- The name of the rule that is broken. -/
def rule (violation : Violation) : String :=
  match violation.objection with
  | .notAscii => "ascii"
  | .unknownName => "named_glyph"
  | .badCode _ => "node_code"
  | .noUsableGlyph => "no_usable_glyph"

/-- How much it matters. -/
def severity (violation : Violation) : Severity :=
  match violation.objection with
  | .noUsableGlyph => .error
  | _ => .warning

/-- What is wrong, in words. -/
def message (violation : Violation) : String :=
  match violation.objection with
  | .notAscii => "Token has no ASCII characters"
  | .unknownName => Text.quoted (Text.lowercase violation.token) ++ " is not a known glyph name"
  | .badCode cause => cause.message
  | .noUsableGlyph => "No glyphs found"

/-- What to do instead. -/
def remediation (violation : Violation) : List String :=
  match violation.objection with
  | .notAscii => ["Type glyph names or node numbers"]
  | .unknownName => ["Use a glyph name from the dictionary"]
  | .badCode (.tooShort _) => ["Connect at least two nodes"]
  | .badCode (.malformed _ _) => ["Use only nodes 0-9 and a"]
  | .badCode (.repeated _ _) => ["Do not repeat a node back to back"]
  | .noUsableGlyph => ["Provide a glyph name or a node sequence such as 0123"]

/-- The violation as a record. -/
def toJson (violation : Violation) : Json :=
  .object [("token", .string violation.token), ("rule", .string violation.rule),
    ("severity", .string violation.severity.word), ("message", .string violation.message),
    ("remediation", .ofList .string violation.remediation)]

end Violation
end AnimatedGlyph
