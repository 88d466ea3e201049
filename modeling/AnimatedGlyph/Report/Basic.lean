/-
Reports on texts.

A text is cut at its newlines, and a line without a character that is not blank
does not count.  A line is cut into tokens at blanks, commas and backspaces, any
number of which stand between two tokens.

Two rules say what a token stands for: it may be the name of a glyph in the table,
in any case of its letters, or the code of a glyph.  Names win.  Both rules see the
token without its characters outside ASCII, and a token that has no others is
refused beforehand.  The objection to a token that no rule accepts is that of the
last rule.

A report has an entry for each line, with the glyphs and the violations among its
tokens in order.  A text is valid if one of its tokens stands for a glyph; the report
on any other text ends with one more violation, which speaks of the text as a whole.
-/
import AnimatedGlyph.Glyph.Table
import AnimatedGlyph.Report.Finding
import AnimatedGlyph.Text.Blank
import AnimatedGlyph.Text.Pieces

namespace AnimatedGlyph

/-! ## Lines and tokens -/

namespace Text

/-- Whether the character ends a line. -/
def isNewline (c : Char) : Bool :=
  c == '\n'

/-- Whether the character stands between tokens. -/
def isSeparator (c : Char) : Bool :=
  isBlank c || c == ',' || c == '\x08'

/-- The lines that are not blank, without the blanks at their ends. -/
def lines (s : String) : List String :=
  (((pieces isNewline s.toList).map trimChars).filter fun line => !line.isEmpty).map String.ofList

def tokens (line : String) : List String :=
  (runs isSeparator line.toList).map String.ofList

/-- The ASCII characters of a token. -/
def asciiPart (token : String) : String :=
  String.ofList (token.toList.filter fun c => c.toNat < 128)

end Text

/-! ## Resolving tokens -/

/-- What a token turns out to be. -/
abbrev Finding := Except Violation ResolvedGlyph

def resolveName (table : GlyphTable) (token : String) : Finding :=
  let name := Text.lowercase token
  match table.get? name with
  | some code => .ok ⟨name, code, .named⟩
  | none => .error ⟨token, .unknownName⟩

/-- Resolve a token as the code of a glyph. -/
def resolveCode (token : String) : Finding :=
  match GlyphCode.parse token with
  | .ok code => .ok ⟨token, code, .raw⟩
  | .error cause => .error ⟨token, .badCode cause⟩

def resolveToken (table : GlyphTable) (token : String) : Finding :=
  let ascii := Text.asciiPart token
  if ascii.isEmpty then .error ⟨token, .notAscii⟩
  else
    match resolveName table ascii with
    | .ok glyph => .ok glyph
    | .error _ => resolveCode ascii

/-! ## Lines -/

/-- What is found out about a line. -/
structure LineReport where
  /-- The number of lines before it. -/
  index : Nat
  glyphs : List ResolvedGlyph
  violations : List Violation
  deriving DecidableEq

namespace LineReport

/-- Put what a token turns out to be in front. -/
def put (finding : Finding) (line : LineReport) : LineReport :=
  match finding with
  | .ok glyph => { line with glyphs := glyph :: line.glyphs }
  | .error violation => { line with violations := violation :: line.violations }

/-- Whether the line has a glyph. -/
def isUsable (line : LineReport) : Bool :=
  !line.glyphs.isEmpty

/-- The report on a line as a record. -/
def toJson (line : LineReport) : Json :=
  .object [("index", .ofCount line.index), ("glyphs", .ofList ResolvedGlyph.toJson line.glyphs),
    ("violations", .ofList Violation.toJson line.violations)]

end LineReport

/-! ## Texts -/

/-- What is found out about a text. -/
structure Report where
  /-- Whether the text has a glyph. -/
  isValid : Bool
  lines : List LineReport
  /-- The violations of the lines, and the one of the text if it has no glyph. -/
  violations : List Violation
  deriving DecidableEq

namespace Report

/-- The lines that have a glyph. -/
def usableLines (report : Report) : List LineReport :=
  report.lines.filter LineReport.isUsable

/-- The number of glyphs. -/
def glyphCount (report : Report) : Nat :=
  (report.lines.flatMap LineReport.glyphs).length

/-- Whether a violation is an error. -/
def hasErrors (report : Report) : Bool :=
  report.violations.any fun violation => violation.severity == .error

/-- The report as a record. -/
def toJson (report : Report) : Json :=
  .object [("valid", .bool report.isValid), ("lines", .ofList LineReport.toJson report.lines),
    ("violations", .ofList Violation.toJson report.violations)]

end Report

def reportLine (table : GlyphTable) (index : Nat) (line : String) : LineReport :=
  (Text.tokens line).foldr (fun token found => found.put (resolveToken table token))
    ⟨index, [], []⟩

def report (table : GlyphTable) (text : String) : Report :=
  let lines := (Text.lines text).mapIdx (reportLine table)
  let isValid := lines.any LineReport.isUsable
  let violations := lines.flatMap LineReport.violations
  ⟨isValid, lines,
    if isValid then violations else violations ++ [⟨Text.trim text, .noUsableGlyph⟩]⟩

end AnimatedGlyph
