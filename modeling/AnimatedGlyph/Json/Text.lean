/-
The text of a JSON value.

`compact` writes a value without white space; `pretty` puts every item and member
on a line of its own, two spaces further in than what holds it.  A string escapes
the quotation mark, the backslash and the controls, and nothing else.
-/
import AnimatedGlyph.Bytes.Text
import AnimatedGlyph.Json.Value
import AnimatedGlyph.Number.DecimalText

namespace AnimatedGlyph
namespace Json

/-! ## Leaves -/

/-- A character between the quotation marks of a string. -/
def escapeChar (c : Char) : List Char :=
  if c = '"' then ['\\', '"']
  else if c = '\\' then ['\\', '\\']
  else if c = '\x08' then ['\\', 'b']
  else if c = '\x0c' then ['\\', 'f']
  else if c = '\n' then ['\\', 'n']
  else if c = '\r' then ['\\', 'r']
  else if c = '\t' then ['\\', 't']
  else if c.toNat < 32 then
    ['\\', 'u', '0', '0'] ++ Bytes.hexByte (UInt8.ofNat c.toNat)
  else [c]

/-- A string in its quotation marks. -/
def stringText (s : String) : String :=
  String.ofList ('"' :: s.toList.flatMap escapeChar ++ ['"'])

/-- The numeral of a number. -/
def numberText : JsonNumber → String
  | .natural n => toString n.toNat
  | .negative n => "-" ++ toString (n.val + 1)
  | .double x => (Number.floatText? x.val).getD "null"

/-- The word for a truth value. -/
def boolText (b : Bool) : String :=
  if b then "true" else "false"

/-! ## Without white space -/

mutual
/-- The value without white space. -/
def compact : Json → String
  | .null => "null"
  | .bool b => boolText b
  | .number n => numberText n
  | .string s => stringText s
  | .array [] => "[]"
  | .array (item :: rest) => "[" ++ compact item ++ compactItems rest ++ "]"
  | .object [] => "\x7b\x7d"
  | .object (member :: rest) => "\x7b" ++ compactMember member ++ compactMembers rest ++ "\x7d"

/-- The items after the first of an array. -/
def compactItems : List Json → String
  | [] => ""
  | item :: rest => "," ++ compact item ++ compactItems rest

/-- A member of an object. -/
def compactMember : String × Json → String
  | (name, value) => stringText name ++ ":" ++ compact value

/-- The members after the first of an object. -/
def compactMembers : List (String × Json) → String
  | [] => ""
  | member :: rest => "," ++ compactMember member ++ compactMembers rest
end

/-! ## On lines -/

/-- A new line, `depth` levels in. -/
def lineStart (depth : Nat) : String :=
  String.ofList ('\n' :: List.replicate (2 * depth) ' ')

mutual
/-- The value on lines, inside `depth` arrays and objects. -/
def prettyAt (depth : Nat) : Json → String
  | .null => "null"
  | .bool b => boolText b
  | .number n => numberText n
  | .string s => stringText s
  | .array [] => "[]"
  | .array (item :: rest) =>
    "[" ++ lineStart (depth + 1) ++ prettyAt (depth + 1) item ++ prettyItems (depth + 1) rest ++
      lineStart depth ++ "]"
  | .object [] => "\x7b\x7d"
  | .object (member :: rest) =>
    "\x7b" ++ lineStart (depth + 1) ++ prettyMember (depth + 1) member ++
      prettyMembers (depth + 1) rest ++ lineStart depth ++ "\x7d"

/-- The items after the first of an array. -/
def prettyItems (depth : Nat) : List Json → String
  | [] => ""
  | item :: rest => "," ++ lineStart depth ++ prettyAt depth item ++ prettyItems depth rest

/-- A member of an object. -/
def prettyMember (depth : Nat) : String × Json → String
  | (name, value) => stringText name ++ ": " ++ prettyAt depth value

/-- The members after the first of an object. -/
def prettyMembers (depth : Nat) : List (String × Json) → String
  | [] => ""
  | member :: rest =>
    "," ++ lineStart depth ++ prettyMember depth member ++ prettyMembers depth rest
end

/-- The value on lines. -/
def pretty (value : Json) : String :=
  prettyAt 0 value

end Json
end AnimatedGlyph
