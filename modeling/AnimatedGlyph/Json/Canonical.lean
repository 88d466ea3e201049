/-
The canonical text of a JSON value.

`settle` gives every object its members in ascending order of their names, each
name once, with the value that was given last.  The canonical text is the compact
text of the settled value, so that two values with the same members have the same
canonical text.  Names are ordered by their code points, which is also the order
of their bytes.
-/
import AnimatedGlyph.Json.Text

namespace AnimatedGlyph
namespace Json

/-- Put a member in its place among members in ascending order; a member of the
same name gives way. -/
def putMember (name : String) (value : Json) : List (String × Json) → List (String × Json)
  | [] => [(name, value)]
  | (other, old) :: rest =>
    if name < other then (name, value) :: (other, old) :: rest
    else if name = other then (name, value) :: rest
    else (other, old) :: putMember name value rest

/-- The members in ascending order of their names, the last of each name. -/
def orderMembers (members : List (String × Json)) : List (String × Json) :=
  members.foldl (fun ordered member => putMember member.1 member.2 ordered) []

mutual
/-- The value with the members of every object in order. -/
def settle : Json → Json
  | .null => .null
  | .bool b => .bool b
  | .number n => .number n
  | .string s => .string s
  | .array items => .array (settleItems items)
  | .object members => .object (orderMembers (settleMembers members))

def settleItems : List Json → List Json
  | [] => []
  | item :: rest => settle item :: settleItems rest

/-- The member with its value settled. -/
def settleMember : String × Json → String × Json
  | (name, value) => (name, settle value)

/-- The members, each with its value settled. -/
def settleMembers : List (String × Json) → List (String × Json)
  | [] => []
  | member :: rest => settleMember member :: settleMembers rest
end

/-- The canonical text of a value. -/
def canonical (value : Json) : String :=
  (settle value).compact

end Json
end AnimatedGlyph
