/-
What a single pass over a JSON text finds.

A typed reader goes through a text once, from the left, and the first problem it
meets decides its answer: a text that stops short, a text that is no JSON, or a
value of the wrong shape.  To let the shape be checked by functions on trees
while keeping that order, the pass over the text yields a `Draft`, a tree that
reaches as far as the text can be followed and holds the fault that ended it at
the place where it was met.  A typed reader walks the draft from left to right
and so meets the same problems in the same order.

A value of no interest is passed over, which asks less of it than reading it
does: its numbers may be too large and its strings may hold halves of surrogate
pairs.  A `Leaf` therefore records both what reading it gives and what passing
over it runs into.
-/
import AnimatedGlyph.Json.Value

namespace AnimatedGlyph
namespace Json

/-- Why a text or a value was not read. -/
inductive Fault where
  /-- The text is no JSON. -/
  | malformed
  /-- The text ends too early. -/
  | truncated
  /-- The value has the wrong shape. -/
  | mismatch
  deriving DecidableEq, Repr

/-- The name of a fault in an answer. -/
def Fault.category : Fault → String
  | .malformed => "syntax"
  | .truncated => "eof"
  | .mismatch => "data"

/-- A number or a string of the text. -/
structure Leaf (α : Type) where
  /-- What reading it gives. -/
  value : Except Fault α
  /-- The fault that passing over it runs into, after which the text cannot be
  followed. -/
  passed : Option Fault

/-- A leaf that is read without a fault. -/
def Leaf.sound {α : Type} (a : α) : Leaf α :=
  ⟨.ok a, none⟩

/-- The tree of a text, as far as the text can be followed. -/
inductive Draft where
  /-- The value `null`. -/
  | null
  /-- A truth value. -/
  | bool (b : Bool)
  | number (leaf : Leaf JsonNumber)
  | string (leaf : Leaf String)
  /-- The items of an array, and the fault met where a comma or the closing
  bracket should stand. -/
  | array (items : List Draft) (stop : Option Fault)
  /-- The members of an object, and the fault met where a comma, a name or the
  closing brace should stand. -/
  | object (members : List (Leaf String × Draft)) (stop : Option Fault)
  /-- No value stands where one should. -/
  | missing (fault : Fault)

mutual
/-- The draft of a value, which has no faults. -/
def draft : Json → Draft
  | .null => .null
  | .bool b => .bool b
  | .number n => .number (.sound n)
  | .string s => .string (.sound s)
  | .array items => .array (draftItems items) none
  | .object members => .object (draftMembers members) none

def draftItems : List Json → List Draft
  | [] => []
  | item :: rest => draft item :: draftItems rest

def draftMember : String × Json → Leaf String × Draft
  | (name, value) => (.sound name, draft value)

def draftMembers : List (String × Json) → List (Leaf String × Draft)
  | [] => []
  | member :: rest => draftMember member :: draftMembers rest
end

end Json
end AnimatedGlyph
