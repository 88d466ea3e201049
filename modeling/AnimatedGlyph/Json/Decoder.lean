/-
Reading typed values from drafts.

A `Decoder` takes a value of its type from a draft.  It goes through the draft
from left to right and stops at the first fault, and it counts the arrays and
objects that are still allowed to open.  A value of the wrong kind is a mismatch,
but a number or a string of the wrong place is still read first, so that a fault
inside it comes before the mismatch.
-/
import AnimatedGlyph.Json.Canonical
import AnimatedGlyph.Json.Reader

namespace AnimatedGlyph
namespace Json

/-- The number of arrays and objects that may be open at once. -/
def nestingLimit : Nat := 127

/-- Takes a value from a draft inside which so many arrays and objects may still
open. -/
abbrev Decoder (α : Type) := Nat → Draft → Except Fault α

/-! ## Passing over and refusing -/

/-- The first of two faults, if the first is met. -/
def firstFault : Option Fault → Option Fault → Option Fault
  | some fault, _ => some fault
  | none, later => later

mutual
/-- The fault that passing over a draft meets. -/
def Draft.passed : Draft → Option Fault
  | .null => none
  | .bool _ => none
  | .number leaf => leaf.passed
  | .string leaf => leaf.passed
  | .array items stop => firstFault (passedItems items) stop
  | .object members stop => firstFault (passedMembers members) stop
  | .missing fault => some fault

/-- The fault that passing over items meets. -/
def passedItems : List Draft → Option Fault
  | [] => none
  | item :: rest => firstFault item.passed (passedItems rest)

/-- The fault that passing over a member meets. -/
def passedMember : Leaf String × Draft → Option Fault
  | (name, value) => firstFault name.passed value.passed

/-- The fault that passing over members meets. -/
def passedMembers : List (Leaf String × Draft) → Option Fault
  | [] => none
  | member :: rest => firstFault (passedMember member) (passedMembers rest)
end

/-- The fault of a value that is not of the kind asked for. -/
def Draft.refusal : Draft → Fault
  | .number ⟨.error fault, _⟩ => fault
  | .string ⟨.error fault, _⟩ => fault
  | .missing fault => fault
  | _ => .mismatch

/-- The value if no fault stopped the text, and the fault otherwise. -/
def orFault {α : Type} (a : α) : Option Fault → Except Fault α
  | none => .ok a
  | some fault => .error fault

/-! ## Whole values -/

mutual
def Draft.value : Nat → Draft → Except Fault Json
  | _, .null => .ok .null
  | _, .bool b => .ok (.bool b)
  | _, .number leaf => leaf.value.map .number
  | _, .string leaf => leaf.value.map .string
  | 0, .array _ _ => .error .malformed
  | depth + 1, .array items stop => do
    let items ← valueItems depth items
    orFault (.array items) stop
  | 0, .object _ _ => .error .malformed
  | depth + 1, .object members stop => do
    let members ← valueMembers depth members
    orFault (.object members) stop
  | _, .missing fault => .error fault

def valueItems : Nat → List Draft → Except Fault (List Json)
  | _, [] => .ok []
  | depth, item :: rest => do
    let item ← item.value depth
    let rest ← valueItems depth rest
    return item :: rest

/-- The name and the value of a member. -/
def valueMember : Nat → Leaf String × Draft → Except Fault (String × Json)
  | depth, (name, value) => do
    let name ← name.value
    let value ← value.value depth
    return (name, value)

/-- The names and values of members. -/
def valueMembers : Nat → List (Leaf String × Draft) → Except Fault (List (String × Json))
  | _, [] => .ok []
  | depth, member :: rest => do
    let member ← valueMember depth member
    let rest ← valueMembers depth rest
    return member :: rest
end

/-- Read a value whole before taking anything from it.  A value that is not of the
right shape is then a mismatch, whatever is wrong with its shape. -/
def afterWhole {α : Type} (decode : Decoder α) : Decoder α := fun depth draft => do
  let _ ← draft.value depth
  (decode depth draft).mapError fun _ => .mismatch

/-- Take a value from a text. -/
def ofText {α : Type} (decode : Decoder α) (bs : List UInt8) : Except Fault α := do
  let (draft, trailing) := readText bs
  let a ← decode nestingLimit draft
  orFault a trailing

/-! ## Simple values -/

/-- A text. -/
def decodeString : Decoder String
  | _, .string leaf => leaf.value
  | _, draft => .error draft.refusal

/-- A truth value. -/
def decodeBool : Decoder Bool
  | _, .bool b => .ok b
  | _, draft => .error draft.refusal

/-- The double that a number stands for. -/
def toDouble : JsonNumber → Float
  | .natural n => n.toFloat
  | .negative n => -(UInt64.ofNat (n.val + 1)).toFloat
  | .double x => x.val

/-- A double, which may be written as an integer. -/
def decodeFloat : Decoder Float
  | _, .number leaf => leaf.value.map toDouble
  | _, draft => .error draft.refusal

/-- A natural number that is written as one and is at most `limit`. -/
def decodeNatural (limit : Nat) : Decoder Nat
  | _, .number leaf => do
    match ← leaf.value with
    | .natural n => if n.toNat ≤ limit then return n.toNat else .error .mismatch
    | _ => .error .mismatch
  | _, draft => .error draft.refusal

/-- A natural number of eight bits. -/
def decodeUInt8 : Decoder UInt8 := fun depth draft =>
  (decodeNatural 255 depth draft).map UInt8.ofNat

/-- A natural number of 32 bits. -/
def decodeUInt32 : Decoder UInt32 := fun depth draft =>
  (decodeNatural 4294967295 depth draft).map UInt32.ofNat

/-- A natural number of 64 bits. -/
def decodeUInt64 : Decoder UInt64 := fun depth draft =>
  (decodeNatural 18446744073709551615 depth draft).map UInt64.ofNat

/-- A value that may be `null`. -/
def decodeOption {α : Type} (decode : Decoder α) : Decoder (Option α)
  | _, .null => .ok none
  | depth, draft => (decode depth draft).map some

/-! ## Lists -/

def decodeList {α : Type} (decode : Decoder α) : Decoder (List α)
  | 0, .array _ _ => .error .malformed
  | depth + 1, .array items stop => do
    let values ← items.mapM (decode depth)
    orFault values stop
  | _, draft => .error draft.refusal

/-- A list of exactly `n` values.  Items after them are no part of the value, so
they are a fault of the text. -/
def decodeExactly {α : Type} (n : Nat) (decode : Decoder α) : Decoder (List α)
  | 0, .array _ _ => .error .malformed
  | depth + 1, .array items stop => do
    let values ← (items.take n).mapM (decode depth)
    if items.length < n then .error (stop.getD .mismatch)
    else if n < items.length then .error .malformed
    else orFault values stop
  | _, draft => .error draft.refusal

end Json
end AnimatedGlyph
