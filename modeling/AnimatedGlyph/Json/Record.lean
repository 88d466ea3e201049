/-
Reading records.

A record is written as an object, whose members may come in any order and may be
joined by members that the record does not know, or as an array of its fields in
the order of their declaration.  A `RecordReader` names the fields and reads them
from the places where they stand.  It is built from single fields with the
applicative operators, in the order of declaration.

Every field is read once, and its faults carry the place where the field stands.
The walk over the members adds the faults of names, of fields given twice and of
unknown members, and the earliest fault of all is the answer.  A field that is
absent is noticed only after everything that is there.
-/
import AnimatedGlyph.Json.Decoder

namespace AnimatedGlyph
namespace Json

/-! ## Fields -/

/-- A field that is present: the place where it stands and what stands there. -/
structure Slot where
  /-- The number of members or items before it. -/
  place : Nat
  /-- Its value. -/
  draft : Draft

/-- A fault with the place where it was met. -/
abbrev PlacedFault := Nat × Fault

/-- The fault that comes first in the text. -/
def earlier : Option PlacedFault → Option PlacedFault → Option PlacedFault
  | some a, some b => if b.1 < a.1 then some b else some a
  | some a, none => some a
  | none, b => b

/-- What reading the fields of a record gives. -/
structure Outcome (α : Type) where
  /-- The earliest fault in a field that is present. -/
  fault : Option PlacedFault
  /-- The record, unless a field is faulty or absent. -/
  value : Option α

/-- Names the fields of a record and reads them from their slots. -/
structure RecordReader (α : Type) where
  /-- The names of the fields in the order of declaration. -/
  names : List String
  /-- Reads the record from one slot for each field. -/
  read : Nat → List (Option Slot) → Outcome α

namespace RecordReader

/-- A record without fields. -/
def none {α : Type} (a : α) : RecordReader α where
  names := []
  read _ _ := ⟨.none, some a⟩

/-- The fields of a function's record followed by those of its argument's. -/
def both {α β : Type} (f : RecordReader (α → β)) (x : RecordReader α) : RecordReader β where
  names := f.names ++ x.names
  read depth slots :=
    let left := f.read depth (slots.take f.names.length)
    let right := x.read depth (slots.drop f.names.length)
    ⟨earlier left.fault right.fault, left.value <*> right.value⟩

instance : Applicative RecordReader where
  pure := RecordReader.none
  seq f x := both f (x ())

/-- A field that takes a given value when it is absent, or is required if there is
no such value. -/
def field {α : Type} (name : String) (decode : Decoder α) (absent : Option α) :
    RecordReader α where
  names := [name]
  read depth slots :=
    match slots with
    | some slot :: _ =>
      match decode depth slot.draft with
      | .ok a => ⟨.none, some a⟩
      | .error fault => ⟨some (slot.place, fault), .none⟩
    | _ => ⟨.none, absent⟩

end RecordReader

/-- A field that must be present. -/
def required {α : Type} (name : String) (decode : Decoder α) : RecordReader α :=
  .field name decode none

/-- A field with a value of its own when it is absent. -/
def defaulted {α : Type} (name : String) (decode : Decoder α) (value : α) : RecordReader α :=
  .field name decode (some value)

/-- A field that may be absent or `null`. -/
def optional {α : Type} (name : String) (decode : Decoder α) : RecordReader (Option α) :=
  .field name (decodeOption decode) (some none)

/-! ## Objects -/

/-- A member of an object in a draft. -/
abbrev DraftMember := Leaf String × Draft

/-- Whether the leaf reads as a given name. -/
def Leaf.says (leaf : Leaf String) (name : String) : Bool :=
  match leaf.value with
  | .ok s => s == name
  | .error _ => false

/-- The slot of a field: the first member of its name, counted from `place`. -/
def slotOf (name : String) : Nat → List DraftMember → Option Slot
  | _, [] => none
  | place, (leaf, value) :: rest =>
    if leaf.says name then some ⟨place, value⟩ else slotOf name (place + 1) rest

/-- The earliest fault of the members apart from the values of fields: a name that
does not read, a field given again, or a fault passed in an unknown member.  `met`
holds the fields given so far. -/
def walkMembers (names met : List String) (stop : Option Fault) :
    Nat → List DraftMember → Option PlacedFault
  | place, [] => stop.map fun fault => (place, fault)
  | place, (leaf, value) :: rest =>
    match leaf.value with
    | .error fault => some (place, fault)
    | .ok name =>
      if met.contains name then some (place, .mismatch)
      else if names.contains name then walkMembers names (name :: met) stop (place + 1) rest
      else
        match value.passed with
        | some fault => some (place, fault)
        | none => walkMembers names met stop (place + 1) rest

/-! ## The record -/

/-- The answer of a reader: the earliest fault, or else the record, or else the
mismatch of an absent field. -/
def settleOutcome {α : Type} (outcome : Outcome α) (walked : Option PlacedFault) :
    Except Fault α :=
  match earlier outcome.fault walked, outcome.value with
  | some (_, fault), _ => .error fault
  | none, some a => .ok a
  | none, none => .error .mismatch

/-- The slots of items, which are the fields in order. -/
def slotsOfItems : Nat → List Draft → List (Option Slot)
  | _, [] => []
  | place, item :: rest => some ⟨place, item⟩ :: slotsOfItems (place + 1) rest

/-- The fault of an array that is a record with `count` fields: items beyond the
fields, or what ended the array. -/
def walkItems (count : Nat) (items : List Draft) (stop : Option Fault) : Option PlacedFault :=
  if count < items.length then some (count, .malformed)
  else stop.map fun fault => (items.length, fault)

/-- Take a record from an object or an array. -/
def RecordReader.decode {α : Type} (reader : RecordReader α) : Decoder α
  | 0, .object _ _ => .error .malformed
  | 0, .array _ _ => .error .malformed
  | depth + 1, .object members stop =>
    let slots := reader.names.map fun name => slotOf name 0 members
    settleOutcome (reader.read depth slots) (walkMembers reader.names [] stop 0 members)
  | depth + 1, .array items stop =>
    settleOutcome (reader.read depth (slotsOfItems 0 items))
      (walkItems reader.names.length items stop)
  | _, draft => .error draft.refusal

/-- Take a record from an object only. -/
def RecordReader.decodeObject {α : Type} (reader : RecordReader α) : Decoder α
  | depth, .array _ _ => if depth = 0 then .error .malformed else .error .mismatch
  | depth, draft => reader.decode depth draft

/-! ## Maps -/

/-- The members of an object as pairs of a name and a value, in order. -/
def decodeMembers {α : Type} (decode : Decoder α) : Decoder (List (String × α))
  | 0, .object _ _ => .error .malformed
  | depth + 1, .object members stop => do
    let pairs ← members.mapM fun (leaf, value) => do
      let name ← leaf.value
      let a ← decode depth value
      return (name, a)
    orFault pairs stop
  | _, draft => .error draft.refusal

end Json
end AnimatedGlyph
