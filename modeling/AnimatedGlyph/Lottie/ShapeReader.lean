/-
Reading shapes.

The tag of an item may stand anywhere among its members, so the other members are
read whole and set aside until the tag is known.  From there on the fields of the
item are taken from what was set aside, and every problem with them is a mismatch.

An item may also be an array, with the tag first and the fields after it in order;
the fields of a transform, which belong to the item only through a record of their
own, need their names.

The items of a group are set aside together with the group.  What was set aside may
give a tag by its number as well as by its word.
-/
import AnimatedGlyph.Lottie.Shape

namespace AnimatedGlyph
namespace Lottie

open Json (Draft DraftMember Fault Decoder)

/-! ## Tags -/

/-- A tag by its word or, if `byNumber` allows it, by its number. -/
def ShapeTag.decode (byNumber : Bool) : Decoder ShapeTag
  | _, .string leaf => do
    match ofWord? (← leaf.value) with
    | some tag => return tag
    | none => .error .mismatch
  | _, .number leaf => do
    match byNumber, ← leaf.value with
    | true, .natural n =>
      match all[n.toNat]? with
      | some tag => return tag
      | none => .error .mismatch
    | _, _ => .error .mismatch
  | _, draft => .error draft.refusal

/-- The tag among the members of an item, and the members that are set aside.
`found` holds the tag once it has been met. -/
def takeTag (byNumber : Bool) (depth : Nat) :
    Option ShapeTag → List DraftMember → Except Fault (Option ShapeTag × List DraftMember)
  | found, [] => .ok (found, [])
  | found, (leaf, value) :: rest => do
    let name ← leaf.value
    if name = "ty" then
      if found.isSome then .error .mismatch
      else
        let tag ← ShapeTag.decode byNumber depth value
        takeTag byNumber depth (some tag) rest
    else
      let _ ← value.value depth
      let (tag, aside) ← takeTag byNumber depth found rest
      return (tag, (leaf, value) :: aside)

/-- The tag of an item and what is set aside of it. -/
def splitItem (byNumber : Bool) : Nat → Draft → Except Fault (ShapeTag × Draft)
  | depth + 1, .object members stop => do
    let (tag, aside) ← takeTag byNumber depth none members
    match stop, tag with
    | some fault, _ => .error fault
    | none, none => .error .mismatch
    | none, some tag => return (tag, .object aside none)
  | depth + 1, .array (first :: rest) stop => do
    let tag ← ShapeTag.decode byNumber depth first
    let _ ← Json.valueItems depth rest
    Json.orFault (tag, .array rest none) stop
  | _ + 1, .array [] stop => .error (stop.getD .mismatch)
  | 0, .object _ _ => .error .malformed
  | 0, .array _ _ => .error .malformed
  | _, draft => .error draft.refusal

/-! ## Items -/

/-- Reads the fields of a group, given how its items are read. -/
def groupReader (item : Decoder ShapeItem) : Json.RecordReader ShapeItem :=
  .group <$> Json.required "it" (Json.decodeList item) <*> Json.optional "nm" Json.decodeString

/-- The item with a given tag, from what was set aside of it. -/
def decodeTagged (item : Decoder ShapeItem) (tag : ShapeTag) : Decoder ShapeItem :=
  fun depth draft =>
    match tag with
    | .ellipse => (Ellipse.reader.decode depth draft).map .ellipse
    | .curve => (Curve.reader.decode depth draft).map .curve
    | .style => (StrokeStyle.reader.decode depth draft).map .style
    | .trim => (Trim.reader.decode depth draft).map .trim
    | .transform => (Transform.reader.decodeObject depth draft).map .transform
    | .group => (groupReader item).decode depth draft

/-- An item whose groups are nested less than `fuel` deep. -/
def decodeItem (byNumber : Bool) : Nat → Decoder ShapeItem
  | 0 => fun _ _ => .error .malformed
  | fuel + 1 => fun depth draft => do
    let (tag, aside) ← splitItem byNumber depth draft
    (decodeTagged (decodeItem true fuel) tag depth aside).mapError fun _ => .mismatch

/-- An item from its record.  The nesting that is left bounds the nesting of its
groups. -/
def ShapeItem.decode : Decoder ShapeItem := fun depth draft =>
  decodeItem false (depth + 1) depth draft

end Lottie
end AnimatedGlyph
