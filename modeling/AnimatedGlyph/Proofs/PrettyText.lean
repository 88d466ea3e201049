/-
Texts on lines that read back.

A value on lines has the tokens of its compact text, with white space where lines start and behind
colons.  So its text is one of the texts of the value, at whatever depth it stands, and reading it
gives the value.
-/
import AnimatedGlyph.Proofs.JsonText

namespace AnimatedGlyph
namespace Json

variable {value : Json} {depth : Nat}

/-! ## Lines -/

/-- The bytes of a new line. -/
def lineBytes (depth : Nat) : List UInt8 :=
  10 :: List.replicate (2 * depth) 32

theorem textBytes_lineStart (depth : Nat) : textBytes (lineStart depth) = lineBytes depth := by
  have hspaces : ∀ n, (List.replicate n ' ').flatMap String.utf8EncodeChar =
      List.replicate n 32 := by
    intro n
    induction n with
    | zero => rfl
    | succ n ih =>
      rw [List.replicate_succ, List.flatMap_cons, ih]
      rfl
  rw [lineStart, textBytes_ofList, List.flatMap_cons, hspaces]
  rfl

theorem gap_lineBytes (depth : Nat) : Gap (lineBytes depth) := by
  intro b hb
  rcases List.mem_cons.mp hb with rfl | hspace
  · decide
  · rw [(List.mem_replicate.mp hspace).2]
    decide

/-! ## Bytes of the texts -/

theorem textBytes_prettyItems (depth : Nat) (items : List Json) :
    textBytes (prettyItems depth items) =
      items.flatMap fun item => 44 :: (lineBytes depth ++ textBytes (prettyAt depth item)) := by
  induction items with
  | nil => exact textBytes_ofList []
  | cons item rest ih =>
    rw [prettyItems, textBytes_append, textBytes_append, textBytes_append, textBytes_comma,
      textBytes_lineStart, ih]
    rfl

theorem textBytes_prettyMembers (depth : Nat) (members : List (String × Json)) :
    textBytes (prettyMembers depth members) =
      members.flatMap fun member =>
        44 :: (lineBytes depth ++ textBytes (prettyMember depth member)) := by
  induction members with
  | nil => exact textBytes_ofList []
  | cons member rest ih =>
    rw [prettyMembers, textBytes_append, textBytes_append, textBytes_append, textBytes_comma,
      textBytes_lineStart, ih]
    rfl

theorem spellsMember_pretty {member : String × Json}
    (h : Spells member.2 (textBytes (prettyAt depth member.2))) :
    SpellsMember member (textBytes (prettyMember depth member)) := by
  obtain ⟨name, value⟩ := member
  have hcolon : textBytes ": " = [58, 32] := textBytes_ofList [':', ' ']
  have hspace : Gap [32] := List.forall_mem_singleton.mpr (by decide)
  have hmember := @SpellsMember.mk name value [] [32] _ gap_nil hspace h
  rw [prettyMember, textBytes_append, textBytes_append, hcolon, List.append_assoc]
  exact hmember

/-! ## Reading -/

/-- The text of a value on lines is one of its texts, at every depth. -/
theorem spells_prettyAt (h : value.NumbersReadBack) :
    Spells value (textBytes (prettyAt depth value)) := by
  induction value using inductionOn generalizing depth with
  | null =>
    show Spells .null (bytes .null)
    rw [bytes_null]
    exact .null
  | bool b => exact .bool b
  | number n => exact .number (h n (List.mem_singleton_self n))
  | string s => exact .string s
  | array items ih =>
    cases items with
    | nil =>
      show Spells (.array []) (bytes (.array []))
      rw [bytes_array_nil]
      exact .emptyArray gap_nil
    | cons item rest =>
      have hitems := spellsItems_of_forall (gap_lineBytes (depth + 1)) (gap_lineBytes depth)
        fun each heach => @ih each heach (depth + 1) (h.of_item heach)
      have hopen : textBytes "[" = [91] := textBytes_ofList ['[']
      have hclose : textBytes "]" = [93] := textBytes_ofList [']']
      rw [prettyAt]
      simp only [textBytes_append, textBytes_lineStart, textBytes_prettyItems, hopen, hclose,
        List.append_assoc]
      exact @Spells.array _ (lineBytes (depth + 1)) _ (gap_lineBytes _) hitems
  | object members ih =>
    cases members with
    | nil =>
      show Spells (.object []) (bytes (.object []))
      rw [bytes_object_nil]
      exact .emptyObject gap_nil
    | cons member rest =>
      have hmembers := spellsMembers_of_forall (gap_lineBytes (depth + 1)) (gap_lineBytes depth)
        fun each heach =>
          spellsMember_pretty (@ih each heach (depth + 1) (h.of_member heach))
      have hopen : textBytes "\x7b" = [123] := textBytes_ofList ['\x7b']
      have hclose : textBytes "\x7d" = [125] := textBytes_ofList ['\x7d']
      rw [prettyAt]
      simp only [textBytes_append, textBytes_lineStart, textBytes_prettyMembers, hopen, hclose,
        List.append_assoc]
      exact @Spells.object _ (lineBytes (depth + 1)) _ (gap_lineBytes _) hmembers

end Json
end AnimatedGlyph
