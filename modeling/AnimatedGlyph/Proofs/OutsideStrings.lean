/-
What stands outside of strings.

A text is gone through from the left: a quotation mark opens a string, the next one closes it,
and a backslash in a string takes the character behind it along, whatever this is.  The
characters that stand in no string are those of `outside`.  In a compact text none of them is
white space.  The proof takes the text apart as it was put together, so a part has to leave the
reader outside of strings again (`Solid`).
-/
import AnimatedGlyph.Proofs.CompactText
import AnimatedGlyph.Text.Blank

namespace AnimatedGlyph
namespace Json

/-! ## Going through a text -/

/-- Where in a text a character stands. -/
inductive Place where
  /-- In no string. -/
  | outside
  /-- In a string. -/
  | inside
  /-- In a string, behind a backslash. -/
  | escaped
  deriving DecidableEq

/-- The place of the next character. -/
def Place.after : Place → Char → Place
  | outside, c => if c = '"' then inside else outside
  | inside, c => if c = '"' then outside else if c = '\\' then escaped else inside
  | escaped, _ => inside

/-- The characters in no string, of a text that starts at a place. -/
def outsideFrom : Place → List Char → List Char
  | _, [] => []
  | .outside, c :: rest =>
    if c = '"' then outsideFrom .inside rest else c :: outsideFrom .outside rest
  | place, c :: rest => outsideFrom (place.after c) rest

/-- The characters of a text that stand outside of strings. -/
def outside (text : String) : List Char :=
  outsideFrom .outside text.toList

theorem outsideFrom_append (place : Place) (first second : List Char) :
    outsideFrom place (first ++ second) =
      outsideFrom place first ++ outsideFrom (first.foldl Place.after place) second := by
  induction first generalizing place with
  | nil => rfl
  | cons c rest ih =>
    cases place with
    | outside =>
      rw [List.cons_append, outsideFrom, outsideFrom, List.foldl_cons, Place.after]
      split
      · exact ih .inside
      · rw [ih .outside]
        rfl
    | inside => exact ih (Place.inside.after c)
    | escaped => exact ih (Place.escaped.after c)

/-! ## Parts of a text -/

/-- A part of a text that has no white space outside of strings, and ends outside of them. -/
structure Solid (text : String) : Prop where
  leaves : text.toList.foldl Place.after .outside = .outside
  solid : ∀ c ∈ outside text, Text.isBlank c = false

theorem Solid.append {first second : String} (h : Solid first) (hsecond : Solid second) :
    Solid (first ++ second) where
  leaves := by rw [String.toList_append, List.foldl_append, h.leaves, hsecond.leaves]
  solid := by
    rw [outside, String.toList_append, outsideFrom_append, h.leaves]
    exact List.forall_mem_append.mpr ⟨h.solid, hsecond.solid⟩

/-- Neither the mark of a string nor white space. -/
def isPlainChar (c : Char) : Bool :=
  c != '"' && !Text.isBlank c

theorem isPlainChar_iff {c : Char} :
    isPlainChar c = true ↔ c ≠ '"' ∧ Text.isBlank c = false := by
  rw [isPlainChar, Bool.and_eq_true, bne_iff_ne, Bool.not_eq_true']

theorem solid_of_plain {text : String} (hplain : text.toList.all isPlainChar = true) :
    Solid text := by
  have h : ∀ c ∈ text.toList, c ≠ '"' ∧ Text.isBlank c = false := fun c hc =>
    isPlainChar_iff.mp (List.all_eq_true.mp hplain c hc)
  have hall : ∀ cs : List Char, (∀ c ∈ cs, c ≠ '"') →
      cs.foldl Place.after .outside = .outside ∧ outsideFrom .outside cs = cs := by
    intro cs hcs
    induction cs with
    | nil => exact ⟨rfl, rfl⟩
    | cons c rest ih =>
      obtain ⟨hc, hrest⟩ := List.forall_mem_cons.mp hcs
      obtain ⟨hleaves, houtside⟩ := ih hrest
      rw [List.foldl_cons, Place.after, outsideFrom, if_neg hc, if_neg hc, houtside]
      exact ⟨hleaves, rfl⟩
  obtain ⟨hleaves, houtside⟩ := hall text.toList fun c hc => (h c hc).1
  refine ⟨hleaves, fun c hc => (h c ?_).2⟩
  rwa [outside, houtside] at hc

theorem solid_numberText (n : JsonNumber) : Solid (numberText n) :=
  solid_of_plain (List.all_eq_true.mpr fun _ hc =>
    forall_isNumeralChar (P := fun c => isPlainChar c = true) (by decide)
      (isNumeralChar_of_mem_numberText hc))

/-! ## Strings -/

/-- A part of a string that has nothing outside of strings, and ends in the string. -/
def StaysInside (cs : List Char) : Prop :=
  cs.foldl Place.after .inside = .inside ∧ outsideFrom .inside cs = []

instance (cs : List Char) : Decidable (StaysInside cs) :=
  inferInstanceAs (Decidable (_ ∧ _))

theorem staysInside_escapeChar (c : Char) : StaysInside (escapeChar c) := by
  by_cases hletter : c ∈ letterEscapes.map Prod.fst
  · have hall : (letterEscapes.map Prod.fst).all (fun d => StaysInside (escapeChar d)) = true := by
      decide
    exact of_decide_eq_true (List.all_eq_true.mp hall c hletter)
  · rw [escapeChar_of_not_letter hletter]
    split
    · rename_i hcontrol
      have hall : ∀ n < 32,
          StaysInside (['\\', 'u', '0', '0'] ++ Bytes.hexByte (UInt8.ofNat n)) := by decide
      exact hall c.toNat hcontrol
    · have hquote : c ≠ '"' := by
        rintro rfl
        exact hletter (by decide)
      have hslash : c ≠ '\\' := by
        rintro rfl
        exact hletter (by decide)
      have hafter : Place.inside.after c = .inside := by
        rw [Place.after, if_neg hquote, if_neg hslash]
      refine ⟨hafter, ?_⟩
      show outsideFrom (Place.inside.after c) [] = []
      rw [hafter]
      rfl

theorem StaysInside.append {first second : List Char} (h : StaysInside first)
    (hsecond : StaysInside second) : StaysInside (first ++ second) := by
  refine ⟨?_, ?_⟩
  · rw [List.foldl_append, h.1, hsecond.1]
  · rw [outsideFrom_append, h.1, h.2, hsecond.2]
    rfl

theorem solid_stringText (s : String) : Solid (stringText s) := by
  have hletters : StaysInside (s.toList.flatMap escapeChar) := by
    induction s.toList with
    | nil => exact ⟨rfl, rfl⟩
    | cons c rest ih =>
      rw [List.flatMap_cons]
      exact (staysInside_escapeChar c).append ih
  have htext : (stringText s).toList = '"' :: (s.toList.flatMap escapeChar ++ ['"']) := by
    rw [stringText, String.toList_ofList]
    rfl
  have houtside : outside (stringText s) = [] := by
    rw [outside, htext]
    show outsideFrom .inside _ = []
    rw [outsideFrom_append, hletters.1, hletters.2]
    rfl
  refine ⟨?_, fun c hc => ?_⟩
  · rw [htext]
    show List.foldl Place.after .inside _ = _
    rw [List.foldl_append, hletters.1]
    rfl
  · rw [houtside] at hc
    cases hc

/-! ## Values -/

theorem solid_compactItems {items : List Json} (h : ∀ item ∈ items, Solid item.compact) :
    Solid (compactItems items) := by
  induction items with
  | nil => exact solid_of_plain (by decide)
  | cons item rest ih =>
    obtain ⟨hitem, hrest⟩ := List.forall_mem_cons.mp h
    exact ((solid_of_plain (by decide)).append hitem).append (ih hrest)

theorem solid_compactMember {member : String × Json} (h : Solid member.2.compact) :
    Solid (compactMember member) := by
  obtain ⟨name, value⟩ := member
  rw [compactMember]
  exact ((solid_stringText name).append (solid_of_plain (by decide))).append h

theorem solid_compactMembers {members : List (String × Json)}
    (h : ∀ member ∈ members, Solid member.2.compact) : Solid (compactMembers members) := by
  induction members with
  | nil => exact solid_of_plain (by decide)
  | cons member rest ih =>
    obtain ⟨hmember, hrest⟩ := List.forall_mem_cons.mp h
    exact ((solid_of_plain (by decide)).append (solid_compactMember hmember)).append (ih hrest)

/-- A compact text has no white space outside of strings. -/
theorem solid_compact (value : Json) : Solid value.compact := by
  induction value using inductionOn with
  | null => exact solid_of_plain (by decide)
  | bool b => cases b <;> exact solid_of_plain (by decide)
  | number n => exact solid_numberText n
  | string s => exact solid_stringText s
  | array items ih =>
    cases items with
    | nil => exact solid_of_plain (by decide)
    | cons item rest =>
      obtain ⟨hitem, hrest⟩ := List.forall_mem_cons.mp ih
      exact (((solid_of_plain (by decide)).append hitem).append
        (solid_compactItems hrest)).append (solid_of_plain (by decide))
  | object members ih =>
    cases members with
    | nil => exact solid_of_plain (by decide)
    | cons member rest =>
      obtain ⟨hmember, hrest⟩ := List.forall_mem_cons.mp ih
      exact (((solid_of_plain (by decide)).append (solid_compactMember hmember)).append
        (solid_compactMembers hrest)).append (solid_of_plain (by decide))

end Json
end AnimatedGlyph
