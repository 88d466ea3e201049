/-
Compact texts are unambiguous.

No two values have the same compact text.  More than that, a value can be told from what
follows it (`Delimited`): the first byte says of which kind the value is, a string ends with
its closing mark, and a numeral ends with its last byte that can stand in a numeral, for
neither a comma nor a closing bracket can (`Ends`).  The induction needs it in this form, since
inside of an array or an object each value has the others behind it.
-/
import AnimatedGlyph.Proofs.JsonText
import AnimatedGlyph.Proofs.MemberOrder
import AnimatedGlyph.Proofs.Numerals

namespace AnimatedGlyph
namespace Json

/-! ## First bytes -/

theorem textBytes_empty : textBytes "" = [] :=
  textBytes_ofList []

theorem textBytes_inj {first second : String} (h : textBytes first = textBytes second) :
    first = second := by
  have htext := fromUTF8?_textBytes first
  rw [h, fromUTF8?_textBytes] at htext
  exact (Option.some.inj htext).symm

/-- The byte that the text of a value starts with, the digit zero for any numeral. -/
def lead : Json → UInt8
  | .null => 110
  | .bool true => 116
  | .bool false => 102
  | .number _ => 48
  | .string _ => 34
  | .array _ => 91
  | .object _ => 123

/-- A byte, or the digit zero for one that is part of a numeral. -/
def leadOfByte (b : UInt8) : UInt8 :=
  if isNumeralByte b then 48 else b

theorem isNumeralByte_of_mem_number {n : JsonNumber} :
    ∀ b ∈ bytes (number n), isNumeralByte b = true := by
  intro b hb
  rw [bytes, compact, textBytes_eq, List.mem_flatMap] at hb
  obtain ⟨c, hc, hb⟩ := hb
  exact utf8EncodeChar_of_isNumeralChar (isNumeralChar_of_mem_numberText hc) b hb

theorem bytes_number_ne_nil (n : JsonNumber) : bytes (number n) ≠ [] := fun h =>
  numberText_ne_empty n (textBytes_inj (h.trans textBytes_empty.symm))

theorem exists_lead (value : Json) :
    ∃ b more, value.bytes = b :: more ∧ leadOfByte b = value.lead := by
  cases value with
  | null => exact ⟨_, _, bytes_null, rfl⟩
  | bool b =>
    cases b with
    | true => exact ⟨_, _, bytes_true, rfl⟩
    | false => exact ⟨_, _, bytes_false, rfl⟩
  | number n =>
    obtain ⟨b, more, hbytes⟩ := List.exists_cons_of_ne_nil (bytes_number_ne_nil n)
    exact ⟨b, more, hbytes,
      if_pos (isNumeralByte_of_mem_number b (hbytes ▸ List.mem_cons_self))⟩
  | string s =>
    obtain ⟨more, hbytes, -⟩ := readString_stringText s []
    exact ⟨34, more, hbytes, rfl⟩
  | array items =>
    cases items with
    | nil => exact ⟨_, _, bytes_array_nil, rfl⟩
    | cons item rest => exact ⟨_, _, bytes_array_cons item rest, rfl⟩
  | object members =>
    cases members with
    | nil => exact ⟨_, _, bytes_object_nil, rfl⟩
    | cons member rest => exact ⟨_, _, bytes_object_cons member rest, rfl⟩

theorem lead_eq_of_append {v w : Json} {r s : List UInt8} (h : v.bytes ++ r = w.bytes ++ s) :
    v.lead = w.lead := by
  obtain ⟨b, more, hv, hlead⟩ := exists_lead v
  obtain ⟨c, others, hw, hother⟩ := exists_lead w
  rw [hv, hw, List.cons_append, List.cons_append] at h
  rw [← hlead, ← hother, (List.cons.inj h).1]

/-- No value starts with a closing bracket. -/
theorem append_ne_close {v : Json} {r s : List UInt8} : v.bytes ++ r ≠ 93 :: s := by
  obtain ⟨b, more, hv, hlead⟩ := exists_lead v
  rw [hv, List.cons_append]
  intro h
  rw [(List.cons.inj h).1] at hlead
  have hclose : leadOfByte 93 = 93 := rfl
  rw [hclose] at hlead
  cases v with
  | bool b => cases b <;> simp [lead] at hlead
  | _ => simp [lead] at hlead

theorem member_append_ne_close {member : String × Json} {r s : List UInt8} :
    bytesOfMember member ++ r ≠ 125 :: s := by
  obtain ⟨name, value⟩ := member
  obtain ⟨letters, hletters, -⟩ := readString_stringText name []
  rw [bytesOfMember_eq, hletters, List.cons_append, List.cons_append]
  exact fun h => absurd (List.cons.inj h).1 (by decide)

/-! ## Values in front of a rest -/

theorem number_append_inj {n m : JsonNumber} {r s : List UInt8} (hr : Ends r) (hs : Ends s)
    (h : bytes (number n) ++ r = bytes (number m) ++ s) : n = m ∧ r = s := by
  -- Nothing that follows a value can stand in a numeral.
  have hstop : ∀ {rest : List UInt8}, Ends rest → Stops isNumeralByte rest :=
    fun ends => ends.stops (by decide)
  obtain ⟨hbytes, hrest⟩ := append_inj_of_stops isNumeralByte_of_mem_number
    isNumeralByte_of_mem_number (hstop hr) (hstop hs) h
  exact ⟨numberText_inj (textBytes_inj hbytes), hrest⟩

theorem stringText_append_inj {a b : String} {r s : List UInt8}
    (h : textBytes (stringText a) ++ r = textBytes (stringText b) ++ s) : a = b ∧ r = s := by
  obtain ⟨letters, hletters, hread⟩ := readString_stringText a r
  obtain ⟨others, hothers, hother⟩ := readString_stringText b s
  rw [hletters, hothers, List.cons_append, List.cons_append] at h
  rw [(List.cons.inj h).2, hother] at hread
  have hleaf : Leaf.sound b = Leaf.sound a := (Prod.mk.inj hread).1
  exact ⟨(Except.ok.inj (Leaf.mk.inj hleaf).1).symm, (Option.some.inj (Prod.mk.inj hread).2).symm⟩

/-- What is written for `a` can be told from what follows it, and from what is written for
others. -/
def Delimited {α : Type} (write : α → List UInt8) (a : α) : Prop :=
  ∀ (b : α) (r s : List UInt8), Ends r → Ends s → write a ++ r = write b ++ s → a = b ∧ r = s

theorem delimited_member {member : String × Json} (h : Delimited bytes member.2) :
    Delimited bytesOfMember member := by
  obtain ⟨name, value⟩ := member
  rintro ⟨other, otherValue⟩ r s hr hs hbytes
  rw [bytesOfMember_eq, bytesOfMember_eq, List.append_assoc, List.append_assoc] at hbytes
  obtain ⟨rfl, hbehind⟩ := stringText_append_inj hbytes
  obtain ⟨hvalue, hrest⟩ := h otherValue r s hr hs (List.cons.inj hbehind).2
  obtain rfl : value = otherValue := hvalue
  exact ⟨rfl, hrest⟩

/-! ### Lists in brackets -/

section Lists

variable {α : Type} {write : α → List UInt8} {close : UInt8}

/-- Items behind the first of a list, each behind a comma. -/
def writeMore (write : α → List UInt8) (as : List α) : List UInt8 :=
  as.flatMap fun a => 44 :: write a

/-- Items with commas between them, and a bracket behind them. -/
def writeList (write : α → List UInt8) (close : UInt8) : List α → List UInt8
  | [] => [close]
  | a :: rest => write a ++ (writeMore write rest ++ [close])

theorem bytes_array (items : List Json) :
    bytes (.array items) = 91 :: writeList bytes 93 items := by
  cases items with
  | nil => exact bytes_array_nil
  | cons item rest =>
    rw [bytes_array_cons, bytesOfItems_eq]
    rfl

theorem bytes_object (members : List (String × Json)) :
    bytes (.object members) = 123 :: writeList bytesOfMember 125 members := by
  cases members with
  | nil => exact bytes_object_nil
  | cons member rest =>
    rw [bytes_object_cons, bytesOfMembers_eq]
    rfl

theorem ends_writeMore (hclose : close = 93 ∨ close = 125) (as : List α) (r : List UInt8) :
    Ends (writeMore write as ++ close :: r) := by
  cases as with
  | nil => exact ends_cons (by rcases hclose with rfl | rfl <;> decide) r
  | cons a rest => exact ends_cons (by decide) _

theorem writeMore_inj (hclose : close = 93 ∨ close = 125) {as : List α}
    (has : ∀ a ∈ as, Delimited write a) : ∀ {bs : List α} {r s : List UInt8},
      writeMore write as ++ close :: r = writeMore write bs ++ close :: s → as = bs ∧ r = s := by
  have hcomma : close ≠ 44 := by
    rcases hclose with rfl | rfl <;> decide
  induction as with
  | nil =>
    intro bs r s h
    cases bs with
    | nil => exact ⟨rfl, (List.cons.inj h).2⟩
    | cons b more => exact absurd (List.cons.inj h).1 hcomma
  | cons a rest ih =>
    intro bs r s h
    cases bs with
    | nil => exact absurd (List.cons.inj h).1.symm hcomma
    | cons b more =>
      obtain ⟨hfirst, hrest⟩ := List.forall_mem_cons.mp has
      simp only [writeMore, List.flatMap_cons, List.cons_append, List.append_assoc] at h
      obtain ⟨rfl, hbehind⟩ := hfirst b _ _ (ends_writeMore hclose rest r)
        (ends_writeMore hclose more s) (List.cons.inj h).2
      obtain ⟨rfl, hend⟩ := ih hrest hbehind
      exact ⟨rfl, hend⟩

/-- A list can be told from what follows it if its items can, and none of them starts with the
bracket. -/
theorem writeList_inj (hclose : close = 93 ∨ close = 125)
    (hopen : ∀ (a : α) (r s : List UInt8), write a ++ r ≠ close :: s) {as bs : List α}
    (has : ∀ a ∈ as, Delimited write a) {r s : List UInt8}
    (h : writeList write close as ++ r = writeList write close bs ++ s) : as = bs ∧ r = s := by
  cases as with
  | nil =>
    cases bs with
    | nil => exact ⟨rfl, (List.cons.inj h).2⟩
    | cons b more =>
      rw [writeList, writeList, List.append_assoc] at h
      exact absurd h.symm (hopen b _ _)
  | cons a rest =>
    cases bs with
    | nil =>
      rw [writeList, writeList, List.append_assoc] at h
      exact absurd h (hopen a _ _)
    | cons b more =>
      obtain ⟨hfirst, hrest⟩ := List.forall_mem_cons.mp has
      simp only [writeList, List.append_assoc, List.singleton_append] at h
      obtain ⟨rfl, hbehind⟩ := hfirst b _ _ (ends_writeMore hclose rest r)
        (ends_writeMore hclose more s) h
      obtain ⟨rfl, hend⟩ := writeMore_inj hclose hrest hbehind
      exact ⟨rfl, hend⟩

end Lists

/-! ### Values -/

/-- A value can be told from what follows it, and from any other value. -/
theorem delimited (v : Json) : Delimited bytes v := by
  induction v using inductionOn with
  | null =>
    intro w r s _ _ h
    have hlead := lead_eq_of_append h
    cases w with
    | null => exact ⟨rfl, List.append_cancel_left h⟩
    | bool b => cases b <;> simp [lead] at hlead
    | _ => simp [lead] at hlead
  | bool b =>
    intro w r s _ _ h
    have hlead := lead_eq_of_append h
    cases w with
    | bool c =>
      have hsame : b = c := by
        cases b <;> cases c <;> first | rfl | simp [lead] at hlead
      subst hsame
      exact ⟨rfl, List.append_cancel_left h⟩
    | _ => cases b <;> simp [lead] at hlead
  | number n =>
    intro w r s hr hs h
    have hlead := lead_eq_of_append h
    cases w with
    | number m =>
      obtain ⟨hsame, hrest⟩ := number_append_inj hr hs h
      exact ⟨congrArg Json.number hsame, hrest⟩
    | bool b => cases b <;> simp [lead] at hlead
    | _ => simp [lead] at hlead
  | string a =>
    intro w r s _ _ h
    have hlead := lead_eq_of_append h
    cases w with
    | string b =>
      obtain ⟨hsame, hrest⟩ := stringText_append_inj h
      exact ⟨congrArg Json.string hsame, hrest⟩
    | bool b => cases b <;> simp [lead] at hlead
    | _ => simp [lead] at hlead
  | array items ih =>
    intro w r s _ _ h
    have hlead := lead_eq_of_append h
    cases w with
    | array others =>
      rw [bytes_array, bytes_array] at h
      obtain ⟨hitems, hrest⟩ := writeList_inj (.inl rfl) (fun _ _ _ => append_ne_close) ih
        (List.cons.inj h).2
      exact ⟨congrArg Json.array hitems, hrest⟩
    | bool b => cases b <;> simp [lead] at hlead
    | _ => simp [lead] at hlead
  | object members ih =>
    intro w r s _ _ h
    have hlead := lead_eq_of_append h
    cases w with
    | object others =>
      rw [bytes_object, bytes_object] at h
      obtain ⟨hmembers, hrest⟩ := writeList_inj (.inr rfl) (fun _ _ _ => member_append_ne_close)
        (fun member hmember => delimited_member (ih member hmember)) (List.cons.inj h).2
      exact ⟨congrArg Json.object hmembers, hrest⟩
    | bool b => cases b <;> simp [lead] at hlead
    | _ => simp [lead] at hlead

/-- Values are equal if their compact texts are. -/
theorem compact_inj {v w : Json} : v.compact = w.compact ↔ v = w := by
  refine ⟨fun h => ?_, congrArg compact⟩
  exact (delimited v w [] [] ends_nil ends_nil (congrArg (fun text => textBytes text ++ []) h)).1

end Json
end AnimatedGlyph
