/-
The numerals of numbers.

A numeral has digits, signs, a point and the mark of an exponent, and no other characters.  An
integer is written in digits behind its sign, and a double has a point or an exponent besides
them.  Integers read back, and doubles have different texts, so that all numbers have
(`numberText_inj`).
-/
import AnimatedGlyph.Proofs.DecimalParts
import AnimatedGlyph.Proofs.NumberText

namespace AnimatedGlyph
namespace Json

open Number (DecimalParts)

/-! ## Characters of numerals -/

/-- The characters that numerals are made of. -/
def isNumeralChar (c : Char) : Bool :=
  c.isDigit || c == '+' || c == '-' || c == '.' || c == 'e'

/-- The bytes that numerals are made of. -/
def isNumeralByte (b : UInt8) : Bool :=
  isDigit b || b == 43 || b == 45 || b == 46 || b == 101

theorem isNumeralChar_of_isDigit {c : Char} (h : c.isDigit = true) : isNumeralChar c = true := by
  rw [isNumeralChar, h]
  rfl

theorem toNat_lt_of_isNumeralChar {c : Char} (h : isNumeralChar c = true) : c.toNat < 128 := by
  simp only [isNumeralChar, Bool.or_eq_true, beq_iff_eq] at h
  rcases h with (((h | rfl) | rfl) | rfl) | rfl
  · exact Nat.lt_of_le_of_lt (Char.isDigit_iff_toNat.mp h).2 (by decide)
  all_goals decide

/-- To show something of the characters of numerals, it is enough to look at them all. -/
theorem forall_isNumeralChar {P : Char → Prop}
    (h : ∀ n < 128, isNumeralChar (Char.ofNat n) = true → P (Char.ofNat n)) {c : Char}
    (hc : isNumeralChar c = true) : P c := by
  have hall := h c.toNat (toNat_lt_of_isNumeralChar hc)
  rw [Char.ofNat_toNat] at hall
  exact hall hc

theorem utf8EncodeChar_of_isNumeralChar {c : Char} (h : isNumeralChar c = true) :
    ∀ b ∈ String.utf8EncodeChar c, isNumeralByte b = true :=
  List.all_eq_true.mp (forall_isNumeralChar
    (P := fun c => (String.utf8EncodeChar c).all isNumeralByte = true) (by decide) h)

/-! ## Integers and doubles -/

/-- A text without a point and without an exponent. -/
def IsPlain (text : String) : Prop :=
  ∀ c ∈ text.toList, c.isDigit = true ∨ c = '-'

theorem isPlain_toString (n : Nat) : IsPlain (toString n) := by
  rw [Nat.toString_eq_ofList_toDigits, IsPlain, String.toList_ofList]
  exact fun c hc => .inl (Nat.isDigit_of_mem_toDigits (by decide) (by decide) hc)

theorem isPlain_negative (n : Nat) : IsPlain ("-" ++ toString n) := by
  rw [IsPlain, String.toList_append]
  refine List.forall_mem_append.mpr ⟨?_, isPlain_toString n⟩
  exact List.forall_mem_singleton.mpr (.inr rfl)

theorem isNumeralChar_of_isPlain {text : String} (h : IsPlain text) :
    ∀ c ∈ text.toList, isNumeralChar c = true := by
  intro c hc
  rcases h c hc with hdigit | rfl
  · exact isNumeralChar_of_isDigit hdigit
  · decide

theorem isNumeralChar_of_mem_chars {parts : DecimalParts} {c : Char} (h : c ∈ parts.chars) :
    isNumeralChar c = true := by
  rw [DecimalParts.chars, List.mem_append, List.mem_append] at h
  rcases h with (h | h) | h
  · exact isNumeralChar_of_isDigit (parts.digits c (List.mem_append_left _ h))
  · rcases DecimalParts.of_mem_fractionChars h with rfl | h
    · decide
    · exact isNumeralChar_of_isDigit (parts.digits c (List.mem_append_right _ h))
  · rcases DecimalParts.of_mem_exponentChars h with rfl | rfl | rfl | h
    · decide
    · decide
    · decide
    · exact isNumeralChar_of_isDigit h

theorem not_isPlain_chars (sign : String) (parts : DecimalParts) :
    ¬IsPlain (sign ++ String.ofList parts.chars) := by
  intro h
  obtain ⟨c, hc, hmark⟩ := parts.exists_mark
  have hplain := h c (by
    rw [String.toList_append, String.toList_ofList]
    exact List.mem_append_right _ hc)
  rcases hmark with rfl | rfl <;> revert hplain <;> decide

/-- The text of a double is a sign before the parts of a decimal text. -/
theorem exists_numberText_double (x : Number.FiniteFloat) : ∃ sign parts,
    numberText (.double x) = Number.signText sign ++ String.ofList (DecimalParts.chars parts) := by
  obtain ⟨sign, parts, htext, -⟩ := Number.exists_spelling x.finite
  refine ⟨sign, parts, ?_⟩
  rw [numberText, htext]
  rfl

theorem isNumeralChar_of_mem_numberText {n : JsonNumber} {c : Char}
    (h : c ∈ (numberText n).toList) : isNumeralChar c = true := by
  cases n with
  | natural n => exact isNumeralChar_of_isPlain (isPlain_toString _) c h
  | negative n => exact isNumeralChar_of_isPlain (isPlain_negative _) c h
  | double x =>
    obtain ⟨sign, parts, htext⟩ := exists_numberText_double x
    rw [htext, String.toList_append, String.toList_ofList] at h
    rcases List.mem_append.mp h with h | h
    · cases sign with
      | negative =>
        rw [List.mem_singleton.mp h]
        decide
      | positive => cases h
    · exact isNumeralChar_of_mem_chars h

theorem numberText_ne_empty (n : JsonNumber) : numberText n ≠ "" := by
  cases n with
  | natural n => simp [numberText]
  | negative n => simp [numberText]
  | double x =>
    obtain ⟨sign, parts, htext⟩ := exists_numberText_double x
    intro hempty
    refine not_isPlain_chars (Number.signText sign) parts ?_
    rw [← htext, hempty]
    exact fun c hc => absurd hc List.not_mem_nil

/-! ## Different numbers -/

theorem eq_of_readsBack {n m : JsonNumber} (hn : n.ReadsBack) (hm : m.ReadsBack)
    (h : numberText n = numberText m) : n = m := by
  rw [JsonNumber.ReadsBack, h, hm] at hn
  have hleaf : Leaf.sound m = Leaf.sound n := (Prod.mk.inj hn).1
  exact (Except.ok.inj (Leaf.mk.inj hleaf).1).symm

theorem numberText_double_ne (x : Number.FiniteFloat) {text : String} (h : IsPlain text) :
    numberText (.double x) ≠ text := by
  obtain ⟨sign, parts, htext⟩ := exists_numberText_double x
  rw [htext]
  rintro rfl
  exact not_isPlain_chars _ parts h

theorem isPlain_or_double (n : JsonNumber) :
    (n.ReadsBack ∧ IsPlain (numberText n)) ∨ ∃ x, n = .double x := by
  cases n with
  | natural n => exact .inl ⟨readsBack_natural n, isPlain_toString _⟩
  | negative n => exact .inl ⟨readsBack_negative n, isPlain_negative _⟩
  | double x => exact .inr ⟨x, rfl⟩

theorem floatText?_eq (x : Number.FiniteFloat) :
    Number.floatText? x.val = some (numberText (.double x)) := by
  obtain ⟨sign, parts, htext, -⟩ := Number.exists_spelling x.finite
  rw [numberText, htext]
  rfl

theorem double_inj {x y : Number.FiniteFloat}
    (h : numberText (.double x) = numberText (.double y)) : x = y := by
  have htext : Number.floatText? x.val = Number.floatText? y.val := by
    rw [floatText?_eq, floatText?_eq, h]
  obtain ⟨x, hx⟩ := x
  obtain ⟨y, hy⟩ := y
  cases Number.floatText_inj hx hy htext
  rfl

/-- Different numbers have different texts. -/
theorem numberText_inj {n m : JsonNumber} (h : numberText n = numberText m) : n = m := by
  rcases isPlain_or_double n with ⟨hn, hplain⟩ | ⟨x, rfl⟩
  · rcases isPlain_or_double m with ⟨hm, -⟩ | ⟨y, rfl⟩
    · exact eq_of_readsBack hn hm h
    · exact absurd h.symm (numberText_double_ne y hplain)
  · rcases isPlain_or_double m with ⟨-, hplain⟩ | ⟨y, rfl⟩
    · exact absurd h (numberText_double_ne x hplain)
    · exact congrArg JsonNumber.double (double_inj h)

end Json
end AnimatedGlyph
