/-
The parts of the text of a double.

The text of a double is a sign and digits around a point, with a power of ten behind them if it
is written (`DecimalParts`).  The parts are found again in the text (`DecimalParts.chars_inj`),
and together they stand for a rational, which is that of the decimal that was written
(`Decimal.exists_parts`).  As decimals name the doubles that they are the shortest of, doubles
have different texts (`floatText_inj`).
-/
import Mathlib
import AnimatedGlyph.Number.DecimalText
import AnimatedGlyph.Proofs.ShortestDecimal
import AnimatedGlyph.Proofs.Spans

namespace AnimatedGlyph
namespace Number

open Float.Model (UnpackedFloat)
open Float.Model.UnpackedFloat (Sign)

/-! ## Layouts -/

/-- The parts of a decimal text, which has a point or an exponent. -/
structure DecimalParts where
  /-- The digits before the point. -/
  whole : List Char
  /-- The digits behind the point, none if there is no point. -/
  fraction : List Char
  /-- The power of ten, if it is written. -/
  exponent : Option Int
  digits : ∀ c ∈ whole ++ fraction, c.isDigit = true
  whole_ne_nil : whole ≠ []
  marked : fraction ≠ [] ∨ exponent.isSome = true

namespace DecimalParts

def fractionChars : List Char → List Char
  | [] => []
  | c :: rest => '.' :: c :: rest

def exponentChars : Option Int → List Char
  | none => []
  | some e => 'e' :: (if e < 0 then '-' else '+') :: Nat.toDigits 10 e.natAbs

/-- The characters of the text. -/
def chars (parts : DecimalParts) : List Char :=
  parts.whole ++ fractionChars parts.fraction ++ exponentChars parts.exponent

/-- The rational that the text stands for. -/
def value (parts : DecimalParts) : ℚ :=
  Nat.ofDigitChars 10 (parts.whole ++ parts.fraction) 0 *
    10 ^ (parts.exponent.getD 0 - parts.fraction.length)

theorem of_mem_fractionChars {cs : List Char} {c : Char} (h : c ∈ fractionChars cs) :
    c = '.' ∨ c ∈ cs := by
  cases cs with
  | nil => cases h
  | cons d rest => exact List.mem_cons.mp h

theorem of_mem_exponentChars {e : Option Int} {c : Char} (h : c ∈ exponentChars e) :
    c = 'e' ∨ c = '-' ∨ c = '+' ∨ c.isDigit = true := by
  cases e with
  | none => cases h
  | some e =>
    rcases List.mem_cons.mp h with rfl | h
    · exact .inl rfl
    · rcases List.mem_cons.mp h with rfl | h
      · split <;> simp
      · exact .inr (.inr (.inr (Nat.isDigit_of_mem_toDigits (by decide) (by decide) h)))

/-- No decimal text looks like an integer. -/
theorem exists_mark (parts : DecimalParts) : ∃ c ∈ parts.chars, c = '.' ∨ c = 'e' := by
  obtain ⟨whole, fraction, exponent, _, _, marked⟩ := parts
  rcases marked with h | h
  · obtain ⟨c, rest, rfl⟩ := List.exists_cons_of_ne_nil h
    exact ⟨'.', by simp [chars, fractionChars], .inl rfl⟩
  · obtain ⟨e, rfl⟩ := Option.isSome_iff_exists.mp h
    exact ⟨'e', by simp [chars, exponentChars], .inr rfl⟩

/-! ### Parts of a text -/

theorem stops_exponentChars (exponent : Option Int) :
    Stops Char.isDigit (exponentChars exponent) := by
  cases exponent with
  | none => exact nofun
  | some e =>
    rintro c ⟨⟩
    rfl

theorem stops_fractionChars (fraction : List Char) (exponent : Option Int) :
    Stops Char.isDigit (fractionChars fraction ++ exponentChars exponent) := by
  cases fraction with
  | nil => exact stops_exponentChars exponent
  | cons d rest =>
    rintro c ⟨⟩
    rfl

theorem exponentChars_inj {e f : Option Int} (h : exponentChars e = exponentChars f) : e = f := by
  cases e with
  | none =>
    cases f with
    | none => rfl
    | some f => cases h
  | some e =>
    cases f with
    | none => cases h
    | some f =>
      obtain ⟨hsign, hdigits⟩ := List.cons.inj (List.cons.inj h).2
      have habs : e.natAbs = f.natAbs := by
        rw [← Nat.ofDigitChars_ten_toDigits (n := e.natAbs), hdigits, Nat.ofDigitChars_ten_toDigits]
      have hnegative : e < 0 ↔ f < 0 := by
        by_cases he : e < 0 <;> by_cases hf : f < 0 <;> simp [he, hf] at hsign ⊢
      exact congrArg some (by omega)

theorem exponentChars_ne_point (e : Option Int) (rest : List Char) :
    exponentChars e ≠ '.' :: rest := by
  cases e with
  | none => exact nofun
  | some e => exact fun h => absurd (List.cons.inj h).1 (by decide)

theorem fraction_inj {fraction other : List Char} {e f : Option Int}
    (hfraction : ∀ c ∈ fraction, c.isDigit = true) (hother : ∀ c ∈ other, c.isDigit = true)
    (h : fractionChars fraction ++ exponentChars e = fractionChars other ++ exponentChars f) :
    fraction = other ∧ e = f := by
  cases fraction with
  | nil =>
    cases other with
    | nil => exact ⟨rfl, exponentChars_inj h⟩
    | cons d more => exact absurd h (exponentChars_ne_point e _)
  | cons c rest =>
    cases other with
    | nil => exact absurd h.symm (exponentChars_ne_point f _)
    | cons d more =>
      obtain ⟨hdigits, hexponent⟩ := append_inj_of_stops hfraction hother (stops_exponentChars e)
        (stops_exponentChars f) (List.cons.inj h).2
      exact ⟨hdigits, exponentChars_inj hexponent⟩

/-- The parts of a text are found again in it. -/
theorem chars_inj : ∀ {parts other : DecimalParts}, parts.chars = other.chars → parts = other := by
  rintro ⟨whole, fraction, exponent, digits, _, _⟩ ⟨others, decimals, power, more, _, _⟩ h
  obtain ⟨hdigits, hfraction⟩ := List.forall_mem_append.mp digits
  obtain ⟨hothers, hdecimals⟩ := List.forall_mem_append.mp more
  simp only [chars, List.append_assoc] at h
  obtain ⟨rfl, hrest⟩ := append_inj_of_stops hdigits hothers (stops_fractionChars _ _)
    (stops_fractionChars _ _) h
  obtain ⟨rfl, rfl⟩ := fraction_inj hfraction hdecimals hrest
  rfl

/-- Digits with a point behind the first `n` of them. -/
def split (ds : List Char) (n : Nat) (exponent : Option Int)
    (digits : ∀ c ∈ ds, c.isDigit = true) (hne : ds ≠ []) (hn : 0 < n)
    (marked : n < ds.length ∨ exponent.isSome = true) : DecimalParts where
  whole := ds.take n
  fraction := ds.drop n
  exponent := exponent
  digits := by rwa [List.take_append_drop]
  whole_ne_nil := by simp [hne, hn.ne']
  marked := marked.imp_left (by simp)

theorem value_split {ds : List Char} {n : Nat} {exponent : Option Int}
    {digits : ∀ c ∈ ds, c.isDigit = true} {hne : ds ≠ []} {hn : 0 < n}
    {marked : n < ds.length ∨ exponent.isSome = true} :
    (split ds n exponent digits hne hn marked).value =
      Nat.ofDigitChars 10 ds 0 * 10 ^ (exponent.getD 0 - (ds.length - n : Nat)) := by
  simp only [value, split, List.take_append_drop, List.length_drop]

end DecimalParts

/-! ## Decimals -/

open DecimalParts (fractionChars exponentChars)

theorem ofList_fractionChars {cs : List Char} (h : cs ≠ []) :
    String.ofList (fractionChars cs) = "." ++ String.ofList cs := by
  cases cs with
  | nil => exact absurd rfl h
  | cons c rest => exact String.ofList_cons

theorem ofList_exponentChars (e : Int) :
    String.ofList (exponentChars (some e)) =
      (if e < 0 then "e-" else "e+") ++ toString e.natAbs := by
  rw [Nat.toString_eq_ofList_toDigits, exponentChars]
  split <;> simp [← String.toList_inj]

section

variable {ds : List Char} (digits : ∀ c ∈ ds, c.isDigit = true) (hne : ds ≠ [])

include digits hne

/-- One digit before the point, and the power of ten behind. -/
theorem exists_scientific (e : Int) : ∃ parts : DecimalParts,
    String.ofList (ds.take 1) ++ (if ds.length ≤ 1 then "" else "." ++ String.ofList (ds.drop 1)) ++
        (if e < 0 then "e-" else "e+") ++ toString e.natAbs = String.ofList parts.chars ∧
      parts.value = Nat.ofDigitChars 10 ds 0 * 10 ^ (e - (ds.length - 1 : Nat)) := by
  refine ⟨.split ds 1 (some e) digits hne Nat.one_pos (.inr rfl), ?_, DecimalParts.value_split⟩
  have hfraction : String.ofList (fractionChars (ds.drop 1)) =
      if ds.length ≤ 1 then "" else "." ++ String.ofList (ds.drop 1) := by
    split
    · rename_i hone
      rw [List.drop_eq_nil_of_le hone]
      rfl
    · rename_i hmore
      exact ofList_fractionChars (List.drop_eq_nil_iff.not.mpr hmore)
  rw [DecimalParts.chars, DecimalParts.split, String.ofList_append, String.ofList_append, hfraction,
    ofList_exponentChars, ← String.append_assoc]

/-- A point behind the first digits. -/
theorem exists_pointed {n : Nat} (hn : 0 < n) (hmore : n < ds.length) : ∃ parts : DecimalParts,
    String.ofList (ds.take n) ++ "." ++ String.ofList (ds.drop n) = String.ofList parts.chars ∧
      parts.value = Nat.ofDigitChars 10 ds 0 * 10 ^ (-(ds.length - n : Nat) : Int) := by
  refine ⟨.split ds n none digits hne hn (.inl hmore), ?_, ?_⟩
  · rw [DecimalParts.chars, DecimalParts.split, String.ofList_append, String.ofList_append,
      ofList_fractionChars (by simpa using hmore), String.append_assoc, exponentChars]
    exact (String.append_empty).symm
  · rw [DecimalParts.value_split, Option.getD_none, zero_sub]

/-- Zeros behind the digits, and one more behind the point. -/
theorem exists_padded (k : Nat) : ∃ parts : DecimalParts,
    String.ofList ds ++ zeros k ++ ".0" = String.ofList parts.chars ∧
      parts.value = Nat.ofDigitChars 10 ds 0 * 10 ^ k := by
  have hzeros : ∀ c ∈ List.replicate k '0', c.isDigit = true := fun c hc =>
    List.eq_of_mem_replicate hc ▸ rfl
  have hdigits : ∀ c ∈ ds ++ List.replicate k '0' ++ ['0'], c.isDigit = true := by
    simp only [List.forall_mem_append]
    exact ⟨⟨digits, hzeros⟩, List.forall_mem_singleton.mpr rfl⟩
  have hlength : (ds ++ List.replicate k '0').length = ds.length + k := by simp
  have hpos := List.length_pos_iff.mpr hne
  obtain ⟨parts, hchars, hvalue⟩ := exists_pointed (n := ds.length + k) hdigits (by simp)
    (by omega) (by simp)
  refine ⟨parts, ?_, ?_⟩
  · have hzero : ".0" = "." ++ String.ofList ['0'] := rfl
    rw [← hchars, List.take_left' hlength, List.drop_left' hlength, zeros, String.ofList_append,
      hzero, String.append_assoc, String.append_assoc, String.append_assoc]
  · have hone : (((ds ++ List.replicate k '0' ++ ['0']).length - (ds.length + k) : Nat) : Int) =
        1 := by
      simp
    have hnumber : Nat.ofDigitChars 10 (ds ++ List.replicate k '0' ++ ['0']) 0 =
        10 * (10 ^ k * Nat.ofDigitChars 10 ds 0) := by
      rw [Nat.ofDigitChars_append, Nat.ofDigitChars_append, Nat.ofDigitChars_replicate_zero]
      rfl
    rw [hvalue, hone, hnumber]
    push_cast
    ring

/-- Zeros in front of the digits, and one more before the point. -/
theorem exists_small (k : Nat) : ∃ parts : DecimalParts,
    "0." ++ zeros k ++ String.ofList ds = String.ofList parts.chars ∧
      parts.value = Nat.ofDigitChars 10 ds 0 * 10 ^ (-(k + ds.length : Nat) : Int) := by
  have hzeros : ∀ c ∈ List.replicate k '0', c.isDigit = true := fun c hc =>
    List.eq_of_mem_replicate hc ▸ rfl
  have hdigits : ∀ c ∈ '0' :: (List.replicate k '0' ++ ds), c.isDigit = true :=
    List.forall_mem_cons.mpr ⟨by decide, List.forall_mem_append.mpr ⟨hzeros, digits⟩⟩
  have hmore : 1 < ('0' :: (List.replicate k '0' ++ ds)).length := by
    have hpos := List.length_pos_iff.mpr hne
    simp only [List.length_cons, List.length_append]
    omega
  obtain ⟨parts, hchars, hvalue⟩ := exists_pointed hdigits (by simp) Nat.one_pos hmore
  refine ⟨parts, ?_, ?_⟩
  · rw [← hchars, List.take_succ_cons, List.take_zero, List.drop_succ_cons, List.drop_zero, zeros,
      String.ofList_append, String.append_assoc]
    rfl
  · have hlength : ('0' :: (List.replicate k '0' ++ ds)).length - 1 = k + ds.length := by simp
    have hnumber : Nat.ofDigitChars 10 ('0' :: (List.replicate k '0' ++ ds)) 0 =
        Nat.ofDigitChars 10 ds 0 := by
      rw [Nat.ofDigitChars_cons, Nat.ofDigitChars_append, Nat.ofDigitChars_replicate_zero]
      simp
    rw [hvalue, hlength, hnumber]

end

/-- The text of a decimal has parts that stand for the decimal. -/
theorem Decimal.exists_parts (d : Decimal) :
    ∃ parts : DecimalParts, d.text .plain = String.ofList parts.chars ∧ parts.value = d.value := by
  obtain ⟨ds, hds⟩ : ∃ ds, ds = Nat.toDigits 10 d.digits := ⟨_, rfl⟩
  have hdigits : ∀ c ∈ ds, c.isDigit = true := fun c hc =>
    Nat.isDigit_of_mem_toDigits (by decide) (by decide) (hds ▸ hc)
  have hnumber : Nat.ofDigitChars 10 ds 0 = d.digits := by
    rw [hds, Nat.ofDigitChars_ten_toDigits]
  have hne : ds ≠ [] := by
    rw [hds]
    exact Nat.toDigits_ne_nil
  have hlength : 0 < ds.length := List.length_pos_iff.mpr hne
  have htext : (toString d.digits).toList = ds := by
    rw [Nat.toString_eq_ofList_toDigits, String.toList_ofList, hds]
  rw [Decimal.text]
  simp only [htext, DecimalStyle.plain]
  split
  · obtain ⟨parts, hchars, hvalue⟩ :=
      exists_scientific hdigits hne (d.exponent + ds.length - 1)
    refine ⟨parts, hchars, ?_⟩
    rw [hvalue, hnumber, Decimal.value]
    congr 2
    omega
  · split
    · obtain ⟨parts, hchars, hvalue⟩ := exists_padded hdigits hne d.exponent.toNat
      refine ⟨parts, hchars, ?_⟩
      rw [hvalue, hnumber, Decimal.value, ← zpow_natCast]
      congr 2
      omega
    · split
      · obtain ⟨parts, hchars, hvalue⟩ := exists_small hdigits hne
          (-(d.exponent + ds.length - 1) - 1).toNat
        refine ⟨parts, hchars, ?_⟩
        rw [hvalue, hnumber, Decimal.value]
        congr 2
        omega
      · obtain ⟨parts, hchars, hvalue⟩ := exists_pointed hdigits hne
          (n := (d.exponent + ds.length - 1).toNat + 1) (Nat.succ_pos _) (by omega)
        refine ⟨parts, hchars, ?_⟩
        rw [hvalue, hnumber, Decimal.value]
        congr 2
        omega

/-! ## Doubles -/

/-- The sign and the parts are those of the double. -/
def Spells (sign : Sign) (parts : DecimalParts) : UnpackedFloat → Prop
  | .zero s => s = sign ∧ parts.value = 0
  | .finite s m q _ => s = sign ∧ Names m q parts.value
  | _ => False

theorem exists_spelling {x : Float} (h : x.isFinite = true) :
    ∃ (sign : Sign) (parts : DecimalParts),
      floatText? x = some (signText sign ++ String.ofList parts.chars) ∧
        Spells sign parts x.toModel.unpack := by
  have hfits := fits_unpack x
  have hfinite : x.toModel.unpack.isFinite = true := h
  rw [floatText?]
  generalize x.toModel.unpack = u at hfits hfinite
  cases u with
  | zero sign =>
    obtain ⟨parts, hchars, hvalue⟩ := Decimal.exists_parts ⟨0, 0⟩
    refine ⟨sign, parts, ?_, rfl, hvalue.trans (zero_mul _)⟩
    rw [← hchars]
    exact congrArg some String.append_assoc
  | finite sign m q hm =>
    obtain ⟨parts, hchars, hvalue⟩ := Decimal.exists_parts (shortest m q)
    refine ⟨sign, parts, congrArg some (congrArg _ hchars), rfl, ?_⟩
    rw [hvalue]
    exact names_shortest hm hfits.1 hfits.2.1 hfits.2.2
  | infinity sign => cases hfinite
  | notANumber => cases hfinite

theorem Spells.unique {u w : UnpackedFloat} {sign : Sign} {parts : DecimalParts} (hu : Stored u)
    (hw : Stored w) (h : Spells sign parts u) (hother : Spells sign parts w) : u = w := by
  cases u with
  | zero s =>
    obtain ⟨rfl, hzero⟩ := h
    cases w with
    | zero t =>
      obtain ⟨rfl, -⟩ := hother
      rfl
    | finite t n f hn => exact absurd hzero (hother.2.pos hn).ne'
    | infinity t => cases hother
    | notANumber => cases hother
  | finite s m q hm =>
    obtain ⟨rfl, hnames⟩ := h
    cases w with
    | zero t => exact absurd hother.2 (hnames.pos hm).ne'
    | finite t n f hn =>
      obtain ⟨rfl, hothers⟩ := hother
      obtain ⟨hmantissa, hexponent⟩ := hnames.unique hu hw hothers
      exact finite_congr hmantissa hexponent
    | infinity t => cases hother
    | notANumber => cases hother
  | infinity s => cases h
  | notANumber => cases h

/-- No digits start with a minus sign. -/
theorem DecimalParts.chars_ne_minus (parts : DecimalParts) (rest : List Char) :
    parts.chars ≠ '-' :: rest := by
  obtain ⟨c, more, hwhole⟩ := List.exists_cons_of_ne_nil parts.whole_ne_nil
  have hdigit := parts.digits c (List.mem_append_left _ (hwhole ▸ List.mem_cons_self))
  rw [DecimalParts.chars, hwhole]
  intro h
  rw [(List.cons.inj h).1] at hdigit
  cases hdigit

theorem signText_append_inj {s t : Sign} {parts other : DecimalParts}
    (h : signText s ++ String.ofList parts.chars = signText t ++ String.ofList other.chars) :
    s = t ∧ parts = other := by
  have hchars := congrArg String.toList h
  simp only [String.toList_append, String.toList_ofList] at hchars
  cases s with
  | negative =>
    cases t with
    | negative => exact ⟨rfl, DecimalParts.chars_inj (List.cons.inj hchars).2⟩
    | positive => exact absurd hchars.symm (other.chars_ne_minus _)
  | positive =>
    cases t with
    | negative => exact absurd hchars (parts.chars_ne_minus _)
    | positive => exact ⟨rfl, DecimalParts.chars_inj hchars⟩

/-- Doubles have different texts. -/
theorem floatText_inj {x y : Float} (hx : x.isFinite = true) (hy : y.isFinite = true)
    (h : floatText? x = floatText? y) : x = y := by
  obtain ⟨s, parts, htext, hspells⟩ := exists_spelling hx
  obtain ⟨t, other, hother, hspellsOther⟩ := exists_spelling hy
  rw [htext, hother] at h
  obtain ⟨rfl, rfl⟩ := signText_append_inj (Option.some.inj h)
  have hunpack := hspells.unique (stored_unpack hx) (stored_unpack hy) hspellsOther
  have hbits := (UnpackedFloat.unpack_inj_of_valid x.toModel.valid y.toModel.valid).mp hunpack
  exact Float.toBits_inj.mp (congrArg UInt64.ofBitVec hbits)

end Number
end AnimatedGlyph
