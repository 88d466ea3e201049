/-
The numbers that doubles stand for.

A double that is a number stands for a rational, its `value`.  Unpacked, it has at most 53
digits, and the first of these is not zero unless the exponent is the least there is
(`Stored`).  A number of this form is packed without loss if there is room for its exponent
(`unpack_pack`), and two of them have the same value only if they are the same
(`Stored.eq_of_value`), so that comparing doubles is comparing values (`beq_iff_value`).
-/
import Mathlib.Algebra.Order.Field.Power
import Mathlib.Data.Rat.Cast.Order
import Mathlib.Tactic.Linarith
import Mathlib.Tactic.NormNum
import AnimatedGlyph.Proofs.FiniteFloats

namespace AnimatedGlyph
namespace Number

open Float.Model (Format UnpackedFloat)
open Float.Model.UnpackedFloat (Sign)

/-! ## Values -/

def signFactor : Sign → ℚ
  | .negative => -1
  | .positive => 1

def unpackedValue : UnpackedFloat → ℚ
  | .finite sign m e _ => signFactor sign * (m * 2 ^ e)
  | _ => 0

theorem unpackedValue_finite (sign : Sign) {m : Nat} (e : Int) (hm : 0 < m) :
    unpackedValue (.finite sign m e hm) = signFactor sign * (m * 2 ^ e) := rfl

/-- The number that a double stands for.  A double that is no number counts as zero. -/
def value (x : Float) : ℚ :=
  unpackedValue x.toModel.unpack

theorem abs_signFactor (sign : Sign) : |signFactor sign| = 1 := by
  cases sign
  · exact (abs_neg 1).trans abs_one
  · exact abs_one

theorem signFactor_ne_zero (sign : Sign) : signFactor sign ≠ 0 := by
  rw [← abs_ne_zero, abs_signFactor]
  exact one_ne_zero

theorem signFactor_mul (s t : Sign) : signFactor (s * t) = signFactor s * signFactor t := by
  cases s <;> cases t
  · show (1 : ℚ) = -1 * -1
    norm_num
  · show (-1 : ℚ) = -1 * 1
    norm_num
  · show (-1 : ℚ) = 1 * -1
    norm_num
  · show (1 : ℚ) = 1 * 1
    norm_num

theorem signFactor_div (s t : Sign) : signFactor (s / t) = signFactor s / signFactor t := by
  have hsame : s / t = s * t := by cases s <;> cases t <;> rfl
  have hinv : (signFactor t)⁻¹ = signFactor t := by cases t <;> norm_num [signFactor]
  rw [hsame, signFactor_mul, div_eq_mul_inv, hinv]

theorem signFactor_neg (s : Sign) : signFactor (-s) = -signFactor s := by
  cases s
  · exact (neg_neg 1).symm
  · rfl

theorem unpackedValue_neg (u : UnpackedFloat) : unpackedValue u.neg = -unpackedValue u := by
  cases u with
  | finite s m e hm =>
    show signFactor (-s) * _ = -(signFactor s * _)
    rw [signFactor_neg, neg_mul]
  | _ => exact neg_zero.symm

/-! ## Stored numbers -/

/-- The form in which numbers are stored, but for the greatest exponent. -/
def Stored : UnpackedFloat → Prop
  | .zero _ => True
  | .finite _ m e _ => m < 2 ^ 53 ∧ leastExponent ≤ e ∧ (2 ^ 52 ≤ m ∨ e = leastExponent)
  | _ => False

theorem unpackSign_packComponents {spec : Format} {sign : Sign}
    {exponent : BitVec spec.exponentBits} {mantissa : BitVec spec.mantissaBitsWithoutImplicit} :
    Sign.ofBitVec (UnpackedFloat.unpackSign
      (UnpackedFloat.packComponents spec sign exponent mantissa)) = sign := by
  have hbits : UnpackedFloat.unpackSign
      (UnpackedFloat.packComponents spec sign exponent mantissa) = sign.toBitVec := by
    ext i hi
    have hfirst : i = 0 := by omega
    subst hfirst
    delta UnpackedFloat.unpackSign UnpackedFloat.packComponents
    simp [BitVec.getLsbD_eq_getElem, BitVec.getLsbD_append, BitVec.getElem_append]
  rw [hbits]
  cases sign <;> rfl

theorem finite_congr {sign : Sign} {m n : Nat} {e f : Int} {hm : 0 < m} {hn : 0 < n}
    (hmantissa : m = n) (hexponent : e = f) :
    UnpackedFloat.finite sign m e hm = .finite sign n f hn := by
  subst hmantissa hexponent
  rfl

variable {sign : Sign} {exponent : BitVec Format.binary64.exponentBits}
  {mantissa : BitVec Format.binary64.mantissaBitsWithoutImplicit}

/-- The parts of a double, which are found again in its bits. -/
theorem exists_packed (sign : Sign) (exponent : BitVec Format.binary64.exponentBits)
    (mantissa : BitVec Format.binary64.mantissaBitsWithoutImplicit) :
    ∃ bits, UnpackedFloat.packComponents Format.binary64 sign exponent mantissa = bits ∧
      Sign.ofBitVec (UnpackedFloat.unpackSign bits) = sign ∧
      UnpackedFloat.unpackExponent bits = exponent ∧
      UnpackedFloat.unpackMantissa bits = mantissa :=
  ⟨_, rfl, unpackSign_packComponents, UnpackedFloat.unpackExponent_packComponents,
    UnpackedFloat.unpackMantissa_packComponents⟩

/-- A mantissa that is stored without its first digit, which is one. -/
theorem toNat_one_append (mantissa : BitVec Format.binary64.mantissaBitsWithoutImplicit) :
    (1#1 ++ mantissa).toNat = 2 ^ 52 + mantissa.toNat := by
  rw [BitVec.toNat_append, ← Nat.shiftLeft_add_eq_or_of_lt mantissa.isLt]
  rfl

theorem one_append_pos (mantissa : BitVec Format.binary64.mantissaBitsWithoutImplicit) :
    0 < (1#1 ++ mantissa).toNat := by
  rw [toNat_one_append]
  exact Nat.lt_add_right _ (Nat.two_pow_pos 52)

theorem unpack_normal (hnumber : exponent ≠ noExponent) (hnonzero : exponent ≠ 0#_) :
    UnpackedFloat.unpack Format.binary64
        (UnpackedFloat.packComponents Format.binary64 sign exponent mantissa) =
      .finite sign (1#1 ++ mantissa).toNat (exponent.toNat - (1023 + 52))
        (one_append_pos mantissa) := by
  have hnumber' : ¬exponent = -1#11 := hnumber
  have hnonzero' : ¬exponent = 0#11 := hnonzero
  obtain ⟨bits, hbits, rfl, rfl, rfl⟩ := exists_packed sign exponent mantissa
  rw [hbits]
  delta UnpackedFloat.unpack
  dsimp only
  rw [if_neg hnumber', if_neg hnonzero']
  rfl

theorem unpack_subnormal (hmantissa : mantissa ≠ 0#_) :
    UnpackedFloat.unpack Format.binary64
        (UnpackedFloat.packComponents Format.binary64 sign 0#_ mantissa) =
      .finite sign mantissa.toNat leastExponent
        (Nat.pos_of_ne_zero fun h => hmantissa (BitVec.eq_of_toNat_eq h)) := by
  obtain ⟨bits, hbits, rfl, hexponent, rfl⟩ := exists_packed sign 0#_ mantissa
  have hzero : UnpackedFloat.unpackExponent bits = 0#11 := hexponent
  have hnumber : ¬UnpackedFloat.unpackExponent bits = -1#11 := by
    rw [hzero]
    decide
  rw [hbits]
  delta UnpackedFloat.unpack
  dsimp only
  rw [if_neg hnumber, if_pos hzero, dif_neg hmantissa]
  refine finite_congr rfl ?_
  rw [hzero]
  rfl

theorem isFinite_pack_of_overflow {m : Nat} {e : Int} {hm : 0 < m} (h : greatestExponent < e) :
    (Float.Model.pack (.finite sign m e hm)).unpack.isFinite = false := by
  have hroom : 2 ^ Format.binary64.exponentBits ≤
      (e + Format.binary64.exponentBias +
        Format.binary64.mantissaBitsWithoutImplicit).toNat + 1 := by
    have hgreat : 971 < e := h
    show 2 ^ 11 ≤ (e + 1023 + 52).toNat + 1
    omega
  show (UnpackedFloat.unpack Format.binary64
    (UnpackedFloat.pack Format.binary64 (.finite sign m e hm))).isFinite = false
  delta UnpackedFloat.pack
  dsimp only
  rw [if_pos hroom]
  cases sign <;> rfl

/-- A number in the form in which it is stored is packed without loss, unless it is too
great. -/
theorem unpack_pack {u : UnpackedFloat} (hstored : Stored u)
    (hfinite : (Float.Model.pack u).unpack.isFinite = true) :
    (Float.Model.pack u).unpack = u := by
  cases u with
  | infinity sign => exact hstored.elim
  | notANumber => exact hstored.elim
  | zero sign => cases sign <;> rfl
  | finite sign m e hm =>
    obtain ⟨hdigits, hleast, hnormal⟩ := hstored
    have hle : e ≤ 971 := by
      by_contra hgreat
      exact absurd (isFinite_pack_of_overflow (not_le.mp hgreat)) (by rw [hfinite]; decide)
    have hleast' : -1074 ≤ e := hleast
    have hroom : ¬2 ^ Format.binary64.exponentBits ≤
        (e + Format.binary64.exponentBias +
          Format.binary64.mantissaBitsWithoutImplicit).toNat + 1 := by
      show ¬2 ^ 11 ≤ (e + 1023 + 52).toNat + 1
      omega
    show UnpackedFloat.unpack Format.binary64
      (UnpackedFloat.pack Format.binary64 (.finite sign m e hm)) = _
    delta UnpackedFloat.pack
    dsimp only
    rw [if_neg hroom]
    by_cases hfull : 2 ^ 52 ≤ m
    · have hlog : m.log2 + 1 = Format.binary64.mantissaBits := by
        rw [(Nat.log2_eq_iff hm.ne').mpr ⟨hfull, hdigits⟩]
        rfl
      have hfield : (BitVec.ofNat Format.binary64.exponentBits
          (e + Format.binary64.exponentBias +
            Format.binary64.mantissaBitsWithoutImplicit).toNat).toNat = (e + 1075).toNat := by
        rw [BitVec.toNat_ofNat]
        show (e + 1023 + 52).toNat % 2 ^ 11 = (e + 1075).toNat
        omega
      rw [if_pos hlog, unpack_normal]
      · refine finite_congr ?_ ?_
        · rw [toNat_one_append, BitVec.toNat_ofNat]
          show 2 ^ 52 + m % 2 ^ 52 = m
          omega
        · rw [hfield]
          omega
      · intro hnone
        have htoNat := congrArg BitVec.toNat hnone
        rw [hfield, toNat_noExponent] at htoNat
        omega
      · intro hzero
        have htoNat := congrArg BitVec.toNat hzero
        rw [hfield] at htoNat
        have hnat : (e + 1075).toNat = 0 := htoNat
        omega
    · have hlog : ¬m.log2 + 1 = Format.binary64.mantissaBits := by
        intro hlog
        have hlog' : m.log2 + 1 = 53 := hlog
        exact hfull ((Nat.le_log2 hm.ne').mp (by omega))
      have hvalue : (BitVec.ofNat Format.binary64.mantissaBitsWithoutImplicit m).toNat = m := by
        rw [BitVec.toNat_ofNat]
        exact Nat.mod_eq_of_lt (not_le.mp hfull)
      rw [if_neg hlog, unpack_subnormal]
      · exact finite_congr hvalue (hnormal.resolve_left hfull).symm
      · intro hzero
        have htoNat := congrArg BitVec.toNat hzero
        rw [hvalue] at htoNat
        exact hm.ne' htoNat

/-- Every double that is a number is stored in this form. -/
theorem stored_unpack {x : Float} (h : x.isFinite = true) : Stored x.toModel.unpack := by
  revert h
  show (fun u => UnpackedFloat.isFinite u = true → Stored u) x.toModel.unpack
  delta Float.Model.unpack UnpackedFloat.unpack
  refine iteInduction (motive := fun u => UnpackedFloat.isFinite u = true → Stored u)
    (fun _ => iteInduction (motive := fun u => UnpackedFloat.isFinite u = true → Stored u)
      (fun _ => nofun) fun _ => nofun) fun hnumber => ?_
  refine iteInduction (motive := fun u => UnpackedFloat.isFinite u = true → Stored u)
    (fun hzero => ?_) fun hnonzero => ?_
  · refine dite_of_forall (P := fun u => UnpackedFloat.isFinite u = true → Stored u)
      (fun _ _ => trivial) fun _ _ => ?_
    rw [hzero]
    exact ⟨Nat.lt_of_lt_of_le (BitVec.isLt _) (by decide), by decide, .inr rfl⟩
  · intro _
    have hfield : (@UnpackedFloat.unpackExponent Format.binary64
        x.toModel.toBits.toBitVec).toNat ≠ 0 := fun h => hnonzero (BitVec.eq_of_toNat_eq h)
    refine ⟨BitVec.isLt _, ?_, .inl ?_⟩
    · show (-1074 : Int) ≤ _ - (1023 + 52)
      omega
    · rw [toNat_one_append]
      exact Nat.le_add_right _ _

/-! ## Comparing -/

theorem two_zpow_pos (e : Int) : (0 : ℚ) < 2 ^ e :=
  zpow_pos two_pos e

theorem unpackedValue_finite_ne_zero (sign : Sign) {m : Nat} (e : Int) (hm : 0 < m) :
    unpackedValue (.finite sign m e hm) ≠ 0 :=
  mul_ne_zero (signFactor_ne_zero sign)
    (mul_pos (Nat.cast_pos.mpr hm) (two_zpow_pos e)).ne'

theorem exponent_le_of_mul_eq {m n : Nat} {e f : Int} (hm : m < 2 ^ 53)
    (hleast : leastExponent ≤ e) (hnormal : 2 ^ 52 ≤ n ∨ f = leastExponent)
    (h : (m : ℚ) * 2 ^ e = n * 2 ^ f) : f ≤ e := by
  by_contra hlt
  rw [not_le] at hlt
  have hfull : 2 ^ 52 ≤ n := hnormal.resolve_right (by omega)
  obtain ⟨k, hk⟩ := Int.le.dest hlt
  have hsplit : (2 : ℚ) ^ f = 2 ^ (k + 1) * 2 ^ e := by
    rw [← zpow_natCast, ← zpow_add₀ two_ne_zero, ← hk]
    congr 1
    push_cast
    omega
  have hmul : (m : ℚ) = n * 2 ^ (k + 1) := by
    refine mul_right_cancel₀ (two_zpow_pos e).ne' ?_
    rw [h, hsplit, mul_assoc]
  have hnat : m = n * 2 ^ (k + 1) := by exact_mod_cast hmul
  have htwo : 2 ≤ 2 ^ (k + 1) := Nat.le_self_pow (Nat.succ_ne_zero k) 2
  have := Nat.mul_le_mul hfull htwo
  omega

/-- A number is stored in one way only. -/
theorem Stored.eq_of_value {m n : Nat} {e f : Int} {s t : Sign} {hm : 0 < m} {hn : 0 < n}
    (hx : Stored (.finite s m e hm)) (hy : Stored (.finite t n f hn))
    (h : unpackedValue (.finite s m e hm) = unpackedValue (.finite t n f hn)) :
    s = t ∧ m = n ∧ e = f := by
  have hposm : (0 : ℚ) < m * 2 ^ e := mul_pos (Nat.cast_pos.mpr hm) (two_zpow_pos e)
  have hposn : (0 : ℚ) < n * 2 ^ f := mul_pos (Nat.cast_pos.mpr hn) (two_zpow_pos f)
  have hproducts : signFactor s * (m * 2 ^ e) = signFactor t * (n * 2 ^ f) := h
  have hsign : s = t := by
    cases s <;> cases t <;> simp only [signFactor] at hproducts
    · rfl
    · linarith
    · linarith
    · rfl
  subst hsign
  have hmul : (m : ℚ) * 2 ^ e = n * 2 ^ f := mul_left_cancel₀ (signFactor_ne_zero s) h
  have hle := exponent_le_of_mul_eq hx.1 hx.2.1 hy.2.2 hmul
  have hge := exponent_le_of_mul_eq hy.1 hy.2.1 hx.2.2 hmul.symm
  obtain rfl : e = f := by omega
  have hcast : (m : ℚ) = n := mul_right_cancel₀ (two_zpow_pos e).ne' hmul
  exact ⟨rfl, by exact_mod_cast hcast, rfl⟩

theorem beq_eq_compare (x y : Float) :
    (x == y) = (x.toModel.unpack.compare y.toModel.unpack == some .eq) := rfl

theorem eq_of_then_eq {m n : Nat} {e f : Int}
    (h : (compare e f).then (compare m n) = .eq) : e = f ∧ m = n := by
  obtain ⟨hexponent, hmantissa⟩ := Ordering.then_eq_eq.mp h
  exact ⟨Int.compare_eq_eq.mp hexponent, Nat.compare_eq_eq.mp hmantissa⟩

theorem then_self_eq (m : Nat) (e : Int) : (compare e e).then (compare m m) = .eq :=
  Ordering.then_eq_eq.mpr ⟨Int.compare_eq_eq.mpr rfl, Nat.compare_eq_eq.mpr rfl⟩

theorem compare_finite_self (sign : Sign) {m : Nat} (e : Int) (hm : 0 < m) :
    (UnpackedFloat.finite sign m e hm).compare (.finite sign m e hm) = some .eq := by
  cases sign
  · exact congrArg (fun order => some (Ordering.swap order)) (then_self_eq m e)
  · exact congrArg some (then_self_eq m e)

/-- Doubles that compare as equal are the same, but for the sign of a zero. -/
theorem unpack_eq_of_beq {x y : Float} (h : (x == y) = true) :
    x.toModel.unpack = y.toModel.unpack ∨
      ∃ s t, x.toModel.unpack = .zero s ∧ y.toModel.unpack = .zero t := by
  rw [beq_eq_compare, beq_iff_eq] at h
  generalize x.toModel.unpack = u at h
  generalize y.toModel.unpack = v at h
  cases u with
  | notANumber => cases h
  | infinity s =>
    cases v with
    | infinity t =>
      cases s <;> cases t
      · exact .inl rfl
      · cases h
      · cases h
      · exact .inl rfl
    | _ => cases s <;> cases h
  | zero s =>
    cases v with
    | zero t => exact .inr ⟨s, t, rfl, rfl⟩
    | notANumber => cases h
    | infinity t => cases t <;> cases h
    | finite t n f hn => cases t <;> cases h
  | finite s m e hm =>
    cases v with
    | notANumber => cases s <;> cases h
    | infinity t => cases s <;> cases t <;> cases h
    | zero t => cases s <;> cases h
    | finite t n f hn =>
      cases s <;> cases t
      · have hthen := Ordering.swap_eq_eq.mp (Option.some.inj h)
        obtain ⟨rfl, rfl⟩ := eq_of_then_eq hthen
        exact .inl rfl
      · cases h
      · cases h
      · obtain ⟨rfl, rfl⟩ := eq_of_then_eq (Option.some.inj h)
        exact .inl rfl

/-- Comparing numbers is comparing their values. -/
theorem beq_iff_value {x y : Float} (hx : x.isFinite = true) (hy : y.isFinite = true) :
    (x == y) = true ↔ value x = value y := by
  constructor
  · intro h
    rw [value, value]
    rcases unpack_eq_of_beq h with h | ⟨s, t, hs, ht⟩
    · rw [h]
    · rw [hs, ht]
      rfl
  · intro h
    have hxs := stored_unpack hx
    have hys := stored_unpack hy
    rw [value, value] at h
    rw [beq_eq_compare, beq_iff_eq]
    generalize x.toModel.unpack = u at h hxs
    generalize y.toModel.unpack = v at h hys
    cases u with
    | notANumber => exact hxs.elim
    | infinity s => exact hxs.elim
    | zero s =>
      cases v with
      | notANumber => exact hys.elim
      | infinity t => exact hys.elim
      | zero t => rfl
      | finite t n f hn => exact absurd h.symm (unpackedValue_finite_ne_zero t f hn)
    | finite s m e hm =>
      cases v with
      | notANumber => exact hys.elim
      | infinity t => exact hys.elim
      | zero t => exact absurd h (unpackedValue_finite_ne_zero s e hm)
      | finite t n f hn =>
        obtain ⟨rfl, rfl, rfl⟩ := hxs.eq_of_value hys h
        exact compare_finite_self s e hm

end Number
end AnimatedGlyph
