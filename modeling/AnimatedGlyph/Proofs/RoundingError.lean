/-
Rounding to doubles.

A result is rounded to a multiple of a power of two, the nearest one there is, and the power
is so small that the multiple has 53 digits, unless it is the least power of all.  `RoundsTo`
says this of two rationals; it bounds the error (`RoundsTo.error`) and leaves a number as it is
if it can be stored (`RoundsTo.exact`).  The operations of arithmetic on doubles are those on
rationals, rounded (`roundsTo_mul`, `roundsTo_sub`, `roundsTo_div`), as long as the result is
a number at all.

Rounding drops the last digits of a mantissa one by one and keeps two bits about them.
`Stands` is what the bits mean, and `stands_shiftRight` carries it through all the digits.
-/
import Mathlib.Tactic.Ring
import Mathlib.Tactic.Positivity
import AnimatedGlyph.Proofs.FloatValues

namespace AnimatedGlyph
namespace Number

open Float.Model (Format UnpackedFloat totalExponent)
open Float.Model.UnpackedFloat (Accuracy ExtendedMantissa Sign)

/-! ## Residual bits -/

def half (bit : Bool) : ℚ :=
  if bit then 1 / 2 else 0

/-- A mantissa with its residual bits stands for a number.  The round bit is worth a half, and
the sticky bit says that something is missing, which is less than a half. -/
def Stands (em : ExtendedMantissa) (w : ℚ) : Prop :=
  if em.stickyBit then
    em.mantissa + half em.roundBit < w ∧ w < em.mantissa + half em.roundBit + 1 / 2
  else w = em.mantissa + half em.roundBit

theorem stands_exact (m : Nat) : Stands (.ofMantissaAndAccuracy m .exact) m :=
  (add_zero (m : ℚ)).symm

theorem stands_shiftRightOne {em : ExtendedMantissa} {w : ℚ} (h : Stands em w) :
    Stands em.shiftRightOne (w / 2) := by
  obtain ⟨m, roundBit, stickyBit⟩ := em
  have hm : (m : ℚ) = 2 * (m / 2 : Nat) + (m % 2 : Nat) := by
    exact_mod_cast (Nat.div_add_mod m 2).symm
  have hlast : (m % 2 : Nat) = 2 * half (m % 2 != 0) := by
    rcases Nat.mod_two_eq_zero_or_one m with h | h <;> rw [h] <;> norm_num [half]
  rw [hlast] at hm
  show Stands ⟨m / 2, m % 2 != 0, roundBit || stickyBit⟩ (w / 2)
  generalize hbit : (m % 2 != 0) = bit at hm
  cases roundBit <;> cases stickyBit <;> simp only [Stands, half, if_true, if_false,
    Bool.false_eq_true, Bool.or_true, Bool.or_false, add_zero] at h hm ⊢
  · linarith
  · constructor <;> linarith
  · constructor <;> linarith
  · constructor <;> linarith

theorem stands_shiftRight {em : ExtendedMantissa} {w : ℚ} (h : Stands em w) (n : Nat) :
    Stands (em >>> n) (w / 2 ^ n) := by
  induction n with
  | zero =>
    rw [pow_zero, div_one]
    exact h
  | succ n ih =>
    rw [pow_succ, ← div_div]
    exact stands_shiftRightOne ih

/-- Rounding a mantissa changes the number by a half at most. -/
theorem abs_roundedMantissa_sub_le {em : ExtendedMantissa} {w : ℚ} (h : Stands em w) :
    |(em.roundedMantissa : ℚ) - w| ≤ 1 / 2 := by
  obtain ⟨m, roundBit, stickyBit⟩ := em
  rw [abs_le]
  cases roundBit <;> cases stickyBit <;> simp only [Stands, half, if_true, if_false,
    Bool.false_eq_true, add_zero] at h
  · show -(1 / 2) ≤ (m : ℚ) - w ∧ (m : ℚ) - w ≤ 1 / 2
    constructor <;> linarith
  · show -(1 / 2) ≤ (m : ℚ) - w ∧ (m : ℚ) - w ≤ 1 / 2
    constructor <;> linarith
  · -- A half goes to the even side.
    show -(1 / 2) ≤ ((m + m % 2 : Nat) : ℚ) - w ∧ ((m + m % 2 : Nat) : ℚ) - w ≤ 1 / 2
    rcases Nat.mod_two_eq_zero_or_one m with heven | hodd
    · rw [heven, Nat.add_zero]
      constructor <;> linarith
    · rw [hodd]
      push_cast
      constructor <;> linarith
  · show -(1 / 2) ≤ ((m + 1 : Nat) : ℚ) - w ∧ ((m + 1 : Nat) : ℚ) - w ≤ 1 / 2
    push_cast
    constructor <;> linarith

theorem mantissa_le_roundedMantissa (em : ExtendedMantissa) :
    em.mantissa ≤ em.roundedMantissa := by
  obtain ⟨m, roundBit, stickyBit⟩ := em
  cases roundBit <;> cases stickyBit
  · exact Nat.le_refl m
  · exact Nat.le_refl m
  · exact Nat.le_add_right m _
  · exact Nat.le_succ m

/-! ## Rounding -/

/-- The exponent that a mantissa of 53 digits has for a number, unless it is too small. -/
def targetExponent (m : Nat) (e : Int) : Int :=
  max (totalExponent m e - 53) leastExponent

/-- Rounding to 53 digits, or to the least power of two if there are fewer. -/
def RoundsTo (v y : ℚ) : Prop :=
  ∃ (T : Int) (r : Int), leastExponent ≤ T ∧ y = r * 2 ^ T ∧ |y - v| ≤ 2 ^ T / 2 ∧
    (T = leastExponent ∨ 2 ^ (T + 52) ≤ |v|)

/-- The digits that are dropped from a mantissa that has enough of them. -/
theorem shift_targetExponent {m : Nat} {e : Int} (hplace : 2 ^ 52 ≤ m ∨ e ≤ leastExponent) :
    ∃ k : Nat, targetExponent m e = e + k ∧ m / 2 ^ k < 2 ^ 53 ∧
      (2 ^ 52 ≤ m / 2 ^ k ∨ targetExponent m e = leastExponent) := by
  have hlog : 2 ^ 52 ≤ m → 52 ≤ m.log2 := fun h =>
    (Nat.le_log2 (Nat.ne_of_gt (Nat.lt_of_lt_of_le (Nat.two_pow_pos 52) h))).mpr h
  have htarget : targetExponent m e = max (m.log2 + 1 + e - 53) (-1074) := rfl
  have hle : e ≤ targetExponent m e := by
    rcases hplace with hfull | hleast
    · have := hlog hfull
      omega
    · exact Int.le_trans hleast (Int.le_max_right _ _)
  refine ⟨(targetExponent m e - e).toNat, by omega, ?_, ?_⟩
  · refine Nat.div_lt_of_lt_mul (Nat.lt_of_lt_of_le Nat.lt_log2_self ?_)
    rw [← Nat.pow_add]
    exact Nat.pow_le_pow_right (by decide) (by omega)
  · by_cases hleast : targetExponent m e = leastExponent
    · exact .inr hleast
    · have hne : targetExponent m e ≠ -1074 := hleast
      have hdigits : m.log2 = (targetExponent m e - e).toNat + 52 := by omega
      have hm : m ≠ 0 := by
        rintro rfl
        rw [Nat.log2_zero] at hdigits
        omega
      refine .inl ((Nat.le_div_iff_mul_le (Nat.two_pow_pos _)).mpr ?_)
      rw [← Nat.pow_add, Nat.add_comm, ← hdigits]
      exact Nat.log2_self_le hm

/-- Rounding may need one digit more, which is dropped again. -/
theorem shift_rounded {r : Nat} {T : Int} (hr : r ≤ 2 ^ 53) (hT : leastExponent ≤ T) :
    let second := UnpackedFloat.shiftToTargetExponent Format.binary64 r T .exact
    r < 2 ^ 53 ∧ second.1.mantissa = r ∧ second.2 = T ∨
      r = 2 ^ 53 ∧ second.1.mantissa = 2 ^ 52 ∧ second.2 = T + 1 := by
  intro second
  obtain ⟨hmantissa, hexponent⟩ := shiftToTargetExponent_eq r T .exact
  have hleast : -1074 ≤ T := hT
  rcases Nat.lt_or_eq_of_le hr with hlt | rfl
  · have hlog : r.log2 ≤ 52 := log2_le_of_lt hlt
    have hshift : (max (totalExponent r T - 53) (-1074) - T).toNat = 0 := by
      rw [totalExponent]
      omega
    rw [hshift] at hmantissa hexponent
    exact .inl ⟨hlt, hmantissa.trans (Nat.div_one r), hexponent.trans (Int.add_zero T)⟩
  · have hshift : (max (totalExponent (2 ^ 53) T - 53) (-1074) - T).toNat = 1 := by
      rw [totalExponent, Nat.log2_two_pow]
      omega
    rw [hshift] at hmantissa hexponent
    exact .inr ⟨rfl, hmantissa, hexponent⟩

/-- The number of a rounded mantissa, which may have a digit too many. -/
def ofRounded (sign : Sign) (r : Nat) (T : Int) : UnpackedFloat :=
  let second := UnpackedFloat.shiftToTargetExponent Format.binary64 r T .exact
  if h : second.1.mantissa = 0 then .zero sign
  else .finite sign second.1.mantissa second.2 (Nat.pos_of_ne_zero h)

theorem stored_ofRounded (sign : Sign) {r : Nat} {T : Int} (hr : r ≤ 2 ^ 53)
    (hT : leastExponent ≤ T) (hfull : 2 ^ 52 ≤ r ∨ T = leastExponent) :
    Stored (ofRounded sign r T) := by
  refine dite_of_forall (fun _ => trivial) fun _ => ?_
  show _ < 2 ^ 53 ∧ leastExponent ≤ _ ∧ (2 ^ 52 ≤ _ ∨ _ = leastExponent)
  rcases shift_rounded hr hT with ⟨hlt, hmantissa, hexponent⟩ | ⟨-, hmantissa, hexponent⟩
  · rw [hmantissa, hexponent]
    exact ⟨hlt, hT, hfull⟩
  · rw [hmantissa, hexponent]
    exact ⟨by decide, Int.le_trans hT (Int.le_add_one (Int.le_refl T)), .inl (Nat.le_refl _)⟩

theorem unpackedValue_ofRounded (sign : Sign) {r : Nat} {T : Int} (hr : r ≤ 2 ^ 53)
    (hT : leastExponent ≤ T) :
    unpackedValue (ofRounded sign r T) = signFactor sign * (r * 2 ^ T) := by
  have hkept : ((UnpackedFloat.shiftToTargetExponent Format.binary64 r T .exact).1.mantissa : ℚ) *
      2 ^ (UnpackedFloat.shiftToTargetExponent Format.binary64 r T .exact).2 = r * 2 ^ T := by
    rcases shift_rounded hr hT with ⟨-, hmantissa, hexponent⟩ | ⟨hcarry, hmantissa, hexponent⟩
    · rw [hmantissa, hexponent]
    · rw [hmantissa, hexponent, hcarry, zpow_add_one₀ two_ne_zero]
      push_cast
      ring
  rw [← hkept]
  refine dite_of_forall (P := fun u => unpackedValue u = _) (fun hzero => ?_) fun _ => rfl
  rw [hzero, Nat.cast_zero, zero_mul, mul_zero]
  rfl

/-- Rounding a mantissa that has enough digits. -/
theorem roundWithAccuracy_spec (sign : Sign) {m : Nat} {e : Int} {accuracy : Accuracy} {w : ℚ}
    (hw : Stands (.ofMantissaAndAccuracy m accuracy) w)
    (hplace : 2 ^ 52 ≤ m ∨ e ≤ leastExponent) :
    let u := UnpackedFloat.roundWithAccuracy Format.binary64 sign m e accuracy
    let T := targetExponent m e
    Stored u ∧ ∃ r : Nat, unpackedValue u = signFactor sign * (r * 2 ^ T) ∧
      |(r : ℚ) * 2 ^ T - w * 2 ^ e| ≤ 2 ^ T / 2 := by
  intro u T
  obtain ⟨k, hk, hdigits, hfull⟩ := shift_targetExponent hplace
  have hT : leastExponent ≤ T := Int.le_max_right _ _
  let em := ExtendedMantissa.ofMantissaAndAccuracy m accuracy >>> k
  have hfirst : UnpackedFloat.shiftToTargetExponent Format.binary64 m e accuracy = (em, T) := by
    have hshift : (T - e).toNat = k := by omega
    show (ExtendedMantissa.ofMantissaAndAccuracy m accuracy >>> (T - e).toNat,
      e + ((T - e).toNat : Int)) = (em, T)
    rw [hshift, ← hk]
  have hu : u = ofRounded sign em.roundedMantissa T := by
    show UnpackedFloat.roundWithAccuracy Format.binary64 sign m e accuracy = _
    rw [UnpackedFloat.roundWithAccuracy, hfirst]
    rfl
  have hmantissa : em.mantissa = m / 2 ^ k := by
    rw [mantissa_shiftRight, mantissa_ofMantissaAndAccuracy]
  have hlow := mantissa_le_roundedMantissa em
  have hhigh := roundedMantissa_le em
  rw [hmantissa] at hlow hhigh
  have hround := abs_roundedMantissa_sub_le (stands_shiftRight hw k)
  have hscale : w * 2 ^ e = w / 2 ^ k * 2 ^ T := by
    rw [show T = e + k from hk, zpow_add₀ two_ne_zero, zpow_natCast, mul_comm (2 ^ e), ← mul_assoc,
      div_mul_cancel₀ w (pow_ne_zero k two_ne_zero)]
  rw [hu]
  refine ⟨stored_ofRounded sign (by omega) hT (hfull.imp_left fun h => by omega),
    em.roundedMantissa, unpackedValue_ofRounded sign (by omega) hT, ?_⟩
  rw [hscale, ← sub_mul, abs_mul, abs_of_pos (two_zpow_pos T)]
  calc |(em.roundedMantissa : ℚ) - w / 2 ^ k| * 2 ^ T ≤ 1 / 2 * 2 ^ T :=
        mul_le_mul_of_nonneg_right hround (two_zpow_pos T).le
    _ = 2 ^ T / 2 := by ring

/-! ## What rounding does to a number -/

theorem roundsTo_zero : RoundsTo 0 0 := by
  refine ⟨leastExponent, 0, Int.le_refl _, (zero_mul _).symm, ?_, .inl rfl⟩
  rw [sub_self, abs_zero]
  exact (half_pos (two_zpow_pos _)).le

theorem cast_apply (sign : Sign) (m : Nat) :
    ((sign.apply m : Int) : ℚ) = signFactor sign * m := by
  cases sign
  · show ((-(m : Int) : Int) : ℚ) = -1 * m
    push_cast
    ring
  · exact (one_mul _).symm

theorem le_of_stands {m : Nat} {accuracy : Accuracy} {w : ℚ}
    (h : Stands (.ofMantissaAndAccuracy m accuracy) w) : (m : ℚ) ≤ w := by
  have hhalf : ∀ bit, 0 ≤ half bit := by
    intro bit
    cases bit <;> norm_num [half]
  rw [← mantissa_ofMantissaAndAccuracy m accuracy]
  generalize ExtendedMantissa.ofMantissaAndAccuracy m accuracy = em at h ⊢
  have := hhalf em.roundBit
  rw [Stands] at h
  split at h <;> linarith

theorem roundsTo_roundWithAccuracy (sign : Sign) {m : Nat} {e : Int} {accuracy : Accuracy} {w : ℚ}
    (hw : Stands (.ofMantissaAndAccuracy m accuracy) w)
    (hplace : 2 ^ 52 ≤ m ∨ e ≤ leastExponent) :
    let u := UnpackedFloat.roundWithAccuracy Format.binary64 sign m e accuracy
    Stored u ∧ RoundsTo (signFactor sign * (w * 2 ^ e)) (unpackedValue u) := by
  obtain ⟨hstored, r, hvalue, herror⟩ := roundWithAccuracy_spec sign hw hplace
  refine ⟨hstored, targetExponent m e, sign.apply r, Int.le_max_right _ _, ?_, ?_, ?_⟩
  · rw [hvalue, cast_apply, mul_assoc]
  · rw [hvalue, ← mul_sub, abs_mul, abs_signFactor, one_mul]
    exact herror
  · by_cases hleast : targetExponent m e = leastExponent
    · exact .inl hleast
    · have htarget : targetExponent m e = max (m.log2 + 1 + e - 53) (-1074) := rfl
      have hne : targetExponent m e ≠ -1074 := hleast
      have hm : m ≠ 0 := by
        rintro rfl
        have hsmall : e ≤ -1074 := hplace.resolve_left (by decide)
        rw [Nat.log2_zero] at htarget
        omega
      have hfirst : targetExponent m e + 52 = m.log2 + e := by omega
      have hdigit : (2 : ℚ) ^ m.log2 ≤ w :=
        le_trans (by exact_mod_cast Nat.log2_self_le hm) (le_of_stands hw)
      refine .inr ?_
      rw [hfirst, zpow_add₀ two_ne_zero, zpow_natCast, abs_mul, abs_signFactor, one_mul, abs_mul,
        abs_of_pos (two_zpow_pos e)]
      exact mul_le_mul_of_nonneg_right (hdigit.trans (le_abs_self w)) (two_zpow_pos e).le

theorem half_two_zpow_leastExponent_le : (2 : ℚ) ^ leastExponent / 2 ≤ 1 / 2 ^ 100 := by
  have hpow : (1 : ℚ) / 2 ^ 100 = 2 ^ (-99 : Int) / 2 := by norm_num
  rw [hpow]
  exact div_le_div_of_nonneg_right (zpow_le_zpow_right₀ one_le_two (by decide)) two_pos.le

/-- The error of rounding, relative to the number.  The last term is for the numbers that are
rounded to the least power of two, whose error is far smaller than it. -/
theorem RoundsTo.error {v y : ℚ} (h : RoundsTo v y) : |y - v| ≤ |v| / 2 ^ 53 + 1 / 2 ^ 100 := by
  obtain ⟨T, r, -, -, herror, hfirst⟩ := h
  have hrelative : 0 ≤ |v| / 2 ^ 53 := div_nonneg (abs_nonneg v) (pow_pos two_pos 53).le
  have habsolute : (0 : ℚ) ≤ 1 / 2 ^ 100 := one_div_nonneg.mpr (pow_pos two_pos 100).le
  rcases hfirst with rfl | hfirst
  · have hleast := herror.trans half_two_zpow_leastExponent_le
    exact hleast.trans (le_add_of_nonneg_left hrelative)
  · have hsplit : (2 : ℚ) ^ (T + 52) / 2 ^ 53 = 2 ^ T / 2 := by
      have hpow : (2 : ℚ) ^ (52 : ℤ) = 2 ^ 52 := zpow_natCast 2 52
      rw [zpow_add₀ two_ne_zero, hpow]
      ring
    have hle := div_le_div_of_nonneg_right hfirst (pow_pos (two_pos (α := ℚ)) 53).le
    rw [hsplit] at hle
    exact (herror.trans hle).trans (le_add_of_nonneg_right habsolute)

theorem RoundsTo.le_of_nonpos {v y : ℚ} (h : RoundsTo v y) (hv : v ≤ 0) :
    y ≤ v - v / 2 ^ 53 + 1 / 2 ^ 100 := by
  have herror := (abs_le.mp h.error).2
  rw [abs_of_nonpos hv] at herror
  linarith

theorem RoundsTo.le_of_nonneg {v y : ℚ} (h : RoundsTo v y) (hv : 0 ≤ v) :
    y ≤ v + v / 2 ^ 53 + 1 / 2 ^ 100 := by
  have herror := (abs_le.mp h.error).2
  rw [abs_of_nonneg hv] at herror
  linarith

theorem RoundsTo.ge_of_nonneg {v y : ℚ} (h : RoundsTo v y) (hv : 0 ≤ v) :
    v - v / 2 ^ 53 - 1 / 2 ^ 100 ≤ y := by
  have herror := (abs_le.mp h.error).1
  rw [abs_of_nonneg hv] at herror
  linarith

/-- A number with at most 53 digits is not changed. -/
theorem RoundsTo.exact {v y : ℚ} (h : RoundsTo v y) {j k : Int} (hj : |j| < 2 ^ 53)
    (hk : leastExponent ≤ k) (hv : v = j * 2 ^ k) : y = v := by
  obtain ⟨T, r, hT, hy, herror, hfirst⟩ := h
  have hle : T ≤ k := by
    rcases hfirst with rfl | hfirst
    · exact hk
    · have hdigits : |v| < 2 ^ (53 + k) := by
        rw [hv, abs_mul, abs_of_pos (two_zpow_pos k), zpow_add₀ two_ne_zero]
        refine mul_lt_mul_of_pos_right ?_ (two_zpow_pos k)
        exact_mod_cast hj
      have hexponent := (zpow_lt_zpow_iff_right₀ one_lt_two).mp (hfirst.trans_lt hdigits)
      omega
  obtain ⟨n, rfl⟩ := Int.le.dest hle
  have hmultiple : v = ((j * 2 ^ n : Int) : ℚ) * 2 ^ T := by
    rw [hv, zpow_add₀ two_ne_zero, zpow_natCast]
    push_cast
    ring
  rw [hy, hmultiple, ← sub_mul, abs_mul, abs_of_pos (two_zpow_pos T)] at herror
  have hsmall : |((r - j * 2 ^ n : Int) : ℚ)| ≤ 1 / 2 := by
    rw [Int.cast_sub]
    exact le_of_mul_le_mul_right (by linarith) (two_zpow_pos T)
  have hzero : |r - j * 2 ^ n| < 1 := by
    have hlt : ((|r - j * 2 ^ n| : Int) : ℚ) < 1 := by
      rw [Int.cast_abs]
      linarith
    exact_mod_cast hlt
  have hr : r = j * 2 ^ n := sub_eq_zero.mp (Int.abs_lt_one_iff.mp hzero)
  rw [hy, hmultiple, hr]

/-- A stored number is the rounding of itself. -/
theorem roundsTo_of_stored {u : UnpackedFloat} (h : Stored u) :
    RoundsTo (unpackedValue u) (unpackedValue u) := by
  cases u with
  | infinity sign => exact h.elim
  | notANumber => exact h.elim
  | zero sign => exact roundsTo_zero
  | finite sign m e hm =>
    obtain ⟨-, hleast, hnormal⟩ := h
    refine ⟨e, sign.apply m, hleast, ?_, ?_, ?_⟩
    · rw [cast_apply, mul_assoc]
      rfl
    · rw [sub_self, abs_zero]
      exact (half_pos (two_zpow_pos e)).le
    · refine hnormal.symm.imp_right fun hfull => ?_
      have hdigits : ((2 ^ 52 : Nat) : ℚ) ≤ m := Nat.cast_le.mpr hfull
      show (2 : ℚ) ^ (e + 52) ≤ |signFactor sign * (m * 2 ^ e)|
      rw [abs_mul, abs_signFactor, one_mul, abs_of_pos (mul_pos (Nat.cast_pos.mpr hm)
        (two_zpow_pos e)), add_comm, zpow_add₀ two_ne_zero]
      exact mul_le_mul_of_nonneg_right (by exact_mod_cast hdigits) (two_zpow_pos e).le

/-! ## Arithmetic -/

/-- The form in which an operation leaves a number that it has rounded. -/
structure Rounded (v : ℚ) (u : UnpackedFloat) : Prop where
  stored : Stored u
  roundsTo : RoundsTo v (unpackedValue u)

theorem rounded_zero (sign : Sign) : Rounded 0 (.zero sign) :=
  ⟨trivial, roundsTo_zero⟩

theorem rounded_self {u : UnpackedFloat} (h : Stored u) : Rounded (unpackedValue u) u :=
  ⟨h, roundsTo_of_stored h⟩

theorem two_pow_le_shiftLeft {m d k : Nat} (hm : m ≠ 0) (h : d ≤ m.log2 + k) :
    2 ^ d ≤ m <<< k := by
  calc 2 ^ d ≤ 2 ^ (m.log2 + k) := Nat.pow_le_pow_right two_pos h
    _ = 2 ^ m.log2 * 2 ^ k := Nat.pow_add 2 _ _
    _ ≤ m * 2 ^ k := Nat.mul_le_mul_right _ (Nat.log2_self_le hm)
    _ = m <<< k := (Nat.shiftLeft_eq m k).symm

theorem rounded_round (sign : Sign) {m : Nat} (e : Int) (hm : m ≠ 0) :
    Rounded (signFactor sign * (m * 2 ^ e)) (UnpackedFloat.round Format.binary64 sign m e) := by
  have htarget : targetExponent m e = max (m.log2 + 1 + e - 53) (-1074) := rfl
  generalize hk : (e - targetExponent m e).toNat = k
  have hround : UnpackedFloat.round Format.binary64 sign m e =
      UnpackedFloat.roundWithAccuracy Format.binary64 sign (m <<< k) (e - k) .exact := by
    rw [← hk]
    rfl
  have hplace : 2 ^ 52 ≤ m <<< k ∨ e - k ≤ leastExponent := by
    by_cases hleast : e - k ≤ leastExponent
    · exact .inr hleast
    · have hsmall : ¬e - k ≤ -1074 := hleast
      exact .inl (two_pow_le_shiftLeft hm (by omega))
  have hvalue : ((m <<< k : Nat) : ℚ) * 2 ^ (e - k) = m * 2 ^ e := by
    rw [Nat.shiftLeft_eq, Nat.cast_mul, Nat.cast_pow, Nat.cast_two, mul_assoc, ← zpow_natCast,
      ← zpow_add₀ two_ne_zero, add_sub_cancel]
  have hrounded := roundsTo_roundWithAccuracy sign (stands_exact (m <<< k)) hplace
  rw [hvalue, ← hround] at hrounded
  exact ⟨hrounded.1, hrounded.2⟩

theorem rounded_normalize (m e : Int) (zeroSign : Sign) :
    Rounded (m * 2 ^ e) (UnpackedFloat.normalize Format.binary64 m e zeroSign) := by
  rw [UnpackedFloat.normalize]
  split
  · rename_i hsign
    have hnegative := Int.compare_eq_lt.mp hsign
    have hcast : (m : ℚ) = signFactor .negative * ((-m).toNat : Nat) := by
      have hnat : (((-m).toNat : Int) : ℚ) = ((-m : Int) : ℚ) :=
        congrArg _ (Int.toNat_of_nonneg (by omega))
      rw [Int.cast_natCast, Int.cast_neg] at hnat
      rw [hnat, signFactor]
      ring
    rw [hcast, mul_assoc]
    exact rounded_round .negative e (by omega)
  · rename_i hsign
    rw [Int.compare_eq_eq.mp hsign, Int.cast_zero, zero_mul]
    exact rounded_zero zeroSign
  · rename_i hsign
    have hpositive := Int.compare_eq_gt.mp hsign
    have hcast : (m : ℚ) = signFactor .positive * (m.toNat : Nat) := by
      have hnat : ((m.toNat : Int) : ℚ) = (m : ℚ) :=
        congrArg _ (Int.toNat_of_nonneg (by omega))
      rw [Int.cast_natCast] at hnat
      rw [hnat, signFactor, one_mul]
    rw [hcast, mul_assoc]
    exact rounded_round .positive e (by omega)

variable {u v : UnpackedFloat}

theorem rounded_mul (hu : Stored u) (hv : Stored v) :
    Rounded (unpackedValue u * unpackedValue v) (u.mul Format.binary64 v) := by
  cases u with
  | infinity s => exact hu.elim
  | notANumber => exact hu.elim
  | zero s =>
    have hzero : unpackedValue (.zero s) * unpackedValue v = 0 := zero_mul _
    rw [hzero]
    cases v with
    | infinity t => exact hv.elim
    | notANumber => exact hv.elim
    | zero t => exact rounded_zero _
    | finite t n f hn => exact rounded_zero _
  | finite s m e hm =>
    cases v with
    | infinity t => exact hv.elim
    | notANumber => exact hv.elim
    | zero t =>
      have hzero : unpackedValue (.finite s m e hm) * unpackedValue (.zero t) = 0 := mul_zero _
      rw [hzero]
      exact rounded_zero _
    | finite t n f hn =>
      have hplace : 2 ^ 52 ≤ m * n ∨ e + f ≤ leastExponent := by
        rcases hu.2.2 with hfull | he
        · exact .inl (hfull.trans (Nat.le_mul_of_pos_right m hn))
        rcases hv.2.2 with hfull | hf
        · exact .inl (hfull.trans (Nat.le_mul_of_pos_left n hm))
        · rw [he, hf]
          exact .inr (by decide)
      have hvalue : signFactor (s * t) * ((m * n : Nat) * 2 ^ (e + f)) =
          unpackedValue (.finite s m e hm) * unpackedValue (.finite t n f hn) := by
        rw [signFactor_mul, Nat.cast_mul, zpow_add₀ two_ne_zero, unpackedValue_finite,
          unpackedValue_finite]
        ring
      have hrounded := roundsTo_roundWithAccuracy (s * t) (stands_exact (m * n)) hplace
      rw [hvalue] at hrounded
      exact ⟨hrounded.1, hrounded.2⟩

/-- A mantissa that has been brought to a smaller exponent. -/
theorem cast_apply_shiftLeft (s : Sign) (m : Nat) {e f : Int} (h : f ≤ e) {hm : 0 < m} :
    ((s.apply (m <<< (e - f).toNat : Nat) : Int) : ℚ) * 2 ^ f =
      unpackedValue (.finite s m e hm) := by
  obtain ⟨k, rfl⟩ := Int.le.dest h
  have hk : (f + k - f).toNat = k := by omega
  rw [hk, cast_apply, Nat.shiftLeft_eq, unpackedValue_finite, zpow_add₀ two_ne_zero, zpow_natCast]
  push_cast
  ring

theorem rounded_sub (hu : Stored u) (hv : Stored v) :
    Rounded (unpackedValue u - unpackedValue v) (u.sub Format.binary64 v) := by
  cases u with
  | infinity s => exact hu.elim
  | notANumber => exact hu.elim
  | zero s =>
    cases v with
    | infinity t => exact hv.elim
    | notANumber => exact hv.elim
    | zero t =>
      have hzero : unpackedValue (.zero s) - unpackedValue (.zero t) = 0 := sub_zero _
      rw [hzero]
      exact iteInduction (fun _ => rounded_zero _) fun _ => rounded_zero _
    | finite t n f hn =>
      have hneg : unpackedValue (.zero s) - unpackedValue (.finite t n f hn) =
          unpackedValue (.finite (-t) n f hn) :=
        (zero_sub _).trans (unpackedValue_neg (.finite t n f hn)).symm
      rw [hneg]
      exact rounded_self hv
  | finite s m e hm =>
    cases v with
    | infinity t => exact hv.elim
    | notANumber => exact hv.elim
    | zero t =>
      have hself : unpackedValue (.finite s m e hm) - unpackedValue (.zero t) =
          unpackedValue (.finite s m e hm) := sub_zero _
      rw [hself]
      exact rounded_self hu
    | finite t n f hn =>
      rw [← cast_apply_shiftLeft s m (Int.min_le_left e f),
        ← cast_apply_shiftLeft t n (Int.min_le_right e f), ← sub_mul, ← Int.cast_sub]
      exact rounded_normalize _ _ .positive

/-- The bits of a fraction say where it lies. -/
theorem stands_accuracyOfFraction (q : Nat) {remainder divisor : Nat}
    (h : remainder < divisor) :
    Stands (.ofMantissaAndAccuracy q (UnpackedFloat.accuracyOfFraction remainder divisor))
      (q + remainder / divisor) := by
  have hpos : (0 : ℚ) < divisor := Nat.cast_pos.mpr (Nat.zero_lt_of_lt h)
  have hlt : (remainder : ℚ) / divisor < 1 := by
    rw [div_lt_one hpos]
    exact_mod_cast h
  rw [UnpackedFloat.accuracyOfFraction]
  split
  · rename_i hzero
    rw [hzero, Nat.cast_zero, zero_div, add_zero]
    exact stands_exact q
  · rename_i hnonzero
    have hremainder : (0 : ℚ) < remainder / divisor :=
      div_pos (Nat.cast_pos.mpr (Nat.pos_of_ne_zero hnonzero)) hpos
    cases hcompare : compare (2 * remainder) divisor with
    | lt =>
      have hbelow : (remainder : ℚ) / divisor < 1 / 2 := by
        rw [div_lt_div_iff₀ hpos two_pos]
        have := Nat.compare_eq_lt.mp hcompare
        exact_mod_cast (by omega : remainder * 2 < 1 * divisor)
      show (q : ℚ) + 0 < _ ∧ _ < (q : ℚ) + 0 + 1 / 2
      constructor <;> linarith
    | eq =>
      have hhalf : (remainder : ℚ) / divisor = 1 / 2 := by
        rw [div_eq_div_iff hpos.ne' two_ne_zero]
        have := Nat.compare_eq_eq.mp hcompare
        exact_mod_cast (by omega : remainder * 2 = 1 * divisor)
      show (q : ℚ) + remainder / divisor = q + 1 / 2
      rw [hhalf]
    | gt =>
      have habove : (1 : ℚ) / 2 < remainder / divisor := by
        rw [div_lt_div_iff₀ two_pos hpos]
        have := Nat.compare_eq_gt.mp hcompare
        exact_mod_cast (by omega : 1 * divisor < remainder * 2)
      show (q : ℚ) + 1 / 2 < _ ∧ _ < (q : ℚ) + 1 / 2 + 1 / 2
      constructor <;> linarith

theorem two_pow_le_quotient {m n k : Nat} (hm : m ≠ 0) (hn : 0 < n)
    (h : 53 + n.log2 ≤ m.log2 + k) : 2 ^ 52 ≤ m <<< k / n := by
  refine (Nat.le_div_iff_mul_le hn).mpr ?_
  calc 2 ^ 52 * n ≤ 2 ^ 52 * 2 ^ (n.log2 + 1) := Nat.mul_le_mul_left _ Nat.lt_log2_self.le
    _ = 2 ^ (52 + (n.log2 + 1)) := (Nat.pow_add 2 _ _).symm
    _ ≤ m <<< k := two_pow_le_shiftLeft hm (by omega)

theorem cast_quotient_add_fraction (m k : Nat) {n : Nat} (hn : 0 < n) :
    ((m <<< k / n : Nat) + (m <<< k % n : Nat) / n : ℚ) = m * 2 ^ k / n := by
  have hn' : (n : ℚ) ≠ 0 := Nat.cast_ne_zero.mpr hn.ne'
  have hdivmod : ((m <<< k / n * n + m <<< k % n : Nat) : ℚ) = (m * 2 ^ k : Nat) := by
    rw [Nat.div_add_mod', Nat.shiftLeft_eq]
  push_cast at hdivmod
  rw [eq_div_iff hn', ← hdivmod, add_mul, div_mul_cancel₀ _ hn']

theorem rounded_div (hu : Stored u) (hv : Stored v) (hnonzero : unpackedValue v ≠ 0) :
    Rounded (unpackedValue u / unpackedValue v) (u.div Format.binary64 v) := by
  cases v with
  | infinity t => exact hv.elim
  | notANumber => exact hv.elim
  | zero t => exact absurd rfl hnonzero
  | finite t n f hn =>
    cases u with
    | infinity s => exact hu.elim
    | notANumber => exact hu.elim
    | zero s =>
      have hzero : unpackedValue (.zero s) / unpackedValue (.finite t n f hn) = 0 := zero_div _
      rw [hzero]
      exact rounded_zero _
    | finite s m e hm =>
      generalize htarget : min (e - f) (max (m.log2 + 1 + e - (n.log2 + 1 + f) - 53) (-1074)) = T
      generalize hk : (e - f - T).toNat = k
      have hdiv : UnpackedFloat.div Format.binary64 (.finite s m e hm) (.finite t n f hn) =
          UnpackedFloat.roundWithAccuracy Format.binary64 (s / t) (m <<< k / n) T
            (UnpackedFloat.accuracyOfFraction (m <<< k % n) n) := by
        rw [← hk, ← htarget]
        rfl
      have hplace : 2 ^ 52 ≤ m <<< k / n ∨ T ≤ leastExponent := by
        by_cases hleast : T ≤ leastExponent
        · exact .inr hleast
        · have hsmall : ¬T ≤ -1074 := hleast
          exact .inl (two_pow_le_quotient hm.ne' hn (by omega))
      have hvalue : signFactor (s / t) * (((m <<< k / n : Nat) + (m <<< k % n : Nat) / n) * 2 ^ T) =
          unpackedValue (.finite s m e hm) / unpackedValue (.finite t n f hn) := by
        have hexponent : (2 : ℚ) ^ k * 2 ^ T = 2 ^ e / 2 ^ f := by
          rw [← zpow_natCast, ← zpow_add₀ two_ne_zero, ← zpow_sub₀ two_ne_zero]
          congr 1
          omega
        calc signFactor (s / t) * (((m <<< k / n : Nat) + (m <<< k % n : Nat) / n) * 2 ^ T) =
              signFactor s / signFactor t * (m / n * (2 ^ k * 2 ^ T)) := by
                rw [cast_quotient_add_fraction m k hn, signFactor_div]
                ring
          _ = unpackedValue (.finite s m e hm) / unpackedValue (.finite t n f hn) := by
                rw [hexponent, unpackedValue_finite, unpackedValue_finite]
                ring
      have hrounded := roundsTo_roundWithAccuracy (s / t)
        (stands_accuracyOfFraction (m <<< k / n) (Nat.mod_lt (m <<< k) hn)) hplace
      rw [hvalue, ← hdiv] at hrounded
      exact ⟨hrounded.1, hrounded.2⟩

/-! ## Doubles -/

variable {x y : Float}

/-- A rounded number is packed without loss if there is room for it. -/
theorem roundsTo_value_pack {w : ℚ} (h : Rounded w u)
    (hfinite : (Float.Model.pack u).unpack.isFinite = true) :
    RoundsTo w (value ⟨Float.Model.pack u⟩) := by
  show RoundsTo w (unpackedValue (Float.Model.pack u).unpack)
  rw [unpack_pack h.stored hfinite]
  exact h.roundsTo

theorem roundsTo_mul (hx : x.isFinite = true) (hy : y.isFinite = true)
    (h : (x * y).isFinite = true) : RoundsTo (value x * value y) (value (x * y)) :=
  roundsTo_value_pack (rounded_mul (stored_unpack hx) (stored_unpack hy)) h

theorem roundsTo_sub (hx : x.isFinite = true) (hy : y.isFinite = true)
    (h : (x - y).isFinite = true) : RoundsTo (value x - value y) (value (x - y)) :=
  roundsTo_value_pack (rounded_sub (stored_unpack hx) (stored_unpack hy)) h

theorem roundsTo_div (hx : x.isFinite = true) (hy : y.isFinite = true) (hnonzero : value y ≠ 0)
    (h : (x / y).isFinite = true) : RoundsTo (value x / value y) (value (x / y)) :=
  roundsTo_value_pack (rounded_div (stored_unpack hx) (stored_unpack hy) hnonzero) h

theorem value_neg (h : x.isFinite = true) : value (-x) = -value x := by
  have hunpack : (Float.Model.pack x.toModel.unpack.neg).unpack = x.toModel.unpack.neg := by
    refine unpack_pack ?_ (isFinite_neg h)
    have hstored := stored_unpack h
    generalize x.toModel.unpack = u at hstored
    cases u <;> exact hstored
  show unpackedValue (Float.Model.pack x.toModel.unpack.neg).unpack = _
  rw [hunpack, unpackedValue_neg]
  rfl

/-- An integer of 53 digits is a double. -/
theorem value_toFloat {m : UInt64} (h : m.toNat < 2 ^ 53) : value m.toFloat = m.toNat := by
  have hrounds : RoundsTo (((m.toNat : Int) : ℚ) * 2 ^ (0 : Int)) (value m.toFloat) :=
    roundsTo_value_pack (rounded_normalize m.toNat 0 .positive) (isFinite_toFloat m)
  have hdigits : |(m.toNat : Int)| < 2 ^ 53 := by
    rw [Nat.abs_cast]
    exact_mod_cast h
  rw [hrounds.exact hdigits (by decide) rfl, zpow_zero, mul_one, Int.cast_natCast]

theorem value_ofNat {m : Nat} (h : m < 2 ^ 53) : value (Float.ofNat m) = m := by
  have hone : value 1.0 = 1 := by
    show (1 : ℚ) * ((2 ^ 52 : Nat) * 2 ^ (-52 : Int)) = 1
    norm_num
  have hsmall : m < 2 ^ 53 ∧ 0 ≤ 22 := ⟨h, Nat.zero_le _⟩
  have hofNat : Float.ofNat m = m.toUInt64.toFloat * 1.0 := by
    show Float.ofScientific m false 0 = _
    rw [Float.ofScientific, dif_pos hsmall]
    rfl
  have hword : m.toUInt64.toNat = m := UInt64.toNat_ofNat_of_lt' (Nat.lt_trans h (by decide))
  have hfinite := (bounded_ofNat h).isFinite
  rw [hofNat] at hfinite ⊢
  have hrounds := roundsTo_mul (isFinite_toFloat _) (by decide) hfinite
  rw [value_toFloat (by rwa [hword]), hword, hone, mul_one] at hrounds
  have hdigits : |(m : Int)| < 2 ^ 53 := by
    rw [Nat.abs_cast]
    exact_mod_cast h
  refine hrounds.exact hdigits (by decide : leastExponent ≤ 0) ?_
  rw [zpow_zero, mul_one, Int.cast_natCast]

end Number
end AnimatedGlyph
