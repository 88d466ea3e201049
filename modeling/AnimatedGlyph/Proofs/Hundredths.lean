/-
Hundredths.

Rounding to an integer changes a number by a half at most, and it gives zero for just the
numbers below a half (`roundHalfAway_spec`).  So a coordinate is rounded to zero just if a
hundred times it is below a half (`toHundredths_beq_zero_iff`).

A coordinate that has been rounded is told from others by the number of its hundredths.
Numbers that are equal have the same hundredths (`hundredths_congr`).  The converse does not
hold of all numbers, since hundredths have 64 bits and doubles lose the digits after the point
as they grow.  It holds of coordinates below 2^42, whose hundredths can be read off the rounded
coordinate in spite of the two roundings on the way (`toHundredths_beq_of_hundredths_eq`).
-/
import AnimatedGlyph.Proofs.RoundingError

namespace AnimatedGlyph
namespace Number

open Float.Model (Format UnpackedFloat)
open Float.Model.UnpackedFloat (Sign)

variable {x y z : Float} {k : Int}

/-! ## Sizes and congruence -/

theorem abs_value_lt (h : Bounded k x) : |value x| < 2 ^ (53 + k) := by
  have hfits := fits_unpack x
  rw [Bounded] at h
  rw [value]
  generalize x.toModel.unpack = u at h hfits
  cases u with
  | infinity sign => exact h.elim
  | notANumber => exact h.elim
  | zero sign =>
    show |(0 : ℚ)| < _
    rw [abs_zero]
    exact two_zpow_pos _
  | finite sign m e hm =>
    have hdigits : (m : ℚ) < 2 ^ (53 : Int) := by
      have := hfits.1
      exact_mod_cast this
    rw [unpackedValue_finite, abs_mul, abs_signFactor, one_mul, abs_of_pos (mul_pos
      (Nat.cast_pos.mpr hm) (two_zpow_pos e)), zpow_add₀ two_ne_zero]
    exact mul_lt_mul hdigits (zpow_le_zpow_right₀ one_le_two h) (two_zpow_pos e)
      (two_zpow_pos 53).le

theorem value_zero_div (s : Sign) (v : UnpackedFloat) :
    unpackedValue (Float.Model.pack ((UnpackedFloat.zero s).div Format.binary64 v)).unpack = 0 := by
  have hzero : ∀ t, unpackedValue (Float.Model.pack (.zero t)).unpack = 0 := by
    intro t
    cases t <;> rfl
  have hnone : unpackedValue (Float.Model.pack .notANumber).unpack = 0 := rfl
  cases v with
  | notANumber => exact hnone
  | infinity t => exact hzero (s / t)
  | zero t => exact hnone
  | finite t m e hm => exact hzero (s / t)

theorem value_div_congr (h : (x == y) = true) : value (x / z) = value (y / z) := by
  show unpackedValue (Float.Model.pack (x.toModel.unpack.div Format.binary64 _)).unpack =
    unpackedValue (Float.Model.pack (y.toModel.unpack.div Format.binary64 _)).unpack
  rcases unpack_eq_of_beq h with h | ⟨s, t, hs, ht⟩
  · rw [h]
  · rw [hs, ht, value_zero_div, value_zero_div]

theorem hundredths_of_zero {s : Sign} (h : x.toModel.unpack = .zero s) : hundredths x = 0 := by
  have hproduct : x * 100.0 = ⟨Float.Model.pack ((UnpackedFloat.zero s).mul Format.binary64
      (100.0 : Float).toModel.unpack)⟩ := by
    rw [← h]
    rfl
  rw [hundredths, hproduct]
  cases s <;> rfl

/-- Numbers that are equal have the same hundredths. -/
theorem hundredths_congr (h : (x == y) = true) : hundredths x = hundredths y := by
  rcases unpack_eq_of_beq h with h | ⟨s, t, hs, ht⟩
  · have hproduct : x * 100.0 = y * 100.0 := by
      show (⟨Float.Model.pack (x.toModel.unpack.mul Format.binary64 _)⟩ : Float) =
        ⟨Float.Model.pack (y.toModel.unpack.mul Format.binary64 _)⟩
      rw [h]
    rw [hundredths, hundredths, hproduct]
  · rw [hundredths_of_zero hs, hundredths_of_zero ht]

/-! ## Rounding to integers -/

/-- An integer next to a number: not more than a half away, and zero only for numbers below a
half. -/
structure Nearest (v : ℚ) (n : Int) : Prop where
  error : |(n : ℚ) - v| ≤ 1 / 2
  zero_iff : n = 0 ↔ |v| < 1 / 2

theorem nearest_roundHalfUp (m k : Nat) : Nearest (m / 2 ^ k) (roundHalfUp m k) := by
  have hpow : (0 : ℚ) < 2 ^ k := pow_pos two_pos k
  generalize hn : roundHalfUp m k = n
  have hdivide : (2 * m + 2 ^ k) / 2 ^ (k + 1) = n := hn
  have hfloor := (Nat.div_eq_iff (Nat.two_pow_pos (k + 1))).mp hdivide
  have hlow : (n : ℚ) * (2 * 2 ^ k) ≤ 2 * m + 2 ^ k := by
    rw [← pow_succ']
    exact_mod_cast hfloor.1
  have hhigh : 2 * (m : ℚ) + 2 ^ k < (n + 1) * (2 * 2 ^ k) := by
    rw [← pow_succ']
    have hlt : 2 * m + 2 ^ k < (n + 1) * 2 ^ (k + 1) := by
      rw [← hdivide, Nat.mul_comm _ (2 ^ (k + 1))]
      exact Nat.lt_mul_div_succ _ (Nat.two_pow_pos (k + 1))
    exact_mod_cast hlt
  generalize hv : (m : ℚ) / 2 ^ k = v
  have hm : (m : ℚ) = v * 2 ^ k := by rw [← hv, div_mul_cancel₀ _ hpow.ne']
  have hnonneg : 0 ≤ v := by
    rw [← hv]
    exact div_nonneg (Nat.cast_nonneg m) hpow.le
  rw [hm] at hlow hhigh
  have hle : (n : ℚ) ≤ v + 1 / 2 := by
    refine le_of_mul_le_mul_right ?_ (mul_pos two_pos hpow)
    linarith
  have hlt : v + 1 / 2 < n + 1 := by
    refine lt_of_mul_lt_mul_right ?_ (mul_pos two_pos hpow).le
    linarith
  constructor
  · rw [Int.cast_natCast, abs_le]
    constructor <;> linarith
  · rw [abs_of_nonneg hnonneg]
    constructor
    · intro hzero
      have hzero : (n : ℚ) = 0 := by exact_mod_cast hzero
      linarith
    · intro hsmall
      have hone : (n : ℚ) < 1 := by linarith
      have : n < 1 := by exact_mod_cast hone
      omega

theorem Nearest.apply {v : ℚ} {n : Nat} (sign : Sign) (h : Nearest v n) :
    Nearest (signFactor sign * v) (sign.apply n) := by
  constructor
  · rw [cast_apply, ← mul_sub, abs_mul, abs_signFactor, one_mul]
    exact_mod_cast h.error
  · rw [abs_mul, abs_signFactor, one_mul, ← h.zero_iff]
    cases sign
    · exact Int.neg_eq_zero
    · exact Iff.rfl

theorem nearest_self (n : Int) : Nearest n n := by
  constructor
  · rw [sub_self, abs_zero]
    norm_num
  · constructor
    · rintro rfl
      norm_num
    · intro hsmall
      have hlt : ((|n| : Int) : ℚ) < 1 := by
        rw [Int.cast_abs]
        linarith
      exact Int.abs_lt_one_iff.mp (by exact_mod_cast hlt)

/-- A double is rounded to an integer next to it. -/
theorem roundHalfAway_spec (h : x.isFinite = true) :
    ∃ n : Int, value (roundHalfAway x) = n ∧ Nearest (value x) n := by
  have hstored := stored_unpack h
  rw [roundHalfAway]
  split
  · rename_i sign m k hm hunpack
    have hfits := fits_unpack x
    rw [hunpack] at hfits
    have hdigits := roundHalfUp_lt hfits.1 k
    have hvalue : value x = signFactor sign * (m / 2 ^ (k + 1)) := by
      rw [value, hunpack, unpackedValue_finite, zpow_negSucc, div_eq_mul_inv]
    rw [hvalue]
    refine ⟨sign.apply (roundHalfUp m (k + 1)), ?_, (nearest_roundHalfUp m (k + 1)).apply sign⟩
    rw [cast_apply]
    cases sign
    · show value (-Float.ofNat _) = -1 * _
      rw [value_neg (bounded_ofNat hdigits).isFinite, value_ofNat hdigits, neg_one_mul]
    · show value (Float.ofNat _) = 1 * _
      rw [value_ofNat hdigits, one_mul]
  · rename_i hinteger
    rw [value]
    generalize x.toModel.unpack = u at hstored hinteger
    cases u with
    | infinity sign => exact hstored.elim
    | notANumber => exact hstored.elim
    | zero sign => exact ⟨0, Int.cast_zero.symm, by exact_mod_cast nearest_self 0⟩
    | finite sign m e hm =>
      cases e with
      | negSucc k => exact absurd rfl (hinteger sign m k hm)
      | ofNat e =>
        have hvalue : unpackedValue (.finite sign m (.ofNat e) hm) =
            ((sign.apply (m * 2 ^ e : Nat) : Int) : ℚ) := by
          rw [cast_apply, unpackedValue_finite, Int.ofNat_eq_natCast, zpow_natCast]
          push_cast
          rfl
        rw [hvalue]
        exact ⟨_, rfl, nearest_self _⟩

/-- What has an integer as its value is that integer. -/
theorem roundToInt_eq {s : Sign} {m : Nat} {e n : Int} {hm : 0 < m}
    (h : unpackedValue (.finite s m e hm) = n) : UnpackedFloat.roundToInt s m e = n := by
  have hround : UnpackedFloat.roundToInt s m e =
      s.apply ((m <<< (e - 0).toNat) / 2 ^ (0 - (e - (e - 0).toNat)).toNat : Nat) := by
    rw [← mantissa_ofMantissaAndAccuracy (m <<< (e - 0).toNat) .exact, ← mantissa_shiftRight]
    rfl
  rw [hround]
  rw [unpackedValue_finite] at h
  cases e with
  | ofNat e =>
    have hshift : (0 - (Int.ofNat e - ((Int.ofNat e - 0).toNat : Int))).toNat = 0 := by
      rw [Int.ofNat_eq_natCast]
      omega
    rw [hshift, pow_zero, Nat.div_one, Int.sub_zero]
    rw [Int.ofNat_eq_natCast, zpow_natCast] at h
    refine Int.cast_injective (α := ℚ) ?_
    rw [cast_apply, ← h, Nat.shiftLeft_eq]
    push_cast
    rfl
  | negSucc k =>
    have hwhole : m = n.natAbs * 2 ^ (k + 1) := by
      have habs := congrArg abs h
      rw [abs_mul, abs_signFactor, one_mul, zpow_negSucc, ← div_eq_mul_inv, abs_of_nonneg
        (div_nonneg (Nat.cast_nonneg m) (pow_pos two_pos _).le), div_eq_iff
        (pow_pos two_pos _).ne', ← Int.cast_abs, Int.abs_eq_natAbs, Int.cast_natCast] at habs
      exact_mod_cast habs
    have hshift : (0 - (Int.negSucc k - ((Int.negSucc k - 0).toNat : Int))).toNat = k + 1 := by
      omega
    have hquotient : m <<< (Int.negSucc k - 0).toNat / 2 ^ (k + 1) = n.natAbs := by
      show m / 2 ^ (k + 1) = n.natAbs
      rw [hwhole, Nat.mul_div_cancel _ (Nat.two_pow_pos (k + 1))]
    rw [hshift, hquotient]
    refine Int.cast_injective (α := ℚ) ?_
    rw [cast_apply, ← h, hwhole, zpow_negSucc]
    push_cast
    rw [mul_inv_cancel_right₀ (pow_pos two_pos _).ne']

/-- An integer below 2^53 is not changed by the conversion. -/
theorem toInt_toInt64 {n : Int} (h : x.isFinite = true) (hvalue : value x = n)
    (hn : |n| < 2 ^ 53) : x.toModel.toInt64.toInt = n := by
  have hinteger : UnpackedFloat.toInt Int64.minValue.toInt Int64.maxValue.toInt
      x.toModel.unpack = n := by
    have hstored := stored_unpack h
    rw [value] at hvalue
    generalize x.toModel.unpack = u at hstored hvalue
    cases u with
    | infinity s => exact hstored.elim
    | notANumber => exact hstored.elim
    | zero s =>
      have hzero : (0 : ℚ) = n := hvalue
      exact_mod_cast hzero
    | finite s m e hm => exact roundToInt_eq hvalue
  have hmin : Int64.minValue.toInt = -2 ^ 63 := by decide
  have hmax : Int64.maxValue.toInt = 2 ^ 63 - 1 := by decide
  obtain ⟨hlow, hhigh⟩ := abs_lt.mp hn
  show (Int64.ofIntClamp _).toInt = n
  rw [hinteger]
  exact Int64.toInt_ofIntClamp (by omega) (by omega)

/-! ## Rounding to hundredths -/

theorem value_hundred : value 100.0 = 100 := by
  show (1 : ℚ) * ((100 * 2 ^ 46 : Nat) * 2 ^ (-46 : Int)) = 100
  norm_num

theorem bounded_mul_hundred {n : Int} (h : Bounded k x) (hle : k + 8 ≤ n) (hn : IsExponent n) :
    Bounded n (x * 100.0) :=
  h.mul (by decide : Bounded (-46) 100.0) (by omega) hn

/-- A rounded coordinate is the hundredth part of an integer next to a hundred times the
coordinate. -/
theorem toHundredths_spec (h : Bounded k x) (hk : k ≤ 100) :
    (toHundredths x).isFinite = true ∧
      ∃ n : Int, value (roundHalfAway (x * 100.0)) = n ∧ Nearest (value (x * 100.0)) n ∧
        RoundsTo (n / 100) (value (toHundredths x)) := by
  have hproduct : Bounded 108 (x * 100.0) := bounded_mul_hundred h (by omega) (by decide)
  have hrounded : Bounded 108 (roundHalfAway (x * 100.0)) :=
    hproduct.roundHalfAway (Int.le_refl _) (by decide) (by decide)
  have hquotient : Bounded 155 (toHundredths x) :=
    hrounded.div (by decide : AtLeast (-46) (100.0 : Float).toModel.unpack) (by decide) (by decide)
  obtain ⟨n, hn, hnearest⟩ := roundHalfAway_spec hproduct.isFinite
  have hdivide := roundsTo_div hrounded.isFinite (by decide : (100.0 : Float).isFinite = true)
    (by rw [value_hundred]; norm_num) hquotient.isFinite
  rw [hn, value_hundred] at hdivide
  exact ⟨hquotient.isFinite, n, hn, hnearest, hdivide⟩

/-- A coordinate is rounded to zero just if a hundred times it is below a half. -/
theorem toHundredths_beq_zero_iff (h : Bounded k x) (hk : k ≤ 100) :
    (toHundredths x == 0.0) = true ↔ |value (x * 100.0)| < 1 / 2 := by
  have hzero : value 0.0 = 0 := rfl
  obtain ⟨hfinite, n, -, hnearest, hrounds⟩ := toHundredths_spec h hk
  rw [beq_iff_value hfinite (by decide), hzero, ← hnearest.zero_iff]
  constructor
  · intro hnone
    have herror := hrounds.error
    rw [hnone, zero_sub, abs_neg, abs_div, abs_of_pos (by norm_num : (0 : ℚ) < 100)] at herror
    have hlt : ((|n| : Int) : ℚ) < 1 := by
      rw [Int.cast_abs]
      linarith
    exact Int.abs_lt_one_iff.mp (by exact_mod_cast hlt)
  · rintro rfl
    have hexact := hrounds.exact (j := 0) (k := 0) (by decide) (by decide) (by norm_num)
    rw [hexact]
    norm_num

theorem abs_nearest_le {n : Int} (h : Bounded k x) (hk : k ≤ -11)
    (hn : Nearest (value (x * 100.0)) n) : |n| ≤ 2 ^ 50 := by
  have hproduct : Bounded (-3) (x * 100.0) := bounded_mul_hundred h (by omega) (by decide)
  have hsize := abs_value_lt hproduct
  have hpow : (2 : ℚ) ^ (53 + -3 : Int) = 2 ^ 50 := zpow_natCast 2 50
  rw [hpow] at hsize
  have hle := abs_sub_abs_le_abs_sub (n : ℚ) (value (x * 100.0))
  have hlt : ((|n| : Int) : ℚ) < 2 ^ 50 + 1 := by
    rw [Int.cast_abs]
    linarith [hn.error]
  exact Int.lt_add_one_iff.mp (by exact_mod_cast hlt)

/-- An integer is found again in spite of two roundings, which are off by an eighth each. -/
theorem eq_of_roundsTo_twice {m n : Int} {q p : ℚ} (hm : |m| ≤ 2 ^ 50)
    (hq : RoundsTo (m / 100) q) (hp : RoundsTo (q * 100) p) (hn : Nearest p n) : n = m := by
  have hsize : |(m : ℚ)| ≤ 2 ^ 50 := by exact_mod_cast hm
  have hfirst : |q - m / 100| ≤ 1 / 800 + 1 / 2 ^ 100 := by
    have herror := hq.error
    rw [abs_div, abs_of_pos (by norm_num : (0 : ℚ) < 100)] at herror
    linarith
  have hsecond : |p - q * 100| ≤ 1 / 4 := by
    have herror := hp.error
    have hle : |q * 100| ≤ 2 ^ 50 + 1 := by
      rw [abs_le] at hfirst hsize ⊢
      constructor <;> linarith
    linarith
  have hlt : |((n - m : Int) : ℚ)| < 1 := by
    have hthird := hn.error
    rw [Int.cast_sub]
    rw [abs_le] at hfirst hsecond hthird
    rw [abs_lt]
    constructor <;> linarith
  exact sub_eq_zero.mp (Int.abs_lt_one_iff.mp (by exact_mod_cast hlt))

/-- The hundredths of a rounded coordinate are the integer that it was rounded to. -/
theorem toInt_hundredths_toHundredths {n : Int} (h : Bounded k x) (hk : k ≤ -11)
    (hvalue : value (roundHalfAway (x * 100.0)) = n) :
    (hundredths (toHundredths x)).toInt = n := by
  obtain ⟨hfinite, m, hm, hnearest, hrounds⟩ := toHundredths_spec h (by omega)
  obtain rfl : m = n := Int.cast_injective (hm.symm.trans hvalue)
  have hsize := abs_nearest_le h hk hnearest
  have hrounded : Bounded 61 (toHundredths x) :=
    h.toHundredths (by omega) (Int.le_refl _) (by decide)
  have hproduct : Bounded 69 (toHundredths x * 100.0) :=
    bounded_mul_hundred hrounded (by decide) (by decide)
  have hinteger : Bounded 69 (roundHalfAway (toHundredths x * 100.0)) :=
    hproduct.roundHalfAway (Int.le_refl _) (by decide) (by decide)
  have hmul := roundsTo_mul hfinite (by decide : (100.0 : Float).isFinite = true)
    hproduct.isFinite
  rw [value_hundred] at hmul
  obtain ⟨n, hback, hnext⟩ := roundHalfAway_spec hproduct.isFinite
  rw [eq_of_roundsTo_twice hsize hrounds hmul hnext] at hback
  exact toInt_toInt64 hinteger.isFinite hback (by omega)

/-- Coordinates below 2^42 with the same hundredths are rounded to the same number. -/
theorem toHundredths_beq_of_hundredths_eq (hx : Bounded k x) (hy : Bounded k y) (hk : k ≤ -11)
    (h : hundredths (toHundredths x) = hundredths (toHundredths y)) :
    (toHundredths x == toHundredths y) = true := by
  have hproduct : ∀ {x : Float}, Bounded k x → (roundHalfAway (x * 100.0)).isFinite = true := by
    intro x hx
    have hproduct : Bounded (-3) (x * 100.0) := bounded_mul_hundred hx (by omega) (by decide)
    exact (hproduct.roundHalfAway (n := 14) (by decide) (Int.le_refl _) (by decide)).isFinite
  obtain ⟨hxfinite, m, hm, -, -⟩ := toHundredths_spec hx (by omega)
  obtain ⟨hyfinite, n, hn, -, -⟩ := toHundredths_spec hy (by omega)
  have hsame : m = n := by
    rw [← toInt_hundredths_toHundredths hx hk hm, ← toInt_hundredths_toHundredths hy hk hn, h]
  have hintegers : (roundHalfAway (x * 100.0) == roundHalfAway (y * 100.0)) = true := by
    rw [beq_iff_value (hproduct hx) (hproduct hy), hm, hn, hsame]
  rw [beq_iff_value hxfinite hyfinite]
  exact value_div_congr hintegers

end Number
end AnimatedGlyph
