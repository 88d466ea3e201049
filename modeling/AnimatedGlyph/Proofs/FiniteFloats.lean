/-
Doubles that are numbers.

A double stops being a number only when its exponent finds no room.  The exponent of the
double that stands for a value is bounded by the place of the leading digit of that value,
less the 52 digits that follow it in a mantissa, so a bound on the exponents of two doubles
gives one for their product, their difference and their quotient.  The bounds here are
rough, but a computation that starts from integers of 64 bits and a few constants stays far
below the greatest exponent with any bound at all.
-/
import Mathlib.Algebra.Group.Nat.Defs
import AnimatedGlyph.Number.Rounding
import AnimatedGlyph.Number.Shortest

namespace AnimatedGlyph
namespace Number

open Float.Model (Format UnpackedFloat totalExponent)
open Float.Model.UnpackedFloat (Accuracy ExtendedMantissa Sign)

/-! ## The place of the leading digit -/

/-- Unlike `Nat.log2_lt`, this holds of zero as well. -/
theorem log2_le_of_lt {m k : Nat} (h : m < 2 ^ (k + 1)) : m.log2 ≤ k := by
  by_cases hm : m = 0
  · rw [hm]
    exact Nat.zero_le _
  · exact Nat.le_of_lt_succ ((Nat.log2_lt hm).mpr h)

theorem log2_le_log2 {m n : Nat} (h : m ≤ n) : m.log2 ≤ n.log2 :=
  log2_le_of_lt (Nat.lt_of_le_of_lt h Nat.lt_log2_self)

theorem log2_add_le (a b : Nat) : (a + b).log2 ≤ max a.log2 b.log2 + 1 := by
  have ha : a < 2 ^ (max a.log2 b.log2 + 1) :=
    Nat.lt_of_lt_of_le Nat.lt_log2_self (Nat.pow_le_pow_right (by decide) (by omega))
  have hb : b < 2 ^ (max a.log2 b.log2 + 1) :=
    Nat.lt_of_lt_of_le Nat.lt_log2_self (Nat.pow_le_pow_right (by decide) (by omega))
  refine log2_le_of_lt ?_
  rw [Nat.pow_succ]
  omega

theorem log2_mul_le (a b : Nat) : (a * b).log2 ≤ a.log2 + b.log2 + 1 := by
  have hbound : a * b < 2 ^ (a.log2 + 1) * 2 ^ (b.log2 + 1) :=
    Nat.mul_lt_mul'' Nat.lt_log2_self Nat.lt_log2_self
  refine log2_le_of_lt ?_
  rwa [← Nat.pow_add, Nat.add_add_add_comm] at hbound

theorem log2_shiftLeft_le (m shift : Nat) : (m <<< shift).log2 ≤ m.log2 + shift := by
  refine log2_le_of_lt ?_
  rw [Nat.shiftLeft_eq, Nat.add_right_comm, Nat.pow_add]
  exact Nat.mul_lt_mul_of_pos_right Nat.lt_log2_self (Nat.two_pow_pos shift)

theorem log2_shift_add_one_le (m shift : Nat) :
    (m / 2 ^ shift + 1).log2 + shift ≤ max m.log2 shift + 1 := by
  by_cases hsmall : m.log2 < shift
  · have hquotient : m / 2 ^ shift = 0 :=
      Nat.div_eq_of_lt (Nat.lt_of_lt_of_le Nat.lt_log2_self
        (Nat.pow_le_pow_right (by decide) hsmall))
    rw [hquotient]
    show 0 + shift ≤ _
    omega
  · have hquotient : m / 2 ^ shift < 2 ^ (m.log2 + 1 - shift) := by
      refine Nat.div_lt_of_lt_mul ?_
      rw [← Nat.pow_add, Nat.add_sub_cancel' (by omega)]
      exact Nat.lt_log2_self
    have hlog : (m / 2 ^ shift + 1).log2 ≤ m.log2 + 1 - shift := by
      refine log2_le_of_lt ?_
      rw [Nat.pow_succ]
      generalize m / 2 ^ shift = quotient at hquotient
      omega
    omega

/-! ## Bounded exponents -/

/-- The greatest exponent of a mantissa among the doubles. -/
def greatestExponent : Int := 971

/-- A bound that the exponents of doubles can have. -/
def IsExponent (limit : Int) : Prop :=
  leastExponent ≤ limit ∧ limit ≤ greatestExponent

instance (limit : Int) : Decidable (IsExponent limit) :=
  inferInstanceAs (Decidable (_ ∧ _))

theorem isExponent_of_le {n : Int} (hfrom : 0 ≤ n) (hto : n ≤ 971) : IsExponent n :=
  ⟨Int.le_trans (by decide) hfrom, hto⟩

/-- A number whose exponent is at most `limit`. -/
def Within (limit : Int) : UnpackedFloat → Prop
  | .zero _ => True
  | .finite _ _ e _ => e ≤ limit
  | _ => False

instance (limit : Int) (u : UnpackedFloat) : Decidable (Within limit u) :=
  match u with
  | .zero _ => isTrue trivial
  | .finite _ _ e _ => inferInstanceAs (Decidable (e ≤ limit))
  | .infinity _ => isFalse id
  | .notANumber => isFalse id

/-- A double that is a number with an exponent of at most `limit`. -/
def Bounded (limit : Int) (x : Float) : Prop :=
  Within limit x.toModel.unpack

instance (limit : Int) (x : Float) : Decidable (Bounded limit x) :=
  inferInstanceAs (Decidable (Within limit _))

variable {k l n : Int} {x y : Float} {u : UnpackedFloat}

theorem Within.mono (h : Within k u) (hle : k ≤ l) : Within l u := by
  cases u with
  | zero sign => trivial
  | finite sign m e hm => exact Int.le_trans h hle
  | infinity sign => exact h
  | notANumber => exact h

theorem Within.neg (h : Within k u) : Within k u.neg := by
  cases u <;> exact h

theorem Bounded.mono (h : Bounded k x) (hle : k ≤ l) : Bounded l x :=
  Within.mono h hle

theorem Within.isFinite (h : Within k u) : u.isFinite = true := by
  cases u with
  | zero sign => rfl
  | finite sign m e hm => rfl
  | infinity sign => exact h.elim
  | notANumber => exact h.elim

theorem Bounded.isFinite (h : Bounded k x) : x.isFinite = true :=
  Within.isFinite h

/-! ## Packed numbers -/

/-- The exponent of all ones, which no number has. -/
def noExponent : BitVec Format.binary64.exponentBits :=
  -(BitVec.ofNat Format.binary64.exponentBits 1)

theorem toNat_noExponent : noExponent.toNat = 2047 := by
  decide

theorem dite_of_forall {P : UnpackedFloat → Prop} {c : Prop} [Decidable c]
    {a : c → UnpackedFloat} {b : ¬c → UnpackedFloat} (ha : ∀ h, P (a h)) (hb : ∀ h, P (b h)) :
    P (if h : c then a h else b h) := by
  by_cases h : c
  · rw [dif_pos h]
    exact ha h
  · rw [dif_neg h]
    exact hb h

theorem within_unpack_packComponents (hleast : leastExponent ≤ n) (sign : Sign)
    {exponent : BitVec Format.binary64.exponentBits} (hnumber : exponent ≠ noExponent)
    (hexponent : (exponent.toNat : Int) - 1075 ≤ n)
    (mantissa : BitVec Format.binary64.mantissaBitsWithoutImplicit) :
    Within n (UnpackedFloat.unpack Format.binary64
      (UnpackedFloat.packComponents Format.binary64 sign exponent mantissa)) := by
  have hexp : UnpackedFloat.unpackExponent (UnpackedFloat.packComponents Format.binary64 sign
      exponent mantissa) = exponent := UnpackedFloat.unpackExponent_packComponents
  have hsubnormal : (0 : Int) - (1023 + 52) + 1 ≤ n := hleast
  delta UnpackedFloat.unpack
  refine iteInduction (fun hones => absurd (hexp.symm.trans hones) hnumber) fun _ => ?_
  refine iteInduction (fun hzero => dite_of_forall (fun _ => trivial) fun _ => ?_) fun _ => ?_
  · rw [hzero]
    exact hsubnormal
  · rw [hexp]
    exact hexponent

theorem within_unpack_pack (hn : IsExponent n) (h : Within n u) :
    Within n (Float.Model.pack u).unpack := by
  have hleast : (-1074 : Int) ≤ n := hn.1
  show Within n (UnpackedFloat.unpack Format.binary64 (UnpackedFloat.pack Format.binary64 u))
  cases u with
  | infinity sign => exact h.elim
  | notANumber => exact h.elim
  | zero sign =>
    refine within_unpack_packComponents hn.1 sign (by decide) ?_ _
    show 0 - 1075 ≤ n
    omega
  | finite sign m e hm =>
    have he : e ≤ n := h
    have hgreatest : n ≤ 971 := hn.2
    have hbias : Format.binary64.exponentBias = 1023 := by decide
    have hroom : ¬2 ^ Format.binary64.exponentBits ≤
        (e + Format.binary64.exponentBias +
          Format.binary64.mantissaBitsWithoutImplicit).toNat + 1 := by
      rw [hbias]
      show ¬2 ^ 11 ≤ (e + 1023 + 52).toNat + 1
      omega
    have hvalue : (BitVec.ofNat Format.binary64.exponentBits
        (e + Format.binary64.exponentBias +
          Format.binary64.mantissaBitsWithoutImplicit).toNat).toNat = (e + 1023 + 52).toNat := by
      rw [BitVec.toNat_ofNat, hbias]
      show (e + 1023 + 52).toNat % 2 ^ 11 = (e + 1023 + 52).toNat
      omega
    delta UnpackedFloat.pack
    dsimp only
    rw [if_neg hroom]
    split
    · refine within_unpack_packComponents hn.1 sign ?_ ?_ _
      · intro hnumber
        have hones := congrArg BitVec.toNat hnumber
        rw [hvalue, toNat_noExponent] at hones
        omega
      · rw [hvalue]
        omega
    · refine within_unpack_packComponents hn.1 sign (by decide) ?_ _
      show 0 - 1075 ≤ n
      omega

/-- A mantissa of 53 digits and an exponent that the format has room for. -/
def Fits : UnpackedFloat → Prop
  | .finite _ m e _ => m < 2 ^ 53 ∧ leastExponent ≤ e ∧ e ≤ greatestExponent
  | _ => True

theorem fits_unpack (x : Float) : Fits x.toModel.unpack := by
  have hexponent : ∀ field : BitVec Format.binary64.exponentBits, field ≠ noExponent →
      field ≠ BitVec.ofNat _ 0 →
        (-1074 : Int) ≤ field.toNat - (1023 + 52) ∧ (field.toNat : Int) - (1023 + 52) ≤ 971 := by
    intro field hnumber hnonzero
    have hlimit : field.toNat < 2 ^ 11 := field.isLt
    have hfull : field.toNat ≠ 2047 := fun h => hnumber (BitVec.eq_of_toNat_eq h)
    have hnone : field.toNat ≠ 0 := fun h => hnonzero (BitVec.eq_of_toNat_eq h)
    omega
  delta Float.Model.unpack UnpackedFloat.unpack
  refine iteInduction (fun _ => iteInduction (fun _ => trivial) fun _ => trivial) fun hnumber => ?_
  refine iteInduction (fun hzero => dite_of_forall (fun _ => trivial) fun _ => ?_)
    fun hnonzero => ?_
  · rw [hzero]
    exact ⟨Nat.lt_of_lt_of_le (BitVec.isLt _) (by decide), by decide, by decide⟩
  · exact ⟨BitVec.isLt _, hexponent _ hnumber hnonzero⟩

theorem bounded_of_isFinite (h : x.isFinite = true) : Bounded greatestExponent x := by
  have hfits := fits_unpack x
  have hfinite : x.toModel.unpack.isFinite = true := h
  rw [Bounded]
  generalize x.toModel.unpack = u at hfits hfinite
  cases u with
  | zero sign => trivial
  | finite sign m e hm => exact hfits.2.2
  | infinity sign => cases hfinite
  | notANumber => cases hfinite

theorem bounded_mk_pack (hn : IsExponent n) (h : Within n u) : Bounded n ⟨Float.Model.pack u⟩ :=
  within_unpack_pack hn h

theorem Bounded.neg (hn : IsExponent n) (h : Bounded n x) : Bounded n (-x) :=
  bounded_mk_pack hn (Within.neg h)

theorem isFinite_neg (h : x.isFinite = true) : (-x).isFinite = true :=
  ((bounded_of_isFinite h).neg (by decide)).isFinite

/-! ## Rounded numbers -/

theorem mantissa_shiftRight (em : ExtendedMantissa) (n : Nat) :
    (em >>> n).mantissa = em.mantissa / 2 ^ n := by
  induction n with
  | zero => exact (Nat.div_one _).symm
  | succ n ih =>
    show (em >>> n).mantissa / 2 = _
    rw [ih, Nat.div_div_eq_div_mul, Nat.pow_succ]

theorem roundedMantissa_le (em : ExtendedMantissa) : em.roundedMantissa ≤ em.mantissa + 1 := by
  obtain ⟨m, roundBit, stickyBit⟩ := em
  cases roundBit <;> cases stickyBit
  · exact Nat.le_succ m
  · exact Nat.le_succ m
  · have hhalf : m % 2 < 2 := Nat.mod_lt m (by decide)
    show m + m % 2 ≤ m + 1
    omega
  · exact Nat.le_refl _

theorem mantissa_ofMantissaAndAccuracy (m : Nat) (accuracy : Accuracy) :
    (ExtendedMantissa.ofMantissaAndAccuracy m accuracy).mantissa = m := by
  cases accuracy with
  | exact => rfl
  | inexact order => cases order <;> rfl

theorem shiftToTargetExponent_eq (m : Nat) (e : Int) (accuracy : Accuracy) :
    let shift := (max (totalExponent m e - 53) (-1074) - e).toNat
    (UnpackedFloat.shiftToTargetExponent Format.binary64 m e accuracy).1.mantissa = m / 2 ^ shift ∧
      (UnpackedFloat.shiftToTargetExponent Format.binary64 m e accuracy).2 = e + shift := by
  intro shift
  have hshift := mantissa_shiftRight (ExtendedMantissa.ofMantissaAndAccuracy m accuracy) shift
  rw [mantissa_ofMantissaAndAccuracy] at hshift
  exact ⟨hshift, rfl⟩

/-- Rounding keeps the exponent of a mantissa within a bound that leaves room for the place of
its leading digit. -/
theorem within_roundWithAccuracy (sign : Sign) {m : Nat} {e : Int} (accuracy : Accuracy)
    (hleast : leastExponent ≤ n) (hplace : totalExponent m e ≤ n + 52) (hexponent : e ≤ n) :
    Within n (UnpackedFloat.roundWithAccuracy Format.binary64 sign m e accuracy) := by
  obtain ⟨hmantissa, hexponent₁⟩ := shiftToTargetExponent_eq m e accuracy
  generalize hfirst : UnpackedFloat.shiftToTargetExponent Format.binary64 m e accuracy = first
  rw [hfirst] at hmantissa hexponent₁
  have hrounded := roundedMantissa_le first.1
  obtain ⟨-, hexponent₂⟩ := shiftToTargetExponent_eq first.1.roundedMantissa first.2 .exact
  have hlog := log2_shift_add_one_le m (max (totalExponent m e - 53) (-1074) - e).toNat
  have hle : first.1.roundedMantissa.log2 ≤
      (m / 2 ^ (max (totalExponent m e - 53) (-1074) - e).toNat + 1).log2 := by
    rw [hmantissa] at hrounded
    exact log2_le_log2 hrounded
  have hlast : (UnpackedFloat.shiftToTargetExponent Format.binary64 first.1.roundedMantissa first.2
      .exact).2 ≤ n := by
    rw [hexponent₂]
    simp only [totalExponent, leastExponent] at *
    omega
  subst hfirst
  exact dite_of_forall (fun _ => trivial) fun _ => hlast

theorem within_normalize {m e : Int} (zeroSign : Sign) (hleast : leastExponent ≤ n)
    (hplace : totalExponent m.natAbs e ≤ n + 52) :
    Within n (UnpackedFloat.normalize Format.binary64 m e zeroSign) := by
  have hround : ∀ sign, Within n (UnpackedFloat.round Format.binary64 sign m.natAbs e) := by
    intro sign
    have hlog := log2_shiftLeft_le m.natAbs
      (e - Format.binary64.targetExponent (totalExponent m.natAbs e)).toNat
    have htarget : Format.binary64.targetExponent (totalExponent m.natAbs e) =
        max (totalExponent m.natAbs e - 53) (-1074) := rfl
    rw [UnpackedFloat.round, UnpackedFloat.decreaseExponent]
    refine within_roundWithAccuracy sign .exact hleast ?_ ?_
    · simp only [totalExponent] at *
      omega
    · simp only [totalExponent, leastExponent] at *
      omega
  rw [UnpackedFloat.normalize]
  split
  · rename_i hsign
    have hnegative := Int.compare_eq_lt.mp hsign
    rw [show (-m).toNat = m.natAbs by omega]
    exact hround .negative
  · trivial
  · rename_i hsign
    have hpositive := Int.compare_eq_gt.mp hsign
    rw [show m.toNat = m.natAbs by omega]
    exact hround .positive

/-! ## Arithmetic -/

theorem Bounded.unpack (h : Bounded k x) :
    (∃ sign, x.toModel.unpack = .zero sign) ∨
      ∃ sign m e hm, x.toModel.unpack = .finite sign m e hm ∧ m.log2 ≤ 52 ∧ e ≤ k := by
  have hfits := fits_unpack x
  rw [Bounded] at h
  generalize x.toModel.unpack = u at h hfits
  cases u with
  | zero sign => exact .inl ⟨sign, rfl⟩
  | finite sign m e hm => exact .inr ⟨sign, m, e, hm, rfl, log2_le_of_lt hfits.1, h⟩
  | infinity sign => exact h.elim
  | notANumber => exact h.elim

theorem Bounded.mul (hx : Bounded k x) (hy : Bounded l y) (hle : k + l + 54 ≤ n)
    (hn : IsExponent n) : Bounded n (x * y) := by
  refine bounded_mk_pack hn ?_
  rcases hx.unpack with ⟨s₁, hx⟩ | ⟨s₁, m₁, e₁, hm₁, hx, hlog₁, he₁⟩ <;>
    rcases hy.unpack with ⟨s₂, hy⟩ | ⟨s₂, m₂, e₂, hm₂, hy, hlog₂, he₂⟩ <;> rw [hx, hy]
  case inr.inr =>
    have hlog := log2_mul_le m₁ m₂
    refine within_roundWithAccuracy _ .exact hn.1 ?_ ?_
    · simp only [totalExponent]
      omega
    · omega
  all_goals trivial

theorem natAbs_apply (sign : Sign) (m : Nat) : (sign.apply m).natAbs = m := by
  cases sign
  · exact Int.natAbs_neg _
  · rfl

/-- A sum or a difference of two mantissas that have been brought to one exponent. -/
theorem within_aligned {m₁ m₂ : Nat} {e₁ e₂ total : Int} (hlog₁ : m₁.log2 ≤ 52)
    (hlog₂ : m₂.log2 ≤ 52) (he₁ : e₁ + 2 ≤ n) (he₂ : e₂ + 2 ≤ n) (hn : IsExponent n)
    (htotal : total.natAbs ≤
      m₁ <<< (e₁ - min e₁ e₂).toNat + m₂ <<< (e₂ - min e₁ e₂).toNat) (zeroSign : Sign) :
    Within n (UnpackedFloat.normalize Format.binary64 total (min e₁ e₂) zeroSign) := by
  have hshift₁ := log2_shiftLeft_le m₁ (e₁ - min e₁ e₂).toNat
  have hshift₂ := log2_shiftLeft_le m₂ (e₂ - min e₁ e₂).toNat
  have hsum := log2_add_le (m₁ <<< (e₁ - min e₁ e₂).toNat) (m₂ <<< (e₂ - min e₁ e₂).toNat)
  have hlog := log2_le_log2 htotal
  refine within_normalize zeroSign hn.1 ?_
  simp only [totalExponent]
  omega

theorem Bounded.add (hx : Bounded k x) (hy : Bounded l y) (hk : k + 2 ≤ n) (hl : l + 2 ≤ n)
    (hn : IsExponent n) : Bounded n (x + y) := by
  refine bounded_mk_pack hn ?_
  rcases hx.unpack with ⟨s₁, hx⟩ | ⟨s₁, m₁, e₁, hm₁, hx, hlog₁, he₁⟩ <;>
    rcases hy.unpack with ⟨s₂, hy⟩ | ⟨s₂, m₂, e₂, hm₂, hy, hlog₂, he₂⟩ <;> rw [hx, hy]
  case inl.inl => exact iteInduction (fun _ => trivial) fun _ => trivial
  case inl.inr =>
    show e₂ ≤ n
    omega
  case inr.inl =>
    show e₁ ≤ n
    omega
  case inr.inr =>
    refine within_aligned hlog₁ hlog₂ (by omega) (by omega) hn ?_ _
    refine Nat.le_trans (Int.natAbs_add_le _ _) (Nat.le_of_eq ?_)
    rw [natAbs_apply, natAbs_apply]

theorem Bounded.sub (hx : Bounded k x) (hy : Bounded l y) (hk : k + 2 ≤ n) (hl : l + 2 ≤ n)
    (hn : IsExponent n) : Bounded n (x - y) := by
  refine bounded_mk_pack hn ?_
  rcases hx.unpack with ⟨s₁, hx⟩ | ⟨s₁, m₁, e₁, hm₁, hx, hlog₁, he₁⟩ <;>
    rcases hy.unpack with ⟨s₂, hy⟩ | ⟨s₂, m₂, e₂, hm₂, hy, hlog₂, he₂⟩ <;> rw [hx, hy]
  case inl.inl => exact iteInduction (fun _ => trivial) fun _ => trivial
  case inl.inr =>
    show e₂ ≤ n
    omega
  case inr.inl =>
    show e₁ ≤ n
    omega
  case inr.inr =>
    refine within_aligned hlog₁ hlog₂ (by omega) (by omega) hn ?_ _
    refine Nat.le_trans (Int.natAbs_sub_le _ _) (Nat.le_of_eq ?_)
    rw [natAbs_apply, natAbs_apply]

/-- A number other than zero whose exponent is at least `limit`. -/
def AtLeast (limit : Int) : UnpackedFloat → Prop
  | .finite _ _ e _ => limit ≤ e
  | _ => False

instance (limit : Int) (u : UnpackedFloat) : Decidable (AtLeast limit u) :=
  match u with
  | .finite _ _ e _ => inferInstanceAs (Decidable (limit ≤ e))
  | .zero _ => isFalse id
  | .infinity _ => isFalse id
  | .notANumber => isFalse id

theorem Bounded.div (hx : Bounded k x) (hy : AtLeast l y.toModel.unpack)
    (hle : k - l + 1 ≤ n) (hn : IsExponent n) : Bounded n (x / y) := by
  refine bounded_mk_pack hn ?_
  generalize y.toModel.unpack = v at hy
  cases v with
  | zero sign => exact hy.elim
  | infinity sign => exact hy.elim
  | notANumber => exact hy.elim
  | finite s₂ m₂ e₂ hm₂ =>
    have he₂ : l ≤ e₂ := hy
    rcases hx.unpack with ⟨s₁, hx⟩ | ⟨s₁, m₁, e₁, hm₁, hx, hlog₁, he₁⟩ <;> rw [hx]
    case inl => trivial
    case inr =>
      let target := min (e₁ - e₂) (Format.binary64.targetExponent
        (totalExponent m₁ e₁ - totalExponent m₂ e₂))
      have htarget : target ≤ e₁ - e₂ := Int.min_le_left _ _
      have hshift := log2_shiftLeft_le m₁ (e₁ - e₂ - target).toNat
      have hquotient := log2_le_log2 (Nat.div_le_self (m₁ <<< (e₁ - e₂ - target).toNat) m₂)
      refine within_roundWithAccuracy _ _ hn.1 ?_ ?_
      · show totalExponent (m₁ <<< (e₁ - e₂ - target).toNat / m₂) target ≤ n + 52
        simp only [totalExponent]
        omega
      · show target ≤ n
        omega

theorem Bounded.half (h : Bounded k x) (hfrom : 0 ≤ k) (hto : k ≤ 900) :
    Bounded (k + 52) (x / 2.0) :=
  h.div (by decide : AtLeast (-51) (2.0 : Float).toModel.unpack) (by omega)
    (isExponent_of_le (by omega) (by omega))

/-! ## Integers -/

theorem within_normalize_natCast {m : Nat} (h : m < 2 ^ 64) :
    Within 12 (UnpackedFloat.normalize Format.binary64 (m : Int) 0 .positive) := by
  have hlog : (m : Int).natAbs.log2 ≤ 63 := log2_le_of_lt h
  refine within_normalize .positive (by decide) ?_
  simp only [totalExponent]
  omega

theorem bounded_toFloat (m : UInt64) : Bounded 12 m.toFloat :=
  bounded_mk_pack (by decide) (within_normalize_natCast m.toNat_lt)

theorem bounded_toFloat32 (m : UInt32) : Bounded 12 m.toFloat :=
  bounded_mk_pack (by decide) (within_normalize_natCast (Nat.lt_trans m.toNat_lt (by decide)))

theorem bounded_toFloat8 (m : UInt8) : Bounded 12 m.toFloat :=
  bounded_mk_pack (by decide) (within_normalize_natCast (Nat.lt_trans m.toNat_lt (by decide)))

theorem bounded_ofNat {m : Nat} (h : m < 2 ^ 53) : Bounded 14 (Float.ofNat m) := by
  have hsmall : m < 2 ^ 53 ∧ 0 ≤ 22 := ⟨h, Nat.zero_le _⟩
  have hofNat : Float.ofNat m = m.toUInt64.toFloat * 1.0 := by
    show Float.ofScientific m false 0 = _
    rw [Float.ofScientific, dif_pos hsmall]
    rfl
  rw [hofNat]
  exact (bounded_toFloat _).mul (by decide : Bounded (-52) 1.0) (by decide) (by decide)

theorem isFinite_toFloat (m : UInt64) : m.toFloat.isFinite = true :=
  (bounded_toFloat m).isFinite

/-! ## Hundredths -/

theorem roundHalfUp_lt {m : Nat} (h : m < 2 ^ 53) (j : Nat) : roundHalfUp m (j + 1) < 2 ^ 53 := by
  have hpow : Nat.pow 2 (j + 1 + 1) = Nat.pow 2 (j + 1) * 2 := rfl
  have hpos : 2 ≤ Nat.pow 2 (j + 1) := Nat.le_self_pow (Nat.succ_ne_zero j) 2
  rw [roundHalfUp, hpow]
  generalize Nat.pow 2 (j + 1) = p at hpos
  rw [Nat.div_lt_iff_lt_mul (by omega)]
  omega

theorem Bounded.roundHalfAway (h : Bounded k x) (hk : k ≤ n) (hsmall : 14 ≤ n)
    (hn : IsExponent n) : Bounded n (Number.roundHalfAway x) := by
  rw [Number.roundHalfAway]
  split
  · rename_i sign m j hm hunpack
    have hfits := fits_unpack x
    rw [hunpack] at hfits
    have hinteger := (bounded_ofNat (roundHalfUp_lt hfits.1 j)).mono hsmall
    split
    · exact hinteger
    · exact hinteger.neg hn
  · exact h.mono hk

theorem Bounded.toHundredths (h : Bounded k x) (hk : k + 55 ≤ n) (hsmall : 61 ≤ n)
    (hn : IsExponent n) : Bounded n (Number.toHundredths x) := by
  have hgreatest : n ≤ 971 := hn.2
  have hn' : IsExponent (n - 47) := by
    constructor
    · show (-1074 : Int) ≤ n - 47
      omega
    · show n - 47 ≤ 971
      omega
  have hscaled : Bounded (n - 47) (x * 100.0) :=
    h.mul (by decide : Bounded (-46) 100.0) (by omega) hn'
  have hrounded := hscaled.roundHalfAway (Int.le_refl _) (by omega) hn'
  have hhundred : AtLeast (-46) (100.0 : Float).toModel.unpack := by decide
  exact hrounded.div hhundred (by omega) hn

end Number
end AnimatedGlyph
