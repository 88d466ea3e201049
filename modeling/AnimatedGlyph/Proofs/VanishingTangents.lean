/-
Tangents that vanish.

A part of a tangent is 21 times a number from zero to one, less 9, in hundredths.  It is zero
if the number is close to three sevenths, which some draws are: those of the words whose
highest 53 bits are in an interval that is known to the bit (`jitter_beq_zero_iff`), about one
word in two thousand.  A tangent is zero if both of its words are of this kind.

Three roundings separate the word from the number that is rounded to hundredths, and the bits
of a word are finer than their errors, if only just.  At the lower end one word is too close to
the boundary for that, and it is computed.
-/
import AnimatedGlyph.Proofs.Coordinates
import AnimatedGlyph.Proofs.Hundredths

namespace AnimatedGlyph

open Number

/-! ## Parts of tangents -/

/-- The words for which a part of a tangent is zero. -/
def Cancels (word : UInt64) : Prop :=
  3858083680780725 ≤ (word >>> 11).toNat ∧ (word >>> 11).toNat ≤ 3862372823282982

instance (word : UInt64) : Decidable (Cancels word) :=
  inferInstanceAs (Decidable (_ ∧ _))

theorem toNat_shiftRight_lt (word : UInt64) : (word >>> 11).toNat < 2 ^ 53 := by
  have hshift : (word >>> 11).toNat = word.toNat >>> 11 := UInt64.toNat_shiftRight word 11
  have hword := word.toNat_lt
  rw [hshift, Nat.shiftRight_eq_div_pow]
  omega

theorem value_nextUnit (source : RandomSource) :
    value source.nextUnit.1 = (source.word source.taken >>> 11).toNat / 2 ^ 53 := by
  have hdigits := toNat_shiftRight_lt (source.word source.taken)
  have hdivisor : value 9007199254740992.0 = 2 ^ 53 := by
    show (1 : ℚ) * ((2 ^ 52 : Nat) * 2 ^ (1 : Int)) = 2 ^ 53
    norm_num
  have hrounds := roundsTo_div (isFinite_toFloat (source.word source.taken >>> 11))
    (by decide : (9007199254740992.0 : Float).isFinite = true) (by rw [hdivisor]; norm_num)
    (bounded_nextUnit source).isFinite
  rw [value_toFloat hdigits, hdivisor] at hrounds
  refine hrounds.exact (j := (source.word source.taken >>> 11).toNat) (k := -53) ?_ (by decide) ?_
  · rw [Nat.abs_cast]
    exact_mod_cast hdigits
  · rw [zpow_neg, div_eq_mul_inv]
    rfl

/-- Three roundings between a fraction and a hundred times a part of a tangent. -/
structure Computed (v a b c : ℚ) : Prop where
  scaled : RoundsTo (21 * v) a
  moved : RoundsTo (a - 9) b
  enlarged : RoundsTo (b * 100) c

section Errors

variable {v a b c : ℚ}

theorem Computed.le (h : Computed v a b c) (hnonneg : 0 ≤ v)
    (hv : v ≤ 3858083680780724 / 2 ^ 53) : c ≤ -1 / 2 := by
  have ha := h.scaled.le_of_nonneg (by linarith)
  have hb := h.moved.le_of_nonpos (by linarith)
  have hc := h.enlarged.le_of_nonpos (by linarith)
  linarith

theorem Computed.ge (h : Computed v a b c) (hv : 3862372823282983 / 2 ^ 53 ≤ v) :
    1 / 2 ≤ c := by
  have ha := h.scaled.ge_of_nonneg (by linarith)
  have hb := h.moved.ge_of_nonneg (by linarith)
  have hc := h.enlarged.ge_of_nonneg (by linarith)
  linarith

theorem Computed.abs_lt_half (h : Computed v a b c) (hlow : 3858083680780726 / 2 ^ 53 ≤ v)
    (hhigh : v ≤ 3862372823282982 / 2 ^ 53) : |c| < 1 / 2 := by
  have hle := h.scaled.le_of_nonneg (by linarith)
  have hge := h.scaled.ge_of_nonneg (by linarith)
  have ha : |a - 9| ≤ 6 / 1000 := by
    rw [abs_le]
    constructor <;> linarith
  have hmoved := h.moved.error
  have hb : |b * 100| ≤ 6 / 10 := by
    rw [abs_le] at hmoved ⊢
    constructor <;> linarith
  have henlarged := h.enlarged.error
  rw [abs_le] at hmoved henlarged
  rw [abs_lt]
  constructor <;> linarith

end Errors

theorem computed_jitter (source : RandomSource) :
    Computed (value source.nextUnit.1) (value (21.0 * source.nextUnit.1))
      (value (21.0 * source.nextUnit.1 - 9.0))
      (value ((21.0 * source.nextUnit.1 - 9.0) * 100.0)) := by
  have hfactor : value 21.0 = 21 := by
    show (1 : ℚ) * ((21 * 2 ^ 48 : Nat) * 2 ^ (-48 : Int)) = 21
    norm_num
  have hnine : value 9.0 = 9 := by
    show (1 : ℚ) * ((9 * 2 ^ 49 : Nat) * 2 ^ (-49 : Int)) = 9
    norm_num
  obtain ⟨hscaled, hmoved⟩ := bounded_moved (bounded_nextUnit source)
  have henlarged : Bounded 28 ((21.0 * source.nextUnit.1 - 9.0) * 100.0) :=
    bounded_mul_hundred hmoved (by decide) (by decide)
  refine ⟨?_, ?_, ?_⟩
  · rw [← hfactor]
    exact roundsTo_mul (by decide) (bounded_nextUnit source).isFinite hscaled.isFinite
  · rw [← hnine]
    exact roundsTo_sub hscaled.isFinite (by decide) hmoved.isFinite
  · rw [← value_hundred]
    exact roundsTo_mul hmoved.isFinite (by decide) henlarged.isFinite

theorem jitter_at_boundary :
    (jitter ((3858083680780725 : UInt64).toFloat / 9007199254740992.0) == 0.0) = true := by
  decide +kernel

/-- A part of a tangent is zero just for the words of the interval. -/
theorem jitter_beq_zero_iff (source : RandomSource) :
    (jitter source.nextUnit.1 == 0.0) = true ↔ Cancels (source.word source.taken) := by
  have hcomputed := computed_jitter source
  have hunit := value_nextUnit source
  generalize hn : (source.word source.taken >>> 11).toNat = n at hunit
  have hscale : ∀ m : Nat, n ≤ m → value source.nextUnit.1 ≤ m / 2 ^ 53 := by
    intro m hle
    rw [hunit]
    exact div_le_div_of_nonneg_right (Nat.cast_le.mpr hle) (pow_pos two_pos 53).le
  have hscale' : ∀ m : Nat, m ≤ n → m / 2 ^ 53 ≤ value source.nextUnit.1 := by
    intro m hle
    rw [hunit]
    exact div_le_div_of_nonneg_right (Nat.cast_le.mpr hle) (pow_pos two_pos 53).le
  have hiff := toHundredths_beq_zero_iff (bounded_moved (bounded_nextUnit source)).2 (by decide)
  rw [Cancels, hn]
  by_cases hboundary : n = 3858083680780725
  · have hword : source.word source.taken >>> 11 = 3858083680780725 :=
      UInt64.toNat_inj.mp (hn.trans hboundary)
    refine iff_of_true ?_ (by omega)
    show (jitter ((source.word source.taken >>> 11).toFloat / 9007199254740992.0) == 0.0) = true
    rw [hword]
    exact jitter_at_boundary
  · refine hiff.trans ⟨fun hsmall => ?_, fun ⟨hlow, hhigh⟩ => ?_⟩
    · rw [abs_lt] at hsmall
      by_contra hout
      rcases Nat.lt_or_ge n 3858083680780725 with hlow | hhigh
      · have hc := hcomputed.le (by simpa using hscale' 0 (Nat.zero_le n))
          (by simpa using hscale 3858083680780724 (by omega))
        linarith
      · have hc := hcomputed.ge (by simpa using hscale' 3862372823282983 (by omega))
        linarith
    · exact hcomputed.abs_lt_half (by simpa using hscale' 3858083680780726 (by omega))
        (by simpa using hscale 3862372823282982 hhigh)

end AnimatedGlyph
