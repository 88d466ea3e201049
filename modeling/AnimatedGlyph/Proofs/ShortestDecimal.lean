/-
The decimals that name a double.

The rationals that are nearer to a double than to any other form an interval around it, whose
ends belong to it if the mantissa is even (`Names`).  The shortest decimal of a double lies in
its interval (`names_shortest`): a grid point is only taken if it does, and the grid that comes
last is so fine that the point below the double does.  The intervals of two doubles have no
point in common (`Names.unique`), so that a double is known from its decimal.
-/
import Mathlib.Tactic.FieldSimp
import Mathlib.Tactic.Positivity
import Mathlib.Tactic.Ring
import AnimatedGlyph.Number.Shortest
import AnimatedGlyph.Proofs.FloatValues

namespace AnimatedGlyph
namespace Number

open Float.Model.UnpackedFloat (Sign)

/-- The rational that a decimal stands for. -/
def Decimal.value (d : Decimal) : ℚ :=
  d.digits * 10 ^ d.exponent

/-- The rational names the double `m * 2 ^ q`. -/
def Names (m : Nat) (q : Int) (v : ℚ) : Prop :=
  if m % 2 = 0 then (m - quartersBelow m q / 4) * 2 ^ q ≤ v ∧ v ≤ (m + 1 / 2) * 2 ^ q
  else (m - quartersBelow m q / 4) * 2 ^ q < v ∧ v < (m + 1 / 2) * 2 ^ q

variable {m n : Nat} {q f k : Int} {v : ℚ}

theorem quartersBelow_bounds (m : Nat) (q : Int) :
    1 ≤ quartersBelow m q ∧ quartersBelow m q ≤ 2 := by
  rw [quartersBelow]
  split <;> decide

theorem names_of_inside (hlow : (m - quartersBelow m q / 4) * 2 ^ q < v)
    (hhigh : v < (m + 1 / 2) * 2 ^ q) : Names m q v := by
  rw [Names]
  split
  · exact ⟨hlow.le, hhigh.le⟩
  · exact ⟨hlow, hhigh⟩

/-! ## Grids -/

theorem zpow_eq_div {a : ℚ} (ha : a ≠ 0) (n : Int) :
    a ^ n = a ^ n.toNat / a ^ (-n).toNat := by
  have hn : n = (n.toNat : Int) - ((-n).toNat : Int) := by omega
  conv_lhs => rw [hn]
  rw [zpow_sub₀ ha, zpow_natCast, zpow_natCast]

theorem ten_zpow_pos (k : Int) : (0 : ℚ) < 10 ^ k :=
  zpow_pos (by norm_num) k

/-- Measured in steps of the same length, the unit of the mantissa has the length of the
numerator and the step of the grid has that of the denominator. -/
theorem exists_step (q k : Int) :
    ∃ s : ℚ, 0 < s ∧ (2 : ℚ) ^ q = (unitInSteps q k).1 * s ∧
      (10 : ℚ) ^ k = (unitInSteps q k).2 * s := by
  refine ⟨1 / (2 ^ (-q).toNat * 10 ^ (-k).toNat), by positivity, ?_, ?_⟩
  · rw [zpow_eq_div two_ne_zero q]
    simp only [unitInSteps, Nat.pow_eq]
    push_cast
    field_simp
  · rw [zpow_eq_div (by norm_num) k]
    simp only [unitInSteps, Nat.pow_eq]
    push_cast
    field_simp

theorem cast_quarters (hm : 0 < m) :
    ((4 * m - quartersBelow m q : Nat) : ℚ) = 4 * m - quartersBelow m q := by
  have hbelow := (quartersBelow_bounds m q).2
  rw [Nat.cast_sub (by omega)]
  push_cast
  rfl

/-- A grid point that passes the test names the double. -/
theorem names_of_namesDouble (hm : 0 < m) {c : Nat}
    (h : namesDouble m (quartersBelow m q) (unitInSteps q k).1 (unitInSteps q k).2 c = true) :
    Names m q (c * 10 ^ k) := by
  obtain ⟨s, hs, htwo, hten⟩ := exists_step q k
  generalize (unitInSteps q k).1 = num at *
  generalize (unitInSteps q k).2 = den at *
  rw [Names, htwo, hten]
  rw [namesDouble] at h
  split at h
  · rename_i heven
    rw [if_pos heven]
    simp only [Bool.and_eq_true, decide_eq_true_eq] at h
    have hlow : ((4 * m - quartersBelow m q : Nat) : ℚ) * num ≤ 4 * den * c := by
      exact_mod_cast h.1
    have hhigh : (4 * den * c : ℚ) ≤ (4 * m + 2) * num := by exact_mod_cast h.2
    rw [cast_quarters hm] at hlow
    have hlow' := mul_le_mul_of_nonneg_right hlow hs.le
    have hhigh' := mul_le_mul_of_nonneg_right hhigh hs.le
    constructor <;> linarith
  · rename_i hodd
    rw [if_neg hodd]
    simp only [Bool.and_eq_true, decide_eq_true_eq] at h
    have hlow : ((4 * m - quartersBelow m q : Nat) : ℚ) * num < 4 * den * c := by
      exact_mod_cast h.1
    have hhigh : (4 * den * c : ℚ) < (4 * m + 2) * num := by exact_mod_cast h.2
    rw [cast_quarters hm] at hlow
    have hlow' := mul_lt_mul_of_pos_right hlow hs
    have hhigh' := mul_lt_mul_of_pos_right hhigh hs
    constructor <;> linarith

theorem namesDouble_of_gridPoint {below num den c : Nat} (h : gridPoint m below num den = some c) :
    namesDouble m below num den c = true := by
  simp only [gridPoint] at h
  split at h
  · rename_i hboth
    obtain ⟨hlow, hhigh⟩ := Bool.and_eq_true_iff.mp hboth
    split at h
    · cases h
      exact hlow
    · split at h
      · cases h
        exact hhigh
      · split at h <;> cases h
        · exact hlow
        · exact hhigh
  · split at h
    · cases h
      assumption
    · split at h <;> cases h
      assumption

/-- On a grid whose step is at most a quarter of the unit, the point below the double names
it. -/
theorem names_floor (hfine : 4 * (10 : ℚ) ^ k ≤ 2 ^ q) :
    Names m q ((m * (unitInSteps q k).1 / (unitInSteps q k).2 : Nat) * 10 ^ k) := by
  obtain ⟨s, hs, htwo, hten⟩ := exists_step q k
  generalize (unitInSteps q k).1 = num at *
  generalize (unitInSteps q k).2 = den at *
  have hden : 0 < (den : ℚ) := pos_of_mul_pos_left (hten ▸ ten_zpow_pos k) hs.le
  have hnum : 0 < (num : ℚ) := pos_of_mul_pos_left (htwo ▸ two_zpow_pos q) hs.le
  have hbelow : (m * num / den : Nat) * (den : ℚ) ≤ m * num := by
    exact_mod_cast Nat.div_mul_le_self (m * num) den
  have habove : (m * num : ℚ) < (m * num / den : Nat) * (den : ℚ) + den := by
    exact_mod_cast Nat.lt_div_mul_add (Nat.cast_pos.mp hden)
  have hquarter : 1 ≤ (quartersBelow m q : ℚ) := by
    exact_mod_cast (quartersBelow_bounds m q).1
  rw [htwo, hten, ← mul_assoc] at hfine
  have hwide : 4 * (den : ℚ) ≤ num := le_of_mul_le_mul_right hfine hs
  have hroom := mul_le_mul_of_nonneg_right hquarter hnum.le
  refine names_of_inside ?_ ?_
  · rw [htwo, hten, ← mul_assoc, ← mul_assoc]
    exact mul_lt_mul_of_pos_right (by linarith) hs
  · rw [htwo, hten, ← mul_assoc, ← mul_assoc]
    exact mul_lt_mul_of_pos_right (by linarith) hs

/-- The search finds a grid point that names the double, so long as the grid that comes last
is fine enough. -/
theorem names_searchGrids (hm : 0 < m) (tries : Nat) (hfine : 4 * (10 : ℚ) ^ (k - tries) ≤ 2 ^ q) :
    Names m q (searchGrids m (quartersBelow m q) q tries k).value := by
  induction tries generalizing k with
  | zero =>
    rw [Int.natCast_zero, sub_zero] at hfine
    exact names_floor hfine
  | succ tries ih =>
    rw [searchGrids]
    cases hpoint : gridPoint m (quartersBelow m q) (unitInSteps q k).1 (unitInSteps q k).2 with
    | some c =>
      simp only [hpoint]
      exact names_of_namesDouble hm (namesDouble_of_gridPoint hpoint)
    | none =>
      simp only [hpoint]
      refine ih ?_
      have hlast : k - 1 - (tries : Int) = k - (tries + 1 : Nat) := by
        omega
      rwa [hlast]

/-! ## The last grid -/

theorem ten_zpow_le_of_pow {g e : Int} (i : Nat) {j : Nat} (hj : j ≠ 0) (hexponents : g * j ≤ i * e)
    (hpowers : ((10 : ℚ) ^ i) ^ e ≤ (2 ^ j) ^ e) : (10 : ℚ) ^ g ≤ 2 ^ e := by
  refine (pow_le_pow_iff_left₀ (ten_zpow_pos g).le (two_zpow_pos e).le hj).mp ?_
  calc ((10 : ℚ) ^ g) ^ j
      = 10 ^ (g * j) := by rw [zpow_mul, zpow_natCast]
    _ ≤ 10 ^ (i * e) := zpow_le_zpow_right₀ (by norm_num) hexponents
    _ = (10 ^ i) ^ e := by rw [zpow_mul, zpow_natCast]
    _ ≤ (2 ^ j) ^ e := hpowers
    _ = (2 ^ e) ^ j := by rw [← zpow_natCast, ← zpow_natCast, zpow_comm]

/-- The decimal logarithm of a power of two is known to within two digits. -/
theorem ten_zpow_le_two_zpow {g e : Int} (hlog : 100000 * g ≤ 30103 * e) (hlow : -1074 ≤ e)
    (hhigh : e ≤ 1074) : (10 : ℚ) ^ (g - 2) ≤ 2 ^ e := by
  obtain he | he := Int.le_total 0 e
  · refine ten_zpow_le_of_pow 3 (j := 10) (by decide) (by omega) ?_
    exact zpow_le_zpow_left₀ he (by norm_num) (by norm_num)
  · refine ten_zpow_le_of_pow 16 (j := 53) (by decide) (by omega) ?_
    have hinverse : (((10 : ℚ) ^ 16)⁻¹) ^ (-e) ≤ ((2 ^ 53)⁻¹) ^ (-e) :=
      zpow_le_zpow_left₀ (neg_nonneg.mpr he) (by norm_num) (by norm_num)
    rwa [inv_zpow', inv_zpow', neg_neg] at hinverse

/-- After twenty grids the step is at most a quarter of the unit. -/
theorem fine_coarsestGrid (hm : m < 2 ^ 53) (hlow : leastExponent ≤ q)
    (hhigh : q ≤ greatestExponent) : 4 * (10 : ℚ) ^ (coarsestGrid m q - 20) ≤ 2 ^ q := by
  have hdigits : m.log2 ≤ 52 := log2_le_of_lt hm
  rw [leastExponent] at hlow
  rw [greatestExponent] at hhigh
  obtain ⟨g, hg⟩ : ∃ g, g = ((m.log2 + 1 : Int) + q) * 30103 / 100000 := ⟨_, rfl⟩
  have hlog : (10 : ℚ) ^ (g - 2) ≤ 2 ^ ((m.log2 + 1 : Int) + q) :=
    ten_zpow_le_two_zpow (by omega) (by omega) (by omega)
  have hunit : (2 : ℚ) ^ ((m.log2 + 1 : Int) + q) ≤ 2 ^ (53 : Int) * 2 ^ q := by
    rw [zpow_add₀ two_ne_zero]
    refine mul_le_mul_of_nonneg_right ?_ (two_zpow_pos q).le
    exact zpow_le_zpow_right₀ one_le_two (by omega)
  have hsplit : coarsestGrid m q - 20 = g - 2 + -17 := by
    rw [coarsestGrid, ← hg]
    ring
  calc 4 * (10 : ℚ) ^ (coarsestGrid m q - 20)
      = 4 * 10 ^ (-17 : Int) * 10 ^ (g - 2) := by
        rw [hsplit, zpow_add₀ (by norm_num)]
        ring
    _ ≤ 4 * 10 ^ (-17 : Int) * (2 ^ (53 : Int) * 2 ^ q) :=
        mul_le_mul_of_nonneg_left (hlog.trans hunit) (by norm_num)
    _ = 4 * 10 ^ (-17 : Int) * 2 ^ (53 : Int) * 2 ^ q := by ring
    _ ≤ 1 * 2 ^ q := mul_le_mul_of_nonneg_right (by norm_num) (two_zpow_pos q).le
    _ = 2 ^ q := one_mul _

/-- The shortest decimal of a double names it. -/
theorem names_shortest (hpos : 0 < m) (hm : m < 2 ^ 53) (hlow : leastExponent ≤ q)
    (hhigh : q ≤ greatestExponent) : Names m q (shortest m q).value :=
  names_searchGrids hpos 20 (fine_coarsestGrid hm hlow hhigh)

/-! ## Intervals -/

theorem Names.low_le (h : Names m q v) : m - quartersBelow m q / 4 ≤ v / 2 ^ q := by
  rw [le_div_iff₀ (two_zpow_pos q)]
  rw [Names] at h
  split at h
  · exact h.1
  · exact h.1.le

theorem Names.le_high (h : Names m q v) : v / 2 ^ q ≤ m + 1 / 2 := by
  rw [div_le_iff₀ (two_zpow_pos q)]
  rw [Names] at h
  split at h
  · exact h.2
  · exact h.2.le

/-- The ends belong to no odd mantissa. -/
theorem Names.inside (h : Names m q v) (hodd : ¬m % 2 = 0) :
    m - quartersBelow m q / 4 < v / 2 ^ q ∧ v / 2 ^ q < m + 1 / 2 := by
  rw [Names, if_neg hodd] at h
  exact ⟨(lt_div_iff₀ (two_zpow_pos q)).mpr h.1, (div_lt_iff₀ (two_zpow_pos q)).mpr h.2⟩

theorem not_names_of_lt (hlt : m < n) (h : Names m q v) : ¬Names n q v := by
  intro hn
  have hlow := hn.low_le
  have hhigh := h.le_high
  have hbelow : (quartersBelow n q : ℚ) ≤ 2 := by exact_mod_cast (quartersBelow_bounds n q).2
  have hnext : (m : ℚ) + 1 ≤ n := by exact_mod_cast hlt
  by_cases hm : m % 2 = 0
  · by_cases heven : n % 2 = 0
    · have hgap : (m : ℚ) + 2 ≤ n := by exact_mod_cast (by omega : m + 2 ≤ n)
      linarith
    · have hinside := hn.inside heven
      linarith
  · have hinside := h.inside hm
    linarith

/-- Above the least exponent the interval of a mantissa starts no lower than that of the least
one. -/
theorem Names.least_le (h : Names n f v) (hn : 2 ^ 52 ≤ n) (hlow : leastExponent < f) :
    2 ^ 52 - 1 / 4 ≤ v / 2 ^ f := by
  refine le_trans ?_ h.low_le
  by_cases hleast : n = leastNormalMantissa
  · rw [quartersBelow, if_pos ⟨hleast, hlow⟩, hleast, leastNormalMantissa]
    norm_num
  · have hnext : (2 ^ 52 + 1 : ℚ) ≤ n := by
      have hlt : 2 ^ 52 < n := Nat.lt_of_le_of_ne hn fun h => hleast h.symm
      exact_mod_cast hlt
    have hbelow : (quartersBelow n f : ℚ) ≤ 2 := by exact_mod_cast (quartersBelow_bounds n f).2
    linarith

theorem not_names_of_exponent_lt (hlt : q < f) (hm : m < 2 ^ 53) (hlow : leastExponent ≤ q)
    (hn : 2 ^ 52 ≤ n) (h : Names m q v) : ¬Names n f v := by
  intro hother
  have hleast := hother.least_le hn (lt_of_le_of_lt hlow hlt)
  have hscale : v / 2 ^ q = v / 2 ^ f * 2 ^ (f - q) := by
    rw [zpow_sub₀ two_ne_zero, div_mul_div_cancel₀ (two_zpow_pos f).ne']
  have htwo : (2 : ℚ) ≤ 2 ^ (f - q) := by
    calc (2 : ℚ) = 2 ^ (1 : Int) := (zpow_one 2).symm
      _ ≤ 2 ^ (f - q) := zpow_le_zpow_right₀ one_le_two (by omega)
  have hhigh := h.le_high
  have hdouble : (2 ^ 52 - 1 / 4) * 2 ≤ v / 2 ^ q := by
    rw [hscale]
    exact mul_le_mul hleast htwo zero_le_two (le_trans (by norm_num) hleast)
  by_cases heven : m % 2 = 0
  · have hbound : (m : ℚ) + 2 ≤ 2 ^ 53 := by exact_mod_cast (by omega : m + 2 ≤ 2 ^ 53)
    linarith
  · have hbound : (m : ℚ) + 1 ≤ 2 ^ 53 := by exact_mod_cast hm
    have hinside := h.inside heven
    linarith

/-- A rational names at most one double. -/
theorem Names.unique {s t : Sign} {hm : 0 < m} {hn : 0 < n} (hx : Stored (.finite s m q hm))
    (hy : Stored (.finite t n f hn)) (h : Names m q v) (hother : Names n f v) :
    m = n ∧ q = f := by
  obtain ⟨hmlt, hmlow, hmnormal⟩ := hx
  obtain ⟨hnlt, hnlow, hnnormal⟩ := hy
  rcases lt_trichotomy q f with hlt | rfl | hgt
  · have hfull := hnnormal.resolve_right (by omega)
    exact absurd hother (not_names_of_exponent_lt hlt hmlt hmlow hfull h)
  · rcases lt_trichotomy m n with hlt | rfl | hgt
    · exact absurd hother (not_names_of_lt hlt h)
    · exact ⟨rfl, rfl⟩
    · exact absurd h (not_names_of_lt hgt hother)
  · have hfull := hmnormal.resolve_right (by omega)
    exact absurd h (not_names_of_exponent_lt hgt hnlt hnlow hfull hother)

theorem Names.pos (hm : 0 < m) (h : Names m q v) : 0 < v := by
  have hbelow : (quartersBelow m q : ℚ) ≤ 2 := by exact_mod_cast (quartersBelow_bounds m q).2
  have hone : (1 : ℚ) ≤ m := by exact_mod_cast hm
  have hlow := h.low_le
  exact (div_pos_iff_of_pos_right (two_zpow_pos q)).mp (by linarith)

end Number
end AnimatedGlyph
