/-
Zeros of either sign.

Doubles that compare as equal unpack to the same, but for the sign of a zero
(`beq_iff_similar`).  Sums, differences and products of such doubles are the same again, but for
the sign of a zero that they pass on, and so a computation on either of two such doubles leads
to one result `UpToZero`.  The operations are defined on unpacked doubles, and that is where
their cases are gone through.
-/
import AnimatedGlyph.Proofs.FloatValues

namespace AnimatedGlyph
namespace Number

open Float.Model (Format UnpackedFloat)
open Float.Model.UnpackedFloat (Sign)

def IsZero (x : Float) : Prop :=
  x = 0.0 ∨ x = -0.0

/-- The same double, but for the sign of a zero. -/
def UpToZero (x y : Float) : Prop :=
  x = y ∨ IsZero x ∧ IsZero y

theorem isZero_mk_pack (sign : Sign) : IsZero ⟨Float.Model.pack (.zero sign)⟩ := by
  cases sign with
  | positive => exact .inl rfl
  | negative => exact .inr rfl

theorem IsZero.unpack {x : Float} (h : IsZero x) : ∃ sign, x.toModel.unpack = .zero sign := by
  rcases h with rfl | rfl
  · exact ⟨.positive, rfl⟩
  · exact ⟨.negative, rfl⟩

/-! ## Unpacked doubles -/

/-- The same unpacked double, but for the sign of a zero. -/
def Alike (u v : UnpackedFloat) : Prop :=
  u = v ∨ ∃ s t, u = .zero s ∧ v = .zero t

variable {u v w : UnpackedFloat}

theorem alike_zero (s t : Sign) : Alike (.zero s) (.zero t) :=
  .inr ⟨s, t, rfl, rfl⟩

theorem Alike.symm (h : Alike u v) : Alike v u := by
  rcases h with rfl | ⟨s, t, rfl, rfl⟩
  · exact .inl rfl
  · exact alike_zero t s

theorem Alike.trans (h : Alike u v) (h' : Alike v w) : Alike u w := by
  rcases h with rfl | ⟨s, t, rfl, rfl⟩
  · exact h'
  · rcases h' with rfl | ⟨_, r, -, rfl⟩
    · exact alike_zero s t
    · exact alike_zero s r

/-- An operation that makes zeros of either sign alike does so with all doubles. -/
theorem Alike.map (op : UnpackedFloat → UnpackedFloat)
    (zeros : ∀ s t, Alike (op (.zero s)) (op (.zero t))) (h : Alike u v) :
    Alike (op u) (op v) := by
  rcases h with rfl | ⟨s, t, rfl, rfl⟩
  · exact .inl rfl
  · exact zeros s t

theorem Alike.pack (h : Alike u v) : UpToZero ⟨Float.Model.pack u⟩ ⟨Float.Model.pack v⟩ := by
  rcases h with rfl | ⟨s, t, rfl, rfl⟩
  · exact .inl rfl
  · exact .inr ⟨isZero_mk_pack s, isZero_mk_pack t⟩

/-- Two zeros make a zero, of whichever sign. -/
theorem exists_zero_add (s t : Sign) :
    ∃ sign, UnpackedFloat.add .binary64 (.zero s) (.zero t) = .zero sign := by
  cases s <;> cases t <;> exact ⟨_, rfl⟩

theorem exists_zero_sub (s t : Sign) :
    ∃ sign, UnpackedFloat.sub .binary64 (.zero s) (.zero t) = .zero sign := by
  cases s <;> cases t <;> exact ⟨_, rfl⟩

theorem alike_of_zeros (hu : ∃ s, u = .zero s) (hv : ∃ s, v = .zero s) : Alike u v := by
  obtain ⟨s, rfl⟩ := hu
  obtain ⟨t, rfl⟩ := hv
  exact alike_zero s t

theorem alike_zero_add (v : UnpackedFloat) (s t : Sign) :
    Alike (.add .binary64 (.zero s) v) (.add .binary64 (.zero t) v) := by
  cases v with
  | zero r => exact alike_of_zeros (exists_zero_add s r) (exists_zero_add t r)
  | _ => exact .inl rfl

theorem alike_add_zero (v : UnpackedFloat) (s t : Sign) :
    Alike (.add .binary64 v (.zero s)) (.add .binary64 v (.zero t)) := by
  cases v with
  | zero r => exact alike_of_zeros (exists_zero_add r s) (exists_zero_add r t)
  | _ => exact .inl rfl

theorem alike_zero_sub (v : UnpackedFloat) (s t : Sign) :
    Alike (.sub .binary64 (.zero s) v) (.sub .binary64 (.zero t) v) := by
  cases v with
  | zero r => exact alike_of_zeros (exists_zero_sub s r) (exists_zero_sub t r)
  | _ => exact .inl rfl

theorem alike_sub_zero (v : UnpackedFloat) (s t : Sign) :
    Alike (.sub .binary64 v (.zero s)) (.sub .binary64 v (.zero t)) := by
  cases v with
  | zero r => exact alike_of_zeros (exists_zero_sub r s) (exists_zero_sub r t)
  | _ => exact .inl rfl

theorem alike_mul_zero (v : UnpackedFloat) (s t : Sign) :
    Alike (.mul .binary64 v (.zero s)) (.mul .binary64 v (.zero t)) := by
  cases v with
  | zero r => exact alike_zero (r * s) (r * t)
  | finite r m e hm => exact alike_zero (r * s) (r * t)
  | _ => exact .inl rfl

/-! ## Doubles -/

/-- The same double once unpacked, but for the sign of a zero. -/
def Similar (x y : Float) : Prop :=
  Alike x.toModel.unpack y.toModel.unpack

variable {x y z w : Float}

theorem UpToZero.similar (h : UpToZero x y) : Similar x y := by
  rcases h with rfl | ⟨hx, hy⟩
  · exact .inl rfl
  · exact alike_of_zeros hx.unpack hy.unpack

theorem Similar.add (h : Similar x y) (h' : Similar z w) : UpToZero (x + z) (y + w) := by
  have hleft := h.map (UnpackedFloat.add .binary64 · z.toModel.unpack) (alike_zero_add _)
  have hright := h'.map (UnpackedFloat.add .binary64 y.toModel.unpack) (alike_add_zero _)
  exact (hleft.trans hright).pack

theorem Similar.sub (h : Similar x y) (h' : Similar z w) : UpToZero (x - z) (y - w) := by
  have hleft := h.map (UnpackedFloat.sub .binary64 · z.toModel.unpack) (alike_zero_sub _)
  have hright := h'.map (UnpackedFloat.sub .binary64 y.toModel.unpack) (alike_sub_zero _)
  exact (hleft.trans hright).pack

theorem Similar.mul_left (h : Similar x y) (z : Float) : UpToZero (z * x) (z * y) :=
  (h.map (UnpackedFloat.mul .binary64 z.toModel.unpack) (alike_mul_zero _)).pack

theorem UpToZero.add (h : UpToZero x y) (z : Float) : UpToZero (x + z) (y + z) :=
  h.similar.add (.inl rfl)

theorem UpToZero.foldl_add (h : UpToZero x y) (summands : List Float) :
    UpToZero (summands.foldl (· + ·) x) (summands.foldl (· + ·) y) := by
  induction summands generalizing x y with
  | nil => exact h
  | cons z rest ih => exact ih (h.add z)

/-! ## Comparing -/

theorem beq_self_iff : (x == x) = true ↔ x.isNaN = false := by
  rw [beq_eq_compare, beq_iff_eq]
  show _ ↔ x.toModel.unpack.isNaN = false
  cases x.toModel.unpack with
  | notANumber => exact iff_of_false nofun nofun
  | infinity sign => cases sign <;> exact iff_of_true rfl rfl
  | zero sign => exact iff_of_true rfl rfl
  | finite sign m e hm => exact iff_of_true (compare_finite_self sign e hm) rfl

theorem Similar.beq_congr (h : Similar x y) (z : Float) : (z == x) = (z == y) := by
  rw [beq_eq_compare, beq_eq_compare]
  rcases h with h | ⟨s, t, hs, ht⟩
  · rw [h]
  · rw [hs, ht]
    cases z.toModel.unpack with
    | infinity sign => cases sign <;> rfl
    | finite sign m e hm => cases sign <;> rfl
    | _ => rfl

theorem Similar.isNaN_eq (h : Similar x y) : x.isNaN = y.isNaN := by
  show x.toModel.unpack.isNaN = y.toModel.unpack.isNaN
  rcases h with h | ⟨s, t, hs, ht⟩
  · rw [h]
  · rw [hs, ht]
    rfl

/-- Similar doubles compare as equal, unless they are results of undefined operations: such a
result is equal to nothing, not even to itself. -/
theorem beq_iff_similar : (x == y) = true ↔ Similar x y ∧ y.isNaN = false := by
  constructor
  · intro h
    have hsimilar : Similar x y := unpack_eq_of_beq h
    refine ⟨hsimilar, ?_⟩
    rw [← hsimilar.isNaN_eq, ← beq_self_iff, hsimilar.beq_congr, h]
  · rintro ⟨hsimilar, hdefined⟩
    rw [← hsimilar.beq_congr, beq_self_iff, hsimilar.isNaN_eq, hdefined]

end Number
end AnimatedGlyph
