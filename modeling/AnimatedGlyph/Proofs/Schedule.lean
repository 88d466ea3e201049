/-
The arithmetic of schedules.

Starts and stops are quotients of natural numbers, and what the rest of the theory
needs of them is here: where they lie on the timeline, that the last word stops with
it, and that they are frames, so that the 32-bit words of a window hold them exactly.

`forall_two_frames_iff` says when every word of a line has two frames: the line has to
have twice as many frames as words.  One direction is the distance between two
quotients; the other is an induction along the line, in which the starts run ahead of
twice the number of words.
-/
import AnimatedGlyph.Timeline.Window

namespace AnimatedGlyph

/-! ## Starts and stops -/

theorem wordStart_lt {words total i : Nat} (htotal : 0 < total) (hi : i < words) :
    wordStart words total i < total := by
  refine Nat.div_lt_of_lt_mul ?_
  exact Nat.mul_lt_mul_of_pos_right hi htotal

theorem wordStart_le {words total i : Nat} (hi : i < words) :
    wordStart words total i ≤ total := by
  refine Nat.div_le_of_le_mul ?_
  exact Nat.mul_le_mul_right total (Nat.le_of_lt hi)

theorem wordStop_le (words total i : Nat) : wordStop words total i ≤ total :=
  Nat.min_le_right _ _

theorem mul_div_words {words total : Nat} (hwords : 0 < words) :
    words * total / words = total :=
  Nat.mul_div_cancel_left total hwords

theorem wordStart_lt_wordStop {words total i : Nat} (htotal : 0 < total) (hi : i < words) :
    wordStart words total i < wordStop words total i := by
  have hstart := wordStart_lt htotal hi
  rw [wordStop]
  omega

theorem wordStop_last {words total i : Nat} (hi : i + 1 = words) :
    wordStop words total i = total := by
  have hlast : (i + 1) * total / words = total := by
    rw [hi]
    exact mul_div_words (by omega)
  rw [wordStop, hlast]
  omega

/-! ## Two frames for every word -/

theorem wordStop_le_of_two_frames {words total i : Nat}
    (hi : wordStart words total i + 2 ≤ wordStop words total i) :
    wordStart words total i + 2 ≤ (i + 1) * total / words := by
  rw [wordStop] at hi
  omega

theorem two_frames_of_le {words total i : Nat} (hwords : 2 * words ≤ total) (hi : i < words) :
    wordStart words total i + 2 ≤ wordStop words total i := by
  have hpos : 0 < words := by omega
  have hnext : wordStart words total i + 2 ≤ (i + 1) * total / words := by
    calc wordStart words total i + 2
        = (i * total + words * 2) / words := (Nat.add_mul_div_left _ _ hpos).symm
      _ ≤ (i * total + total) / words := Nat.div_le_div_right (by omega)
      _ = (i + 1) * total / words := by rw [Nat.succ_mul]
  have hend : (i + 1) * total / words ≤ total := by
    refine Nat.div_le_of_le_mul ?_
    exact Nat.mul_le_mul_right total hi
  rw [wordStop]
  omega

theorem two_mul_le_of_two_frames {words total : Nat}
    (h : ∀ i, i < words → wordStart words total i + 2 ≤ wordStop words total i) :
    ∀ i, i ≤ words → 2 * i ≤ i * total / words := by
  -- The starts run ahead of twice the number of words.
  intro i
  induction i with
  | zero => intro _; exact Nat.zero_le _
  | succ i ih =>
    intro hi
    have hbefore : 2 * i ≤ wordStart words total i := ih (by omega)
    have hnext := wordStop_le_of_two_frames (h i hi)
    omega

/-- Every word of a line has two frames exactly if there are twice as many frames as
words. -/
theorem forall_two_frames_iff {words total : Nat} (hwords : 0 < words) :
    (∀ i, i < words → wordStart words total i + 2 ≤ wordStop words total i) ↔
      2 * words ≤ total := by
  constructor
  · intro h
    have hend := two_mul_le_of_two_frames h words (Nat.le_refl words)
    rwa [mul_div_words hwords] at hend
  · intro h i hi
    exact two_frames_of_le h hi

/-! ## Windows -/

theorem length_schedule (words : Nat) (total : UInt32) :
    (schedule words total).length = words := by
  simp [schedule]

theorem getElem_schedule {words i : Nat} {total : UInt32} (h : i < (schedule words total).length) :
    (schedule words total)[i] =
      ⟨UInt32.ofNat (wordStart words total.toNat i),
        UInt32.ofNat (wordStop words total.toNat i)⟩ := by
  simp [schedule]

theorem toNat_ofNat_of_le {n : Nat} {total : UInt32} (h : n ≤ total.toNat) :
    (UInt32.ofNat n).toNat = n := by
  rw [UInt32.toNat_ofNat']
  exact Nat.mod_eq_of_lt (Nat.lt_of_le_of_lt h total.toNat_lt)

theorem toNat_wordStart {words i : Nat} {total : UInt32} (hi : i < words) :
    (UInt32.ofNat (wordStart words total.toNat i)).toNat = wordStart words total.toNat i :=
  toNat_ofNat_of_le (wordStart_le hi)

theorem toNat_wordStop (words i : Nat) (total : UInt32) :
    (UInt32.ofNat (wordStop words total.toNat i)).toNat = wordStop words total.toNat i :=
  toNat_ofNat_of_le (wordStop_le words total.toNat i)

end AnimatedGlyph
