/-
Spans of a text.

What a reader takes of a text as long as a test holds does not depend on what stands behind, so
long as that does not go on in the same way (`Stops`).
-/
import Mathlib.Data.List.TakeWhile

namespace AnimatedGlyph

variable {α : Type} {p : α → Bool} {rest : List α}

/-- The text does not go on with an item that passes the test. -/
def Stops (p : α → Bool) (rest : List α) : Prop :=
  ∀ a ∈ rest.head?, p a = false

theorem stops_dropWhile (p : α → Bool) (items : List α) : Stops p (items.dropWhile p) := by
  intro a ha
  have hnot := List.head?_dropWhile_not p items
  rwa [Option.mem_def.mp ha] at hnot

theorem takeWhile_append_of_stop (h : Stops p rest) (items : List α) :
    (items ++ rest).takeWhile p = items.takeWhile p ∧
      (items ++ rest).dropWhile p = items.dropWhile p ++ rest := by
  induction items with
  | nil =>
    cases rest with
    | nil => exact ⟨rfl, rfl⟩
    | cons a more =>
      have ha : ¬p a = true := by
        rw [h a rfl]
        exact Bool.false_ne_true
      exact ⟨List.takeWhile_cons_of_neg ha, List.dropWhile_cons_of_neg ha⟩
  | cons a more ih =>
    by_cases ha : p a = true
    · rw [List.cons_append, List.takeWhile_cons_of_pos ha, List.takeWhile_cons_of_pos ha,
        List.dropWhile_cons_of_pos ha, List.dropWhile_cons_of_pos ha, ih.1, ih.2]
      exact ⟨rfl, rfl⟩
    · rw [List.cons_append, List.takeWhile_cons_of_neg ha, List.takeWhile_cons_of_neg ha,
        List.dropWhile_cons_of_neg ha, List.dropWhile_cons_of_neg ha]
      exact ⟨rfl, rfl⟩

theorem span_append {front : List α} (hfront : ∀ a ∈ front, p a = true) (hrest : Stops p rest) :
    (front ++ rest).takeWhile p = front ∧ (front ++ rest).dropWhile p = rest := by
  obtain ⟨htake, hdrop⟩ := takeWhile_append_of_stop hrest front
  rw [htake, hdrop, List.takeWhile_eq_self_iff.mpr hfront, List.dropWhile_eq_nil_iff.mpr hfront]
  exact ⟨rfl, rfl⟩

/-- Two spans in front of what stops them are found again. -/
theorem append_inj_of_stops {first second more : List α} (hfirst : ∀ a ∈ first, p a = true)
    (hsecond : ∀ a ∈ second, p a = true) (hrest : Stops p rest) (hmore : Stops p more)
    (h : first ++ rest = second ++ more) : first = second ∧ rest = more := by
  have hspan := span_append hfirst hrest
  rw [h, (span_append hsecond hmore).1, (span_append hsecond hmore).2] at hspan
  exact ⟨hspan.1.symm, hspan.2.symm⟩

end AnimatedGlyph
