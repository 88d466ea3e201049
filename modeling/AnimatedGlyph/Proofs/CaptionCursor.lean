/-
Captions and their measure.

Setting a word and measuring it go over the characters each in its own way.  The measure adds up
the advances of all of them, from negative zero, and setting carries a cursor along, from zero,
and leaves out the characters that cannot be drawn.  Both come past the same sums nevertheless:
`reach` is the sum behind some characters, and the cursor stands there but for the sign of a
zero, which is all that the two starts can leave behind (`UpToZero.add`).  So a caption fills
just what was measured for it.
-/
import Mathlib.Data.List.Forall2
import AnimatedGlyph.Proofs.LayerStack
import AnimatedGlyph.Proofs.SignedZeros

namespace AnimatedGlyph

namespace Number

theorem le_of_lt {x y : Float} (h : x < y) : x ≤ y := by
  have hlt : (x.toModel.unpack.compare y.toModel.unpack == some .lt) = true := of_decide_eq_true h
  have hle : (x.toModel.unpack.compare y.toModel.unpack).any Ordering.isLE = true := by
    rw [eq_of_beq hlt]
    rfl
  exact decide_eq_true hle

end Number

open Number (UpToZero)

/-! ## The cursor and the measure -/

/-- The sum that the measure has come to behind some characters. -/
def Canvas.reach (canvas : Canvas) (passed : List Char) : Float :=
  (passed.map (advance canvas)).foldl (· + ·) (-0.0)

theorem Canvas.reach_concat (canvas : Canvas) (passed : List Char) (c : Char) :
    canvas.reach (passed ++ [c]) = canvas.reach passed + advance canvas c := by
  rw [reach, reach, List.map_append, List.foldl_append]
  rfl

theorem advance_eq (canvas : Canvas) (c : Char) :
    advance canvas c = (Letterform.ofChar? c).elim (canvas.fontSpacing * 3.0)
      fun letter => letter.width + canvas.fontSpacing := by
  rw [advance]
  cases Letterform.ofChar? c <;> rfl

theorem Canvas.upToZero_cursorAt (canvas : Canvas) (word : List Char) (place : Nat) :
    UpToZero (canvas.cursorAt word place) (canvas.reach (word.take place)) :=
  UpToZero.foldl_add (.inr ⟨.inl rfl, .inr rfl⟩) _

/-- The characters of a word that can be drawn, with their places. -/
def drawable (word : List Char) : List (Char × Nat) :=
  word.zipIdx.filter fun (c, _) => (Letterform.ofChar? c).isSome

/-- The letter for a character: the middle of its upper edge lies half of its width behind the
sum of the advances before it, and it shows in the window. -/
def Canvas.Sets (canvas : Canvas) (window : FrameWindow) (origin : Point) (word : List Char) :
    Char × Nat → Layer → Prop
  | (c, place), layer => ∃ letter cursor, Letterform.ofChar? c = some letter ∧
      UpToZero cursor (canvas.reach (word.take place)) ∧
      layer.name = "char " ++ c.toString ∧ layer.window = window ∧
      layer.kind = .caption {
        character := c
        letter := letter
        anchor := ⟨letter.width / 2.0, 0.0⟩
        position := ⟨origin.x + cursor + letter.width / 2.0, origin.y + canvas.fontSize / 2.0⟩ }

theorem forall₂_filterMap {α β : Type} (f : α → Option β) (list : List α) :
    List.Forall₂ (fun a b => f a = some b) (list.filter fun a => (f a).isSome)
      (list.filterMap f) := by
  induction list with
  | nil => exact .nil
  | cons a rest ih =>
    cases ha : f a with
    | none =>
      rw [List.filter_cons_of_neg (by rw [ha]; exact Bool.false_ne_true),
        List.filterMap_cons_none ha]
      exact ih
    | some b =>
      rw [List.filter_cons_of_pos (by rw [ha]; rfl), List.filterMap_cons_some ha]
      exact .cons ha ih

theorem forall₂_typeset (canvas : Canvas) (window : FrameWindow) (origin : Point) (word : String) :
    List.Forall₂ (canvas.Sets window origin word.toList) (drawable word.toList)
      (typeset canvas window origin word) := by
  have hplaced := forall₂_filterMap (placedLetter canvas window origin.x
    (origin.y + canvas.fontSize / 2.0) word.toList) word.toList.zipIdx
  have hdrawable : drawable word.toList = word.toList.zipIdx.filter fun entry =>
      (placedLetter canvas window origin.x (origin.y + canvas.fontSize / 2.0) word.toList
        entry).isSome :=
    List.filter_congr fun entry _ => Option.isSome_map.symm
  rw [typeset_eq, placedLetters, hdrawable]
  refine hplaced.imp fun (c, place) layer hlayer => ?_
  obtain ⟨letter, hletter, rfl⟩ := Option.map_eq_some_iff.mp hlayer
  exact ⟨letter, _, hletter, canvas.upToZero_cursorAt word.toList place, rfl, rfl, rfl⟩

theorem zero_le_measure (canvas : Canvas) (word : String) : 0.0 ≤ measure canvas word := by
  rw [measure]
  split
  · exact Number.le_of_lt ‹_›
  · exact of_decide_eq_true rfl

/-- Every character that can be drawn has one layer, in reading order, where the sum of the
measure has come to before it, and the measure is this sum over the whole word less a spacing,
or zero.  A centred word has half of what the measure leaves of the width to its left. -/
theorem typeset_follows_measure (canvas : Canvas) (window : FrameWindow) (origin : Point)
    (word : String) :
    canvas.reach [] = -0.0 ∧
      (∀ passed c, canvas.reach (passed ++ [c]) = canvas.reach passed +
        (Letterform.ofChar? c).elim (canvas.fontSpacing * 3.0)
          fun letter => letter.width + canvas.fontSpacing) ∧
      List.Forall₂ (canvas.Sets window origin word.toList) (drawable word.toList)
        (typeset canvas window origin word) ∧
      (let width := canvas.reach word.toList - canvas.fontSpacing
       measure canvas word = if 0.0 < width then width else 0.0) ∧
      0.0 ≤ measure canvas word ∧
      ∀ width top, typesetCentred canvas window width top word =
        typeset canvas window ⟨(width - measure canvas word) / 2.0, top⟩ word :=
  ⟨rfl, fun passed c => by rw [canvas.reach_concat, advance_eq],
    forall₂_typeset canvas window origin word, rfl, zero_le_measure canvas word, fun _ _ => rfl⟩

end AnimatedGlyph
