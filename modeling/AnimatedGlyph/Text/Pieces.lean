/-
Cutting a text at separators.

`pieces` cuts a list of characters at every character of a class and keeps what
lies between, empty pieces included, so that there is always one piece more than
there are separators.
-/

namespace AnimatedGlyph
namespace Text

/-- Put a character in front of the first piece. -/
def growFirst (c : Char) : List (List Char) → List (List Char)
  | [] => [[c]]
  | piece :: rest => (c :: piece) :: rest

/-- The pieces between the characters that satisfy `cut`. -/
def pieces (cut : Char → Bool) : List Char → List (List Char)
  | [] => [[]]
  | c :: rest => if cut c then [] :: pieces cut rest else growFirst c (pieces cut rest)

/-- The pieces that are not empty. -/
def runs (cut : Char → Bool) (cs : List Char) : List (List Char) :=
  (pieces cut cs).filter fun piece => !piece.isEmpty

/-- There is always a piece. -/
theorem pieces_ne_nil (cut : Char → Bool) (cs : List Char) : pieces cut cs ≠ [] := by
  induction cs with
  | nil => simp [pieces]
  | cons c rest ih =>
    by_cases h : cut c
    · simp [pieces, h]
    · cases hp : pieces cut rest with
      | nil => exact absurd hp ih
      | cons piece more => simp [pieces, h, hp, growFirst]

/-- What a grown list of pieces holds. -/
theorem flatten_growFirst (c : Char) (ps : List (List Char)) :
    (growFirst c ps).flatten = c :: ps.flatten := by
  cases ps <;> simp [growFirst]

/-- The pieces together are the text without its separators. -/
theorem flatten_pieces (cut : Char → Bool) (cs : List Char) :
    (pieces cut cs).flatten = cs.filter fun c => !cut c := by
  induction cs with
  | nil => simp [pieces]
  | cons c rest ih => by_cases h : cut c <;> simp [pieces, h, ih, flatten_growFirst]

end Text
end AnimatedGlyph
