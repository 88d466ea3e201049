/-
Setting captions.

A word is set from left to right.  Every character moves the cursor on, by its
width and the letter spacing if it can be drawn and by three spacings if it cannot,
and every character that can be drawn leaves a layer.  The measure of a word is
where the cursor ends up, less the last spacing, and a centred word starts half of
what is left over from the left edge.
-/
import AnimatedGlyph.Document.Layer

namespace AnimatedGlyph

/-- How far a character moves the cursor. -/
def advance (canvas : Canvas) (c : Char) : Float :=
  match Letterform.ofChar? c with
  | some letter => letter.width + canvas.fontSpacing
  | none => canvas.fontSpacing * 3.0

/-- The width of a word, never below zero.  The sum starts from negative zero, the
neutral element of addition. -/
def measure (canvas : Canvas) (word : String) : Float :=
  let sum := (word.toList.map (advance canvas)).foldl (· + ·) (-0.0)
  let width := sum - canvas.fontSpacing
  if 0.0 < width then width else 0.0

/-- The layers of characters that are set from a cursor on.  The cursor counts from
the left edge `left`, and all letters stand on the height `y`. -/
def setFrom (canvas : Canvas) (window : FrameWindow) (left y cursor : Float) :
    List Char → List Layer
  | [] => []
  | c :: rest =>
    let after := setFrom canvas window left y (cursor + advance canvas c) rest
    match Letterform.ofChar? c with
    | some letter => .caption c letter ⟨left + cursor + letter.width / 2.0, y⟩ window :: after
    | none => after

/-- The layers of a word whose left edge and top are at `origin`. -/
def typeset (canvas : Canvas) (window : FrameWindow) (origin : Point) (word : String) :
    List Layer :=
  setFrom canvas window origin.x (origin.y + canvas.fontSize / 2.0) 0.0 word.toList

/-- The layers of a word in the middle of a canvas so wide. -/
def typesetCentred (canvas : Canvas) (window : FrameWindow) (width top : Float) (word : String) :
    List Layer :=
  typeset canvas window ⟨(width - measure canvas word) / 2.0, top⟩ word

end AnimatedGlyph
