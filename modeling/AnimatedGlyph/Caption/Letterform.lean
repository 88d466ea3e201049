/-
The letters of captions.

A letter is a set of open strokes in a cell twenty units high, with its origin at
the top left.  Small letters and capitals look alike.  Only the Latin letters, the
digits, the hyphen and the apostrophe can be drawn.
-/
import AnimatedGlyph.Grid.Canvas
import AnimatedGlyph.Text.Lowercase

namespace AnimatedGlyph

/-! ## The shapes -/

/-- A stroke in whole units of the cell. -/
abbrev CellStroke := List (Nat × Nat)

/-- The outline of a round letter. -/
def ring : CellStroke :=
  [(2, 0), (8, 0), (10, 2), (10, 18), (8, 20), (2, 20), (0, 18), (0, 2), (2, 0)]

/-- A stem with a bowl in its upper half. -/
def bowl : CellStroke :=
  [(0, 20), (0, 0), (8, 0), (10, 2), (10, 8), (8, 10), (0, 10)]

/-- The strokes of every character that can be drawn. -/
def cellStrokes : List (Char × List CellStroke) :=
  [('a', [[(0, 20), (5, 0), (10, 20)], [(2, 10), (8, 10)]]),
   ('b',
    [[(0, 0), (0, 20), (7, 20), (10, 17), (10, 13), (7, 10), (0, 10)],
     [(0, 0), (6, 0), (9, 3), (9, 7), (6, 10)]]),
   ('c', [[(10, 2), (8, 0), (2, 0), (0, 2), (0, 18), (2, 20), (8, 20), (10, 18)]]),
   ('d', [[(0, 0), (0, 20), (6, 20), (10, 16), (10, 4), (6, 0), (0, 0)]]),
   ('e', [[(10, 0), (0, 0), (0, 20), (10, 20)], [(0, 10), (7, 10)]]),
   ('f', [[(10, 0), (0, 0), (0, 20)], [(0, 10), (7, 10)]]),
   ('g',
    [[(10, 2), (8, 0), (2, 0), (0, 2), (0, 18), (2, 20), (8, 20), (10, 18), (10, 11), (5, 11)]]),
   ('h', [[(0, 0), (0, 20)], [(10, 0), (10, 20)], [(0, 10), (10, 10)]]),
   ('i', [[(0, 0), (4, 0)], [(2, 0), (2, 20)], [(0, 20), (4, 20)]]),
   ('j', [[(3, 0), (10, 0)], [(8, 0), (8, 17), (5, 20), (2, 20), (0, 17)]]),
   ('k', [[(0, 0), (0, 20)], [(10, 0), (0, 12)], [(3, 9), (10, 20)]]),
   ('l', [[(0, 0), (0, 20), (9, 20)]]),
   ('m', [[(0, 20), (0, 0), (6, 10), (12, 0), (12, 20)]]),
   ('n', [[(0, 20), (0, 0), (10, 20), (10, 0)]]),
   ('o', [ring]),
   ('p', [bowl]),
   ('q', [ring, [(6, 14), (10, 20)]]),
   ('r', [bowl, [(4, 10), (10, 20)]]),
   ('s',
    [[(10, 2), (8, 0), (2, 0), (0, 2), (0, 8), (2, 10), (8, 10), (10, 12), (10, 18), (8, 20),
     (2, 20), (0, 18)]]),
   ('t', [[(0, 0), (10, 0)], [(5, 0), (5, 20)]]),
   ('u', [[(0, 0), (0, 18), (2, 20), (8, 20), (10, 18), (10, 0)]]),
   ('v', [[(0, 0), (5, 20), (10, 0)]]),
   ('w', [[(0, 0), (3, 20), (6, 8), (9, 20), (12, 0)]]),
   ('x', [[(0, 0), (10, 20)], [(10, 0), (0, 20)]]),
   ('y', [[(0, 0), (5, 10), (10, 0)], [(5, 10), (5, 20)]]),
   ('z', [[(0, 0), (10, 0), (0, 20), (10, 20)]]),
   ('0', [ring, [(9, 3), (1, 17)]]),
   ('1', [[(2, 4), (6, 0), (6, 20)], [(2, 20), (10, 20)]]),
   ('2', [[(0, 3), (3, 0), (7, 0), (10, 3), (10, 8), (0, 20), (10, 20)]]),
   ('3',
    [[(0, 2), (2, 0), (8, 0), (10, 2), (10, 8), (8, 10), (10, 12), (10, 18), (8, 20), (2, 20),
     (0, 18)], [(4, 10), (8, 10)]]),
   ('4', [[(8, 20), (8, 0), (0, 14), (10, 14)]]),
   ('5', [[(10, 0), (0, 0), (0, 9), (8, 9), (10, 11), (10, 18), (8, 20), (0, 20)]]),
   ('6',
    [[(9, 0), (3, 0), (0, 4), (0, 18), (2, 20), (8, 20), (10, 18), (10, 12), (8, 10), (0, 10)]]),
   ('7', [[(0, 0), (10, 0), (3, 20)]]),
   ('8',
    [[(2, 0), (8, 0), (10, 2), (10, 8), (8, 10), (2, 10), (0, 8), (0, 2), (2, 0)],
     [(2, 10), (8, 10), (10, 12), (10, 18), (8, 20), (2, 20), (0, 18), (0, 12), (2, 10)]]),
   ('9',
    [[(10, 10), (2, 10), (0, 8), (0, 2), (2, 0), (8, 0), (10, 2), (10, 16), (7, 20), (1, 20)]]),
   ('-', [[(0, 10), (6, 10)]]),
   ('\'', [[(1, 0), (1, 5)]])]

/-! ## Letterforms -/

/-- The strokes of a character as points. -/
structure Letterform where
  /-- The strokes, each a run of points. -/
  strokes : List (List Point)
  deriving DecidableEq

namespace Letterform

/-- The greater of two numbers, the second if they are equal, so that of a zero and
a negative zero the later one counts. -/
def wider (a b : Float) : Float :=
  if a ≤ b then b else a

/-- How far the letter reaches to the right of its origin. -/
def width (letter : Letterform) : Float :=
  (letter.strokes.flatten.map Point.x).foldl wider 0.0

def ofCell (strokes : List CellStroke) : Letterform :=
  ⟨strokes.map fun stroke => stroke.map fun (x, y) => ⟨Float.ofNat x, Float.ofNat y⟩⟩

/-- The letterform of a character, if it can be drawn. -/
def ofChar? (c : Char) : Option Letterform :=
  (cellStrokes.lookup (Text.lowerAscii c)).map ofCell

end Letterform
end AnimatedGlyph
