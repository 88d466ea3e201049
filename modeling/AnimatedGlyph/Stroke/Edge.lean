/-
Edges between projected nodes.

A walk over the nodes has an edge for each of its steps, from the point of one node
to the point of the next, both rounded to hundredths.  The edges of a walk form a
chain: each starts where the one before it ends.

The nodes of a walk may be given as a glyph code or as a bare text.  A bare text
need not be a glyph code; it only has to be made of nodes.
-/
import AnimatedGlyph.Glyph.Code
import AnimatedGlyph.Grid.Projection

namespace AnimatedGlyph

/-- A step between two points. -/
structure Edge where
  /-- Where the step starts. -/
  start : Point
  /-- Where the step ends. -/
  stop : Point
  deriving DecidableEq

/-- Where a node lies, in hundredths. -/
def Projection.rounded (points : Projection) (node : Node) : Point :=
  (points.get node).toHundredths

/-- The edges of a walk over the nodes. -/
def edgesBetween (points : Projection) : List Node → List Edge
  | a :: b :: rest => ⟨points.rounded a, points.rounded b⟩ :: edgesBetween points (b :: rest)
  | _ => []

def GlyphCode.edges (code : GlyphCode) (points : Projection) : List Edge :=
  edgesBetween points code.nodes

/-- The nodes of a text, or an error that names the text as it stands and its first
character that is no node. -/
def nodesOfText (text : String) : Except CodeError (List Node) :=
  text.toList.mapM fun c =>
    match Node.ofChar? c with
    | some node => .ok node
    | none => .error (.malformed text c)

/-- The edges of a text of nodes. -/
def edgesOfText (points : Projection) (text : String) : Except CodeError (List Edge) :=
  (nodesOfText text).map (edgesBetween points)

end AnimatedGlyph
