/-
Hand-drawn paths.

A path goes through the ends of its edges.  Where it comes back to a point that it
has been at, it arrives with a small random tangent, which shows as a loop; all
other tangents are zero.  Points are told apart by their hundredths.

A tangent takes two draws from the random source, the first for the horizontal
part, and nothing else draws.
-/
import AnimatedGlyph.Stroke.Edge
import AnimatedGlyph.Random.Source

namespace AnimatedGlyph

/-- An open curve: its vertices and, for each, the tangents on both sides. -/
structure StrokePath where
  /-- The vertices in drawing order. -/
  vertices : List Point
  /-- The tangent with which each vertex is reached. -/
  inTangents : List Point
  /-- The tangent with which each vertex is left. -/
  outTangents : List Point
  deriving DecidableEq

/-- The hundredths of a point. -/
def Point.key (p : Point) : Int64 × Int64 :=
  (Number.hundredths p.x, Number.hundredths p.y)

/-- A part of a tangent, from -9 up to 12, in hundredths. -/
def jitter (unit : Float) : Float :=
  Number.toHundredths (21.0 * unit - 9.0)

def jitterTangent (source : RandomSource) : Point × RandomSource :=
  let (x, source) := source.nextUnit
  let (y, source) := source.nextUnit
  (⟨jitter x, jitter y⟩, source)

/-- The tangents with which vertices are reached after the points `seen`. -/
def arrivals (seen : List (Int64 × Int64)) (source : RandomSource) :
    List Point → List Point × RandomSource
  | [] => ([], source)
  | v :: rest =>
    let (tangent, source) :=
      if seen.contains v.key then jitterTangent source else (Point.zero, source)
    let (tangents, source) := arrivals (v.key :: seen) source rest
    (tangent :: tangents, source)

/-- The points that a chain of edges goes through. -/
def chainVertices (edges : List Edge) : List Point :=
  match edges.getLast? with
  | some last => edges.map Edge.start ++ [last.stop]
  | none => []

theorem chainVertices_cons (edge : Edge) {rest : List Edge} (h : rest ≠ []) :
    chainVertices (edge :: rest) = edge.start :: chainVertices rest := by
  cases rest with
  | nil => exact absurd rfl h
  | cons next more =>
    rw [chainVertices, chainVertices, List.getLast?_cons_cons]
    cases hlast : (next :: more).getLast? with
    | none => cases List.getLast?_eq_none_iff.mp hlast
    | some last => rfl

theorem chainVertices_edgesBetween (points : Projection) (a b : Node) (rest : List Node) :
    chainVertices (edgesBetween points (a :: b :: rest)) =
      (a :: b :: rest).map points.rounded := by
  induction rest generalizing a b with
  | nil => rfl
  | cons c more ih =>
    have hnext : edgesBetween points (b :: c :: more) ≠ [] := nofun
    rw [edgesBetween, chainVertices_cons _ hnext, ih]
    rfl

/-- A glyph goes through its nodes one after the other. -/
theorem chainVertices_edges (code : GlyphCode) (points : Projection) :
    chainVertices (code.edges points) = code.nodes.map points.rounded := by
  obtain ⟨nodes, two_le, moving⟩ := code
  match nodes, two_le with
  | a :: b :: rest, _ => exact chainVertices_edgesBetween points a b rest

namespace StrokePath

/-- The path without vertices. -/
def empty : StrokePath := ⟨[], [], []⟩

/-- Whether the path returns to its start by itself, which no stroke does. -/
def isClosed (_ : StrokePath) : Bool :=
  false

/-- The path along edges. -/
def ofEdges (edges : List Edge) (source : RandomSource) : StrokePath × RandomSource :=
  let vertices := chainVertices edges
  let (tangents, source) := arrivals [] source vertices
  (⟨vertices, tangents, vertices.map fun _ => Point.zero⟩, source)

end StrokePath
end AnimatedGlyph
