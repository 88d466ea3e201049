/-
Strokes on the drawn grid.

The nodes are drawn as circles and the strokes as curves between them, and the two are
placed in different ways.  The circles are rounded when a document is written, the
vertices when the edges of a glyph are made, and these are then chained and drawn from a
source.  `strokes_on_grid` says that they meet all the same: a curve goes from the centre
of one circle to that of another, as the characters of its code name them one by one.

The theorem looks the circles up by the text of a code and not by its nodes, so that it
also says that every character names a node, that there is a circle for it, and that no
character names the node of the one before it.
-/
import Mathlib.Data.List.Forall2
import AnimatedGlyph.Proofs.CodeText
import AnimatedGlyph.Proofs.Conversion
import AnimatedGlyph.Proofs.Draws

namespace AnimatedGlyph

open Lottie (Bezier Curve Ellipse Property ShapeItem)

/-! ## Circles and curves -/

namespace Lottie

def ShapeItem.ellipse? : ShapeItem → Option Ellipse
  | .ellipse item => some item
  | _ => none

def ShapeItem.curve? : ShapeItem → Option Curve
  | .curve item => some item
  | _ => none

namespace Layer

/-- The ellipses among the shapes of the layer. -/
def ellipses (layer : Layer) : List Ellipse :=
  (layer.shapes.getD []).filterMap ShapeItem.ellipse?

/-- The curves among the shapes of the layer. -/
def curves (layer : Layer) : List Curve :=
  (layer.shapes.getD []).filterMap ShapeItem.curve?

/-- The layer has one curve, and this goes through the circles that the characters of a code
name one by one, each of them another than the one before it. -/
structure Traces (circles : List Point) (code : GlyphCode) (layer : Layer) : Prop where
  moves : (code.text.toList.map Node.ofChar?).IsChain (· ≠ ·)
  course : ∃ bezier : Bezier, layer.curves.map Curve.course = [.fixed bezier] ∧
    bezier.vertices.length = code.text.length ∧
      bezier.vertices.map some = code.text.toList.map fun c =>
        (Node.ofChar? c).bind fun node => circles[node.val]?

end Layer
end Lottie

/-- Whether it is the nodes. -/
def LayerKind.isGrid : LayerKind → Bool
  | .grid _ => true
  | _ => false

/-- The centres of the circles of nodes. -/
def Projection.circles (points : Projection) : List Point :=
  points.toList.map Point.toHundredths

theorem Projection.length_circles (points : Projection) : points.circles.length = 11 := by
  rw [circles, List.length_map, Vector.length_toList]

theorem Projection.getElem?_circles (points : Projection) (node : Node) :
    points.circles[node.val]? = some (points.rounded node) := by
  have h : node.val < points.toList.length := by
    rw [Vector.length_toList]
    exact node.isLt
  rw [circles, List.getElem?_map, List.getElem?_eq_getElem h]
  rfl

theorem position_ellipses_grid {nodes : Projection} {total : UInt32} {wire : Lottie.Layer}
    (hwire : (Layer.grid nodes total).toLottie = some wire) :
    wire.ellipses.map Ellipse.position = nodes.circles.map Property.fixed := by
  cases hwire
  have hnodes : (nodes.toList.map nodeCircle).filterMap ShapeItem.ellipse? =
      nodes.toList.map fun point =>
        ⟨.fixed point.toHundredths, .fixed ⟨20.0, 20.0⟩, "Circle Path"⟩ := by
    rw [List.filterMap_map, ← List.filterMap_eq_map]
    rfl
  have hstyle : [strokeStyle .white 3.0 1].filterMap ShapeItem.ellipse? = [] := rfl
  show ((gridShapes nodes).filterMap ShapeItem.ellipse?).map Ellipse.position = _
  rw [gridShapes, List.filterMap_append, hnodes, hstyle, List.append_nil, List.map_map,
    Projection.circles, List.map_map]
  rfl

/-! ## Strokes -/

theorem curves_stroke {layer : Layer} {stroke : StrokeLayer} {wire : Lottie.Layer}
    (hkind : layer.kind = .stroke stroke) (hwire : layer.toLottie = some wire) :
    wire.curves =
      [⟨.fixed ⟨stroke.path.inTangents, stroke.path.outTangents, stroke.path.vertices, false⟩,
        none⟩] := by
  obtain ⟨_, hshapes, rfl⟩ := (Layer.toLottie_stroke_eq_some_iff hkind).mp hwire
  obtain ⟨items, hitems, rfl⟩ := strokeShapes_eq_some_iff.mp hshapes
  have heffects : items.filterMap ShapeItem.curve? = [] := by
    rw [List.filterMap_eq_nil_iff]
    intro item hitem
    obtain ⟨effect, -, hitem⟩ := exists_of_forall₂_right hitems hitem
    rcases effectShape_eq_some_iff.mp hitem with ⟨-, rfl⟩ | ⟨-, frames, -, rfl⟩ <;> rfl
  show (_ ++ items).filterMap ShapeItem.curve? = _
  rw [List.filterMap_append, heffects]
  rfl

namespace Scene

/-- A stroke that is drawn along the edges of a code traces the code. -/
theorem traces_wordStroke {scene : Scene} {drawn : WordPlace × StrokePath}
    {source : RandomSource} {wire : Lottie.Layer}
    (hpath : drawn.2 = (StrokePath.ofEdges (drawn.1.glyph.code.edges scene.points) source).1)
    (hwire : (scene.wordStroke drawn).toLottie = some wire) :
    wire.Traces scene.points.circles drawn.1.glyph.code where
  moves := drawn.1.glyph.code.isChain_text
  course := by
    have hvertices : drawn.2.vertices =
        drawn.1.glyph.code.nodes.map scene.points.rounded := by
      rw [hpath, ← chainVertices_edges]
      rfl
    refine ⟨⟨drawn.2.inTangents, drawn.2.outTangents, drawn.2.vertices, false⟩, ?_, ?_, ?_⟩
    · rw [curves_stroke rfl hwire]
      rfl
    · rw [hvertices, List.length_map, GlyphCode.length_text]
    · calc drawn.2.vertices.map some
          = drawn.1.glyph.code.nodes.map fun node => some (scene.points.rounded node) := by
            rw [hvertices, List.map_map]
            rfl
        _ = (drawn.1.glyph.code.nodes.map some).map fun node? =>
              node?.bind fun node => scene.points.circles[node.val]? := by
            rw [List.map_map]
            exact List.map_congr_left fun node _ => (scene.points.getElem?_circles node).symm
        _ = drawn.1.glyph.code.text.toList.map fun c =>
              (Node.ofChar? c).bind fun node => scene.points.circles[node.val]? := by
            rw [← GlyphCode.map_ofChar?_text, List.map_map]
            rfl

theorem isGrid_document (scene : Scene) (drawn : List (WordPlace × StrokePath)) :
    (scene.document (scene.wordStack drawn ++ scene.ground)).layersOf LayerKind.isGrid =
      [.grid scene.points scene.settings.totalFrames] := by
  have hwords : (scene.wordStack drawn).filter (fun layer => layer.kind.isGrid) = [] := by
    rw [List.filter_eq_nil_iff]
    intro layer hlayer
    obtain ⟨word, -, hletter | rfl⟩ := mem_wordStack.mp hlayer
    · obtain ⟨caption, hkind⟩ := exists_caption_of_mem_letters hletter
      rw [hkind]
      exact Bool.false_ne_true
    · exact Bool.false_ne_true
  show (scene.wordStack drawn ++ scene.ground).filter (fun layer => layer.kind.isGrid) = _
  rw [List.filter_append, hwords]
  rfl

end Scene

namespace GlyphCompiler

/-- The Lottie form of a compiled document has one grid of eleven circles, and the stroke of
every word goes through them as its code says.  The centres are the projected nodes in
hundredths. -/
theorem strokes_on_grid {compiler : GlyphCompiler} {options : CompileOptions} {text : String}
    {source : RandomSource} {document : AnimationDocument} {animation : Lottie.Animation}
    (hdocument : (compiler.compile options text source).1 = some document)
    (hanimation : document.toLottie = some animation) :
    let lines := compiler.table.glyphLines text
    let circles := (project (compiler.settings.canvas.forLineCount lines.length)).circles
    circles.length = 11 ∧
      (∃ layer, document.layersOf LayerKind.isGrid = [layer] ∧
        ∃ wire ∈ animation.layers, layer.toLottie = some wire ∧
          wire.ellipses.map Ellipse.position = circles.map Property.fixed) ∧
      List.Forall₂
        (fun place layer => ∃ wire ∈ animation.layers, layer.toLottie = some wire ∧
          wire.name = place.glyph.label ∧ wire.Traces circles place.glyph.code)
        (wordPlaces lines) document.strokeLayers.reverse := by
  intro lines circles
  have hplaces := compiler.map_fst_drawn options text source
  obtain ⟨-, rfl⟩ := compile_eq_some_iff.mp hdocument
  have hcircles : (compiler.scene options text).points.circles = circles := rfl
  have hgrid := Scene.isGrid_document (compiler.scene options text)
    (compiler.drawn options text source).1
  refine ⟨Projection.length_circles _, ⟨_, hgrid, ?_⟩, ?_⟩
  · have hlayer := List.mem_of_mem_filter (hgrid ▸ List.mem_singleton_self _)
    obtain ⟨wire, hmem, hwire⟩ := AnimationDocument.exists_toLottie_of_mem hanimation hlayer
    exact ⟨wire, hmem, hwire, hcircles ▸ position_ellipses_grid hwire⟩
  · rw [Scene.strokeLayers_document, List.reverse_reverse, ← hplaces,
      List.forall₂_map_left_iff, List.forall₂_map_right_iff, List.forall₂_same]
    intro word hword
    obtain ⟨start, hstart⟩ := path_of_mem_drawWords hword
    have hstroke := (@Scene.isStroke_mem_iff (compiler.scene options text) _
      ((compiler.scene options text).wordStroke word) rfl).mpr ⟨word, hword, rfl⟩
    obtain ⟨wire, hmem, hwire⟩ := AnimationDocument.exists_toLottie_of_mem hanimation hstroke
    have htraces := Scene.traces_wordStroke hstart hwire
    rw [hcircles] at htraces
    exact ⟨wire, hmem, hwire, (Layer.outline_of_toLottie hwire).1, htraces⟩

/-- A word with a caption, drawn on a canvas that is moved down for it. -/
theorem grid_of_single_word :
    let compiler : GlyphCompiler := ⟨.empty, .standard⟩
    ∃ document animation, (compiler.compile .standard "0a3A0" (.ofSeed 1)).1 = some document ∧
      document.toLottie = some animation ∧
      List.Forall₂
        (fun place layer => ∃ wire ∈ animation.layers, layer.toLottie = some wire ∧
          wire.name = place.glyph.label ∧ wire.Traces
            (project (compiler.settings.canvas.forLineCount 1)).circles place.glyph.code)
        (wordPlaces (compiler.table.glyphLines "0a3A0")) document.strokeLayers.reverse := by
  intro compiler
  have usable : (compiler.table.glyphLines "0a3A0").all List.isEmpty = false := by decide
  have hlines : (compiler.table.glyphLines "0a3A0").length = 1 := by decide
  have hdocument := @compile_of_glyph compiler .standard "0a3A0" (.ofSeed 1) usable
  obtain ⟨animation, hanimation⟩ := exists_toLottie hdocument fun _ => by decide
  obtain ⟨-, -, hstrokes⟩ := strokes_on_grid hdocument hanimation
  rw [hlines] at hstrokes
  exact ⟨_, animation, hdocument, hanimation, hstrokes⟩

end GlyphCompiler
end AnimatedGlyph
