/-
What chance has a part in.

The random source decides how a path arrives where it has been before, and nothing
else.  `settled` takes that away: a settled path arrives at its revisits without a
tangent, and a settled document has settled paths.

`compile_settled` says that a settled document does not depend on the source at all.
It is that of `compileStill`, in which paths are drawn without one, so that what
documents of the same words have in common need not be found again behind the draws.
-/
import AnimatedGlyph.Proofs.LayerStack

namespace AnimatedGlyph

/-! ## Paths -/

/-- Which vertices are points that the path has been at, after the points `seen`. -/
def revisits (seen : List (Int64 × Int64)) : List Point → List Bool
  | [] => []
  | v :: rest => seen.contains v.key :: revisits (v.key :: seen) rest

namespace StrokePath

/-- Tangents without those at revisits. -/
def calm (revisits : List Bool) (tangents : List Point) : List Point :=
  List.zipWith (fun revisit tangent => if revisit then Point.zero else tangent) revisits tangents

/-- The path without the tangents at its revisits. -/
def settled (path : StrokePath) : StrokePath :=
  { path with inTangents := calm (revisits [] path.vertices) path.inTangents }

/-- The path along edges that has no tangents. -/
def still (edges : List Edge) : StrokePath :=
  ⟨chainVertices edges, (chainVertices edges).map fun _ => Point.zero,
    (chainVertices edges).map fun _ => Point.zero⟩

theorem calm_cons (revisit : Bool) (tangent : Point) (revisits : List Bool)
    (tangents : List Point) :
    calm (revisit :: revisits) (tangent :: tangents) =
      (if revisit then Point.zero else tangent) :: calm revisits tangents := rfl

theorem calm_arrivals (vertices : List Point) :
    ∀ (seen : List (Int64 × Int64)) (source : RandomSource),
      calm (revisits seen vertices) (arrivals seen source vertices).1 =
        vertices.map fun _ => Point.zero := by
  induction vertices with
  | nil => intro seen source; rfl
  | cons v rest ih =>
    intro seen source
    rw [revisits, arrivals, calm_cons, List.map_cons, ih (v.key :: seen)]
    by_cases hseen : seen.contains v.key = true
    · rw [if_pos hseen]
    · rw [if_neg hseen, if_neg hseen]

theorem settled_ofEdges (edges : List Edge) (source : RandomSource) :
    (ofEdges edges source).1.settled = still edges := by
  have hcalm := calm_arrivals (chainVertices edges) [] source
  rw [ofEdges, settled, still, hcalm]

end StrokePath

/-! ## Layers and documents -/

/-- The layer with a settled path. -/
def Layer.settled (layer : Layer) : Layer :=
  match layer.kind with
  | .stroke stroke => { layer with kind := .stroke { stroke with path := stroke.path.settled } }
  | _ => layer

/-- The document with settled paths. -/
def AnimationDocument.settled (document : AnimationDocument) : AnimationDocument :=
  { document with layers := document.layers.map Layer.settled }

/-- Words along paths without tangents. -/
def stillWords (points : Projection) (places : List WordPlace) : List (WordPlace × StrokePath) :=
  places.map fun place => (place, .still (place.glyph.code.edges points))

theorem settled_drawWords (points : Projection) (places : List WordPlace) (source : RandomSource) :
    (drawWords points places source).1.map (fun word => (word.1, word.2.settled)) =
      stillWords points places := by
  induction places generalizing source with
  | nil => rfl
  | cons place rest ih =>
    rw [drawWords, stillWords, List.map_cons, List.map_cons, ih, StrokePath.settled_ofEdges]
    rfl

namespace Scene

theorem settled_wordLayers (scene : Scene) (word : WordPlace × StrokePath) :
    (scene.wordLayers word).map Layer.settled = scene.wordLayers (word.1, word.2.settled) := by
  have hletters : (scene.letters word.1).map Layer.settled = scene.letters word.1 := by
    refine map_letters fun layer caption hkind => ?_
    rw [Layer.settled, hkind]
  rw [wordLayers, List.map_append, hletters]
  rfl

theorem settled_wordStack (scene : Scene) (drawn : List (WordPlace × StrokePath)) :
    (scene.wordStack drawn).map Layer.settled =
      scene.wordStack (drawn.map fun word => (word.1, word.2.settled)) :=
  map_wordStack scene.settled_wordLayers drawn

end Scene

namespace GlyphCompiler

/-- The document of a text with paths that have no tangents. -/
def compileStill (compiler : GlyphCompiler) (options : CompileOptions) (text : String) :
    Option AnimationDocument :=
  let lines := compiler.table.glyphLines text
  let scene := compiler.scene options text
  if lines.all List.isEmpty then none
  else some (scene.document
    (scene.wordStack (stillWords scene.points (wordPlaces lines)) ++ scene.ground))

/-- Settled documents do not depend on the source. -/
theorem compile_settled (compiler : GlyphCompiler) (options : CompileOptions) (text : String)
    (source : RandomSource) :
    (compiler.compile options text source).1.map AnimationDocument.settled =
      compiler.compileStill options text := by
  rw [compileStill, compile_eq]
  cases (compiler.table.glyphLines text).all List.isEmpty with
  | true => rfl
  | false =>
    have hlayers : ((compiler.scene options text).wordStack
          (compiler.drawn options text source).1 ++
        (compiler.scene options text).ground).map Layer.settled =
        (compiler.scene options text).wordStack (stillWords (compiler.scene options text).points
          (wordPlaces (compiler.table.glyphLines text))) ++
        (compiler.scene options text).ground := by
      rw [List.map_append, Scene.settled_wordStack, drawn, settled_drawWords]
      rfl
    exact congrArg (fun layers => some ((compiler.scene options text).document layers)) hlayers

theorem compileRequest_settled (compiler : GlyphCompiler) (chance : RandomSource)
    (request : CompileRequest) :
    (compiler.compileRequest chance request).map AnimationDocument.settled =
      compiler.compileStill request.options request.text := by
  rw [compileRequest_eq]
  exact compiler.compile_settled request.options request.text (sourceOf chance request)

theorem compileStill_congr {compiler : GlyphCompiler} (options : CompileOptions)
    {first second : String}
    (h : compiler.table.glyphLines first = compiler.table.glyphLines second) :
    compiler.compileStill options first = compiler.compileStill options second := by
  rw [compileStill, compileStill, scene, scene, h]

/-- The document of a text with a glyph has strokes, and all of them move if the text
does. -/
theorem effects_compileStill {compiler : GlyphCompiler} {options : CompileOptions}
    {text : String} {document : AnimationDocument}
    (h : compiler.compileStill options text = some document) :
    document.strokeLayers ≠ [] ∧
      ∀ layer ∈ document.strokeLayers, ∀ stroke, layer.kind = .stroke stroke →
        stroke.effects = Layer.effectsOf options.animated := by
  rw [compileStill] at h
  cases husable : (compiler.table.glyphLines text).all List.isEmpty with
  | true =>
    rw [husable, if_pos rfl] at h
    cases h
  | false =>
    rw [husable, if_neg Bool.false_ne_true] at h
    cases h
    constructor
    · obtain ⟨place, hplace, -⟩ := exists_last_word husable
      have hword := List.mem_map_of_mem (f := fun place => (place, StrokePath.still
        (place.glyph.code.edges (compiler.scene options text).points))) hplace
      exact List.ne_nil_of_mem (Scene.mem_strokeLayers.mpr ⟨_, hword, rfl⟩)
    · intro layer hlayer stroke hkind
      obtain ⟨word, -, rfl⟩ := Scene.mem_strokeLayers.mp hlayer
      cases hkind
      rfl

theorem animated_of_compileStill {compiler : GlyphCompiler}
    {firstOptions secondOptions : CompileOptions} {first second : String}
    {document : AnimationDocument}
    (hfirst : compiler.compileStill firstOptions first = some document)
    (hsecond : compiler.compileStill secondOptions second = some document) :
    firstOptions.animated = secondOptions.animated := by
  obtain ⟨hstrokes, hfirst⟩ := effects_compileStill hfirst
  obtain ⟨-, hsecond⟩ := effects_compileStill hsecond
  obtain ⟨layer, hlayer⟩ := List.exists_mem_of_ne_nil _ hstrokes
  have hstroke : layer.kind.isStroke = true := (List.mem_filter.mp hlayer).2
  cases hkind : layer.kind with
  | stroke stroke =>
    have heffects := (hfirst layer hlayer stroke hkind).symm.trans
      (hsecond layer hlayer stroke hkind)
    cases hone : firstOptions.animated <;> cases hother : secondOptions.animated
    case false.true | true.false =>
      rw [hone, hother] at heffects
      cases heffects
    all_goals rfl
  | grid nodes => rw [hkind] at hstroke; cases hstroke
  | background plain => rw [hkind] at hstroke; cases hstroke
  | caption letter => rw [hkind] at hstroke; cases hstroke

end GlyphCompiler
end AnimatedGlyph
