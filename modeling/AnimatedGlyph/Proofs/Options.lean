/-
What the options of a request change.

There are two options, and each takes something away from the document when it is off:
a text that does not move has no effects, and a text without captions has no letters.
Neither does anything else.  The scene of a text is the same under all options but for
the options themselves, so its words are drawn alike, and every layer that stays is the
same layer in the same place.

`compile_options` is the statement that the file is for.  It also says what a player sees
of the first option: the trims and the transforms of the strokes are gone, and nothing in
the animation has keyframes.
-/
import AnimatedGlyph.Proofs.WellFormed

namespace AnimatedGlyph

open Lottie (Property ShapeItem Track Transform)

/-! ## Documents with less in them -/

def Layer.withoutEffects (layer : Layer) : Layer :=
  match layer.kind with
  | .stroke stroke => { layer with kind := .stroke { stroke with effects := [] } }
  | _ => layer

namespace AnimationDocument

def withoutEffects (document : AnimationDocument) : AnimationDocument :=
  { document with layers := document.layers.map Layer.withoutEffects }

/-- The document without letters. -/
def withoutCaptions (document : AnimationDocument) : AnimationDocument :=
  { document with layers := document.layersOf fun kind => !kind.isCaption }

end AnimationDocument

namespace Lottie

/-- Whether the item is one that effects are made of. -/
def ShapeItem.isEffect : ShapeItem → Bool
  | .trim _ => true
  | .transform _ => true
  | _ => false

/-- The layer without the trims and the transforms among its shapes. -/
def Layer.withoutMotion (layer : Layer) : Layer :=
  { layer with shapes := layer.shapes.map fun items => items.filter fun item => !item.isEffect }

/-- All properties of the layer, at any depth. -/
def Layer.tracks (layer : Layer) : List Track :=
  layer.transform.tracks ++ layer.items.flatMap ShapeItem.tracks

end Lottie

/-- The Lottie form of a layer in which strokes do not move. -/
def Layer.toLottieStill (layer : Layer) : Checked Lottie.Layer :=
  if layer.kind.isStroke then layer.toLottie.map Lottie.Layer.withoutMotion else layer.toLottie

/-- The Lottie form of a document in which strokes do not move. -/
def AnimationDocument.toLottieStill (document : AnimationDocument) : Checked Lottie.Animation :=
  (document.layers.mapM Layer.toLottieStill).map document.animationOf

/-! ## Effects -/

theorem filter_isEffect_strokeShapes {window : FrameWindow} {stroke : StrokeLayer}
    {shapes : List ShapeItem} (h : strokeShapes window stroke = some shapes) :
    shapes.filter (fun item => !item.isEffect) =
      [pathCurve stroke.path, strokeStyle stroke.colour.toRgba stroke.width 2] := by
  obtain ⟨items, hitems, rfl⟩ := strokeShapes_eq_some_iff.mp h
  have heffects : items.filter (fun item => !item.isEffect) = [] := by
    rw [List.filter_eq_nil_iff]
    intro item hitem
    obtain ⟨effect, -, hitem⟩ := exists_of_forall₂_right hitems hitem
    rcases effectShape_eq_some_iff.mp hitem with ⟨-, rfl⟩ | ⟨-, frames, -, rfl⟩ <;>
      exact Bool.false_ne_true
  rw [List.filter_append, heffects]
  rfl

/-- On the wire a layer loses its effects as its trims and transforms. -/
theorem Layer.toLottie_withoutEffects {layer : Layer} {wire : Lottie.Layer}
    (hwire : layer.toLottie = some wire) :
    layer.withoutEffects.toLottie = layer.toLottieStill := by
  obtain ⟨name, window, kind⟩ := layer
  cases kind with
  | stroke stroke =>
    obtain ⟨shapes, hshapes, rfl⟩ := (toLottie_stroke_eq_some_iff rfl).mp hwire
    have hstill : toLottieStill ⟨name, window, .stroke stroke⟩ =
        some (Lottie.Layer.withoutMotion
          (.ofShapes name window.start window.stop window.start shapes)) :=
      congrArg (Option.map Lottie.Layer.withoutMotion) hwire
    have hitems := congrArg (Lottie.Layer.ofShapes name window.start window.stop window.start)
      (filter_isEffect_strokeShapes hshapes)
    rw [hstill]
    exact congrArg some hitems.symm
  | grid nodes => rfl
  | background plain => rfl
  | caption letter => rfl

theorem AnimationDocument.toLottie_withoutEffects {document : AnimationDocument}
    (h : document.toLottie.isSome = true) :
    document.withoutEffects.toLottie = document.toLottieStill := by
  rw [toLottie, Option.isSome_map, isSome_mapM_iff] at h
  have hlayers : (document.layers.map Layer.withoutEffects).mapM Layer.toLottie =
      document.layers.mapM Layer.toLottieStill := by
    rw [List.mapM_map]
    refine mapM_congr fun layer hlayer => ?_
    obtain ⟨wire, hwire⟩ := Option.isSome_iff_exists.mp (h layer hlayer)
    exact Layer.toLottie_withoutEffects hwire
  exact congrArg (Option.map document.animationOf) hlayers

/-- Without effects there is always a Lottie form. -/
theorem AnimationDocument.isSome_toLottie_withoutEffects (document : AnimationDocument) :
    document.withoutEffects.toLottie.isSome = true := by
  rw [toLottie, Option.isSome_map, isSome_mapM_iff]
  refine List.forall_mem_map.mpr fun layer _ => Layer.isSome_toLottie_iff.mpr ?_
  intro stroke hkind hopacity
  have hnone : stroke.effects = [] := by
    obtain ⟨name, window, kind⟩ := layer
    cases kind <;> cases hkind
    rfl
  rw [hnone] at hopacity
  cases hopacity

/-! ## Properties without keyframes -/

namespace Lottie

theorem mem_itemsWithin {items : List ShapeItem} {inner : ShapeItem} :
    inner ∈ itemsWithin items ↔ ∃ item ∈ items, inner ∈ item.within := by
  induction items with
  | nil => simp [itemsWithin]
  | cons item rest ih => simp [itemsWithin, ih]

/-- No property of the item has keyframes, nor has one of an item inside it. -/
def ShapeItem.Still (item : ShapeItem) : Prop :=
  ∀ inner ∈ item.within, ∀ track ∈ inner.tracks, track = ⟨0, none⟩

namespace ShapeItem

theorem still_nodeCircle (point : Point) : (nodeCircle point).Still := by
  simp [Still, nodeCircle, within, tracks, Property.track, Property.fixed, Property.keyframes?]

theorem still_strokeStyle (colour : Rgba) (width : Float) (lineJoin : UInt8) :
    (strokeStyle colour width lineJoin).Still := by
  simp [Still, strokeStyle, within, tracks, Property.track, Property.fixed, Property.keyframes?]

theorem still_curve (bezier : Bezier) (name : Option String) :
    (curve ⟨.fixed bezier, name⟩).Still := by
  simp [Still, within, tracks, Property.track, Property.fixed, Property.keyframes?]

theorem still_placed (anchor position : Point) :
    (transform { Transform.identity with
      anchor := .fixed anchor
      position := .fixed position }).Still := by
  simp [Still, within, tracks, Transform.tracks, Transform.identity, Property.track,
    Property.fixed, Property.keyframes?]

theorem still_group {items : List ShapeItem} (h : ∀ item ∈ items, item.Still)
    (name : Option String) : (group items name).Still := by
  intro inner hinner
  rw [within, List.mem_cons] at hinner
  rcases hinner with rfl | hinner
  · intro track htrack
    cases htrack
  · obtain ⟨item, hitem, hmem⟩ := mem_itemsWithin.mp hinner
    exact h item hitem inner hmem

end ShapeItem

theorem tracks_identity_still : ∀ track ∈ Transform.identity.tracks, track = ⟨0, none⟩ := by
  simp [Transform.tracks, Transform.identity, Property.track, Property.fixed,
    Property.keyframes?]

theorem Layer.tracks_ofShapes_still {shapes : List ShapeItem} (h : ∀ item ∈ shapes, item.Still)
    (name : String) (start stop startTime : UInt32) :
    ∀ track ∈ (ofShapes name start stop startTime shapes).tracks, track = ⟨0, none⟩ := by
  intro track htrack
  rcases List.mem_append.mp htrack with hidentity | hshape
  · exact tracks_identity_still track hidentity
  · obtain ⟨inner, hinner, htrack⟩ := List.mem_flatMap.mp hshape
    obtain ⟨item, hitem, hmem⟩ := mem_itemsWithin.mp hinner
    exact h item hitem inner hmem track htrack

end Lottie

/-- Nothing in a layer without effects has keyframes. -/
theorem Layer.tracks_withoutEffects {layer : Layer} {wire : Lottie.Layer}
    (hwire : layer.withoutEffects.toLottie = some wire) :
    ∀ track ∈ wire.tracks, track = ⟨0, none⟩ := by
  obtain ⟨name, window, kind⟩ := layer
  cases kind with
  | grid nodes =>
    cases hwire
    refine Lottie.Layer.tracks_ofShapes_still ?_ name window.start window.stop 0
    refine List.forall_mem_append.mpr ⟨?_, ?_⟩
    · exact List.forall_mem_map.mpr fun point _ => ShapeItem.still_nodeCircle point
    · exact List.forall_mem_singleton.mpr (ShapeItem.still_strokeStyle _ _ _)
  | background plain =>
    cases hwire
    exact Lottie.tracks_identity_still
  | stroke stroke =>
    cases hwire
    refine Lottie.Layer.tracks_ofShapes_still ?_ name window.start window.stop window.start
    refine List.forall_mem_cons.mpr ⟨ShapeItem.still_curve _ none, ?_⟩
    exact List.forall_mem_singleton.mpr (ShapeItem.still_strokeStyle _ _ _)
  | caption letter =>
    cases hwire
    refine Lottie.Layer.tracks_ofShapes_still ?_ name window.start window.stop 0
    refine List.forall_mem_singleton.mpr (ShapeItem.still_group ?_ none)
    refine List.forall_mem_append.mpr ⟨?_, ?_⟩
    · exact List.forall_mem_map.mpr fun points _ => ShapeItem.still_curve _ none
    · refine List.forall_mem_cons.mpr ⟨ShapeItem.still_strokeStyle _ _ _, ?_⟩
      exact List.forall_mem_singleton.mpr (ShapeItem.still_placed _ _)

/-! ## Scenes under other options -/

namespace Scene

/-- The scene in which strokes do not move. -/
def still (scene : Scene) : Scene :=
  { scene with options := { scene.options with animated := false } }

/-- The scene in which words have no captions. -/
def bare (scene : Scene) : Scene :=
  { scene with options := { scene.options with showCaption := false } }

theorem map_withoutEffects_wordLayers (scene : Scene) (word : WordPlace × StrokePath) :
    (scene.wordLayers word).map Layer.withoutEffects = scene.still.wordLayers word := by
  have hletters : (scene.letters word.1).map Layer.withoutEffects = scene.letters word.1 := by
    refine map_letters fun layer caption hkind => ?_
    rw [Layer.withoutEffects, hkind]
  rw [wordLayers, List.map_append, hletters]
  rfl

theorem filter_isCaption_wordLayers (scene : Scene) (word : WordPlace × StrokePath) :
    (scene.wordLayers word).filter (fun layer => !layer.kind.isCaption) =
      scene.bare.wordLayers word := by
  have hletters : (scene.letters word.1).filter (fun layer => !layer.kind.isCaption) = [] :=
    filter_letters (fun kind => !kind.isCaption) fun _ => rfl
  rw [wordLayers, List.filter_append, hletters]
  rfl

theorem withoutEffects_document (scene : Scene) (drawn : List (WordPlace × StrokePath)) :
    (scene.document (scene.wordStack drawn ++ scene.ground)).withoutEffects =
      scene.still.document (scene.still.wordStack drawn ++ scene.still.ground) := by
  have hstack : (scene.wordStack drawn).map Layer.withoutEffects = scene.still.wordStack drawn := by
    have h : (scene.wordStack drawn).map Layer.withoutEffects =
        scene.still.wordStack (drawn.map id) :=
      map_wordStack scene.map_withoutEffects_wordLayers drawn
    rwa [List.map_id] at h
  have hlayers : (scene.wordStack drawn ++ scene.ground).map Layer.withoutEffects =
      scene.still.wordStack drawn ++ scene.still.ground := by
    rw [List.map_append, hstack]
    rfl
  exact congrArg scene.still.document hlayers

theorem withoutCaptions_document (scene : Scene) (drawn : List (WordPlace × StrokePath)) :
    (scene.document (scene.wordStack drawn ++ scene.ground)).withoutCaptions =
      scene.bare.document (scene.bare.wordStack drawn ++ scene.bare.ground) := by
  have hlayers : (scene.wordStack drawn ++ scene.ground).filter
        (fun layer => !layer.kind.isCaption) =
      scene.bare.wordStack drawn ++ scene.bare.ground := by
    rw [List.filter_append, filter_wordStack scene.filter_isCaption_wordLayers]
    rfl
  exact congrArg scene.bare.document hlayers

end Scene

/-! ## Texts under other options -/

namespace GlyphCompiler

theorem compile_not_animated (compiler : GlyphCompiler) (options : CompileOptions) (text : String)
    (source : RandomSource) :
    (compiler.compile { options with animated := false } text source).1 =
      (compiler.compile { options with animated := true } text source).1.map
        AnimationDocument.withoutEffects := by
  rw [compile_eq, compile_eq]
  cases (compiler.table.glyphLines text).all List.isEmpty with
  | true => rfl
  | false =>
    have h := (compiler.scene { options with animated := true } text).withoutEffects_document
      (compiler.drawn { options with animated := true } text source).1
    exact congrArg some h.symm

theorem compile_without_caption (compiler : GlyphCompiler) (options : CompileOptions)
    (text : String) (source : RandomSource) :
    (compiler.compile { options with showCaption := false } text source).1 =
      (compiler.compile { options with showCaption := true } text source).1.map
        AnimationDocument.withoutCaptions := by
  rw [compile_eq, compile_eq]
  cases (compiler.table.glyphLines text).all List.isEmpty with
  | true => rfl
  | false =>
    have h := (compiler.scene { options with showCaption := true } text).withoutCaptions_document
      (compiler.drawn { options with showCaption := true } text source).1
    exact congrArg some h.symm

/-- The document of a still text is that of the moving one without its effects, which are
the trims and the transforms of its strokes wherever the moving one has a Lottie form, and has
itself a Lottie form without keyframes anywhere.  The document without captions is that with
captions without its letters.  All options leave the source in the same state. -/
theorem compile_options (compiler : GlyphCompiler) (options : CompileOptions) (text : String)
    (source : RandomSource) :
    let answer := fun options => compiler.compile options text source
    let moving := answer { options with animated := true }
    let still := answer { options with animated := false }
    let captioned := answer { options with showCaption := true }
    let bare := answer { options with showCaption := false }
    still.1 = moving.1.map AnimationDocument.withoutEffects ∧
      (∀ document, moving.1 = some document → document.toLottie.isSome = true →
        still.1.map AnimationDocument.toLottie = some document.toLottieStill) ∧
      bare.1 = captioned.1.map AnimationDocument.withoutCaptions ∧
      (∀ other, (answer other).2 = (answer options).2) ∧
      ∀ document, still.1 = some document →
        ∃ animation, document.toLottie = some animation ∧
          ∀ layer ∈ animation.layers, ∀ track ∈ layer.tracks, track = ⟨0, none⟩ := by
  intro answer moving still captioned bare
  have hstill : still.1 = moving.1.map AnimationDocument.withoutEffects :=
    compiler.compile_not_animated options text source
  refine ⟨hstill, ?_, compiler.compile_without_caption options text source, ?_, ?_⟩
  · intro document hdocument hlottie
    rw [hstill, hdocument]
    exact congrArg some (AnimationDocument.toLottie_withoutEffects hlottie)
  · intro other
    exact (compiler.source_compile other text source).trans
      (compiler.source_compile options text source).symm
  · intro document hdocument
    rw [hstill] at hdocument
    obtain ⟨whole, -, rfl⟩ := Option.map_eq_some_iff.mp hdocument
    obtain ⟨animation, hanimation⟩ :=
      Option.isSome_iff_exists.mp whole.isSome_toLottie_withoutEffects
    refine ⟨animation, hanimation, fun wire hwire => ?_⟩
    obtain ⟨layer, hlayer, hlottie⟩ := AnimationDocument.exists_of_mem_layers hanimation hwire
    obtain ⟨inner, -, rfl⟩ := List.mem_map.mp hlayer
    exact Layer.tracks_withoutEffects hlottie

end GlyphCompiler
end AnimatedGlyph
