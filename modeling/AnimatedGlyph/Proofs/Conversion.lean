/-
When a document has a Lottie form.

Frames are words, and the frame after the last word is none.  Only the keyframes of an opacity
ask for the next frame, so that a layer has a Lottie form unless it is a stroke with an opacity
that would go off there (`Layer.isSome_toLottie_iff`), and a document has one if all its layers
do.  A compiled document has a last word, which stops with the timeline: it has a Lottie form
unless it moves and its timeline has all the frames that a word counts
(`GlyphCompiler.isSome_toLottie_iff`).

What a conversion gives is taken apart here once.  `opacityKeyframes_eq_some_iff` reads the
checked sums as sums of natural numbers, and layers with their Lottie forms are pairs in
`List.Forall₂`.
-/
import Mathlib.Algebra.Group.Nat.Defs
import Mathlib.Data.List.Forall2
import AnimatedGlyph.Document.Wire
import AnimatedGlyph.Proofs.LayerStack

namespace AnimatedGlyph

open Lottie (Keyframe ShapeItem)

/-! ## Checked results -/

theorem map_eq_some_iff {α β : Type} {f : α → β} {result : Checked α} {b : β} :
    result.map f = some b ↔ ∃ a, result = some a ∧ b = f a := by
  rw [Option.map_eq_some_iff]
  exact exists_congr fun _ => and_congr_right' eq_comm

theorem mapM_eq_some_iff {α β : Type} {f : α → Checked β} {items : List α} {results : List β} :
    items.mapM f = some results ↔
      List.Forall₂ (fun item result => f item = some result) items results := by
  induction items generalizing results with
  | nil =>
    rw [List.mapM_nil, List.forall₂_nil_left_iff]
    exact ⟨fun h => (Option.some.inj h).symm, fun h => congrArg some h.symm⟩
  | cons item rest ih =>
    simp only [List.mapM_cons, Option.bind_eq_bind, Option.bind_eq_some_iff, Option.pure_def,
      Option.some.injEq, List.forall₂_cons_left_iff, ih]
    constructor
    · rintro ⟨result, hresult, results, hresults, rfl⟩
      exact ⟨result, results, hresult, hresults, rfl⟩
    · rintro ⟨result, results, hresult, hresults, rfl⟩
      exact ⟨result, hresult, results, hresults, rfl⟩

section Related

variable {α β : Type} {R : α → β → Prop} {lefts : List α} {rights : List β}

/-- In related lists every right member has a left one. -/
theorem exists_of_forall₂_right (h : List.Forall₂ R lefts rights) {right : β}
    (hright : right ∈ rights) : ∃ left ∈ lefts, R left right := by
  induction h with
  | nil => cases hright
  | @cons first _ _ _ hfirst _ ih =>
    rcases List.mem_cons.mp hright with rfl | hrest
    · exact ⟨first, List.mem_cons_self, hfirst⟩
    · obtain ⟨left, hleft, hrel⟩ := ih hrest
      exact ⟨left, List.mem_cons_of_mem first hleft, hrel⟩

theorem exists_of_forall₂_left (h : List.Forall₂ R lefts rights) {left : α}
    (hleft : left ∈ lefts) : ∃ right ∈ rights, R left right := by
  obtain ⟨right, hright, hrel⟩ := exists_of_forall₂_right h.flip hleft
  exact ⟨right, hright, hrel⟩

theorem forall₂_concat_left {last : α} (h : List.Forall₂ R (lefts ++ [last]) rights) :
    ∃ before right, rights = before ++ [right] ∧ List.Forall₂ R lefts before ∧ R last right := by
  induction lefts generalizing rights with
  | nil =>
    obtain ⟨right, rest, hlast, hrest, rfl⟩ := List.forall₂_cons_left_iff.mp h
    cases hrest
    exact ⟨[], right, rfl, .nil, hlast⟩
  | cons left lefts ih =>
    obtain ⟨first, rest, hfirst, hrest, rfl⟩ := List.forall₂_cons_left_iff.mp h
    obtain ⟨before, right, rfl, hbefore, hright⟩ := ih hrest
    exact ⟨first :: before, right, rfl, .cons hfirst hbefore, hright⟩

end Related

theorem isSome_mapM_iff {α β : Type} {f : α → Checked β} {items : List α} :
    (items.mapM f).isSome = true ↔ ∀ item ∈ items, (f item).isSome = true := by
  simp only [Option.isSome_iff_exists, mapM_eq_some_iff]
  induction items with
  | nil => simp
  | cons item rest ih =>
    rw [List.forall_mem_cons, ← ih]
    constructor
    · rintro ⟨results, hresults⟩
      obtain ⟨result, others, hresult, hothers, -⟩ := List.forall₂_cons_left_iff.mp hresults
      exact ⟨⟨result, hresult⟩, others, hothers⟩
    · rintro ⟨⟨result, hresult⟩, others, hothers⟩
      exact ⟨result :: others, .cons hresult hothers⟩

theorem mapM_congr {α β : Type} {f g : α → Checked β} {items : List α}
    (h : ∀ item ∈ items, f item = g item) : items.mapM f = items.mapM g := by
  induction items with
  | nil => rfl
  | cons item rest ih =>
    obtain ⟨hitem, hrest⟩ := List.forall_mem_cons.mp h
    rw [List.mapM_cons, List.mapM_cons, hitem, ih hrest]

/-! ## Sums -/

namespace Checked

theorem add32_eq_some_iff {a b c : UInt32} :
    add32 a b = some c ↔ c.toNat = a.toNat + b.toNat := by
  rw [add32]
  by_cases h : a.toNat + b.toNat < UInt32.size
  · have hsum : (a + b).toNat = a.toNat + b.toNat := by
      rw [UInt32.toNat_add]
      exact Nat.mod_eq_of_lt h
    rw [if_pos h, Option.some.injEq, ← UInt32.toNat_inj, hsum]
    exact eq_comm
  · rw [if_neg h]
    refine ⟨nofun, fun hsum => absurd ?_ h⟩
    rw [← hsum]
    exact c.toNat_lt

end Checked

/-! ## Keyframes -/

theorem toNat_max (a b : UInt32) : (max a b).toNat = max a.toNat b.toNat := by
  show (if a ≤ b then b else a).toNat = max a.toNat b.toNat
  by_cases h : a ≤ b
  · have hle := UInt32.le_iff_toNat_le.mp h
    rw [if_pos h]
    omega
  · have hlt : ¬a.toNat ≤ b.toNat := fun hle => h (UInt32.le_iff_toNat_le.mpr hle)
    rw [if_neg h]
    omega

/-- The frame at which the opacity over a window goes off, as a natural number. -/
def FrameWindow.offFrame (window : FrameWindow) : Nat :=
  max (window.start.toNat + 1) window.stop.toNat + 1

/-- The keyframes of an opacity are there if the frames at which it goes on and off are
words. -/
theorem opacityKeyframes_eq_some_iff {window : FrameWindow} {frames : List Keyframe} :
    opacityKeyframes window = some frames ↔
      ∃ on off : UInt32, on.toNat = window.start.toNat + 1 ∧ off.toNat = window.offFrame ∧
        frames = [.hold window.start 0.0, .hold on 100.0] ++
          (if on < window.stop then [.hold window.stop 100.0] else []) ++ [.hold off 0.0] := by
  have hone : (1 : UInt32).toNat = 1 := rfl
  simp only [opacityKeyframes, Option.bind_eq_bind, Option.bind_eq_some_iff, Option.pure_def,
    Option.some.injEq, Checked.add32_eq_some_iff, toNat_max, hone]
  constructor
  · rintro ⟨on, hon, off, hoff, rfl⟩
    refine ⟨on, off, hon, ?_, rfl⟩
    rw [hoff, hon, FrameWindow.offFrame, Nat.max_comm]
  · rintro ⟨on, off, hon, hoff, rfl⟩
    refine ⟨on, hon, off, ?_, rfl⟩
    rw [hoff, hon, FrameWindow.offFrame, Nat.max_comm]

theorem isSome_opacityKeyframes_iff {window : FrameWindow} :
    (opacityKeyframes window).isSome = true ↔ window.offFrame < 2 ^ 32 := by
  simp only [Option.isSome_iff_exists, opacityKeyframes_eq_some_iff]
  constructor
  · rintro ⟨_, _, off, -, hoff, -⟩
    rw [← hoff]
    exact off.toNat_lt
  · intro room
    have hon : window.start.toNat + 1 < 2 ^ 32 := by
      rw [FrameWindow.offFrame] at room
      omega
    exact ⟨_, .ofNat (window.start.toNat + 1), .ofNat window.offFrame,
      UInt32.toNat_ofNat_of_lt' hon, UInt32.toNat_ofNat_of_lt' room, rfl⟩

/-! ## Strokes -/

/-- The item of an effect. -/
theorem effectShape_eq_some_iff {window : FrameWindow} {effect : Effect} {item : ShapeItem} :
    effectShape window effect = some item ↔
      effect = .trim ∧ item = .trim (trimOver window) ∨
        effect = .opacity ∧ ∃ frames, opacityKeyframes window = some frames ∧
          item = .transform (opacityOver frames) := by
  cases effect with
  | trim => simp [effectShape, eq_comm]
  | opacity =>
    rw [effectShape, map_eq_some_iff]
    simp

theorem isSome_effectShape_iff {window : FrameWindow} {effect : Effect} :
    (effectShape window effect).isSome = true ↔
      (effect = .opacity → window.offFrame < 2 ^ 32) := by
  cases effect with
  | trim => exact ⟨fun _ => nofun, fun _ => rfl⟩
  | opacity =>
    rw [effectShape, Option.isSome_map, isSome_opacityKeyframes_iff]
    exact ⟨fun h _ => h, fun h => h rfl⟩

theorem strokeShapes_eq_some_iff {window : FrameWindow} {stroke : StrokeLayer}
    {shapes : List ShapeItem} :
    strokeShapes window stroke = some shapes ↔
      ∃ items, List.Forall₂ (fun effect item => effectShape window effect = some item)
          stroke.effects items ∧
        shapes = [pathCurve stroke.path, strokeStyle stroke.colour.toRgba stroke.width 2] ++
          items := by
  rw [strokeShapes, map_eq_some_iff]
  simp only [mapM_eq_some_iff]

/-- A stroke is not drawn as a group. -/
theorem plain_strokeShapes {window : FrameWindow} {stroke : StrokeLayer}
    {shapes : List ShapeItem} (h : strokeShapes window stroke = some shapes) :
    ∀ item ∈ shapes, item.tag ≠ .group := by
  obtain ⟨items, hitems, rfl⟩ := strokeShapes_eq_some_iff.mp h
  refine List.forall_mem_append.mpr ⟨?_, fun item hitem => ?_⟩
  · exact List.forall_mem_cons.mpr ⟨nofun, List.forall_mem_singleton.mpr nofun⟩
  · obtain ⟨effect, -, hitem⟩ := exists_of_forall₂_right hitems hitem
    rcases effectShape_eq_some_iff.mp hitem with ⟨-, rfl⟩ | ⟨-, frames, -, rfl⟩ <;> nofun

theorem isSome_strokeShapes_iff {window : FrameWindow} {stroke : StrokeLayer} :
    (strokeShapes window stroke).isSome = true ↔
      (.opacity ∈ stroke.effects → window.offFrame < 2 ^ 32) := by
  simp only [strokeShapes, Option.isSome_map, isSome_mapM_iff, isSome_effectShape_iff]
  exact ⟨fun h hmem => h .opacity hmem rfl, fun h effect hmem heq => h (heq ▸ hmem)⟩

/-! ## Layers and documents -/

/-- Only a stroke with an opacity may have no Lottie form. -/
theorem Layer.isSome_toLottie_iff {layer : Layer} :
    layer.toLottie.isSome = true ↔ ∀ stroke, layer.kind = .stroke stroke →
      .opacity ∈ stroke.effects → layer.window.offFrame < 2 ^ 32 := by
  obtain ⟨name, window, kind⟩ := layer
  cases kind with
  | stroke stroke =>
    show ((strokeShapes window stroke).map _).isSome = true ↔ _
    rw [Option.isSome_map, isSome_strokeShapes_iff]
    constructor
    · rintro h other ⟨⟩
      exact h
    · exact fun h => h stroke rfl
  | grid nodes => exact ⟨fun _ => nofun, fun _ => rfl⟩
  | background plain => exact ⟨fun _ => nofun, fun _ => rfl⟩
  | caption caption => exact ⟨fun _ => nofun, fun _ => rfl⟩

/-- The Lottie form of a stroke. -/
theorem Layer.toLottie_stroke_eq_some_iff {layer : Layer} {stroke : StrokeLayer}
    (hkind : layer.kind = .stroke stroke) {wire : Lottie.Layer} :
    layer.toLottie = some wire ↔ ∃ shapes, strokeShapes layer.window stroke = some shapes ∧
      wire = .ofShapes layer.name layer.window.start layer.window.stop layer.window.start
        shapes := by
  simp only [toLottie, hkind, map_eq_some_iff]

/-- The Lottie form of a layer has its name and its window. -/
theorem Layer.outline_of_toLottie {layer : Layer} {wire : Lottie.Layer}
    (h : layer.toLottie = some wire) :
    wire.name = layer.name ∧ wire.inPoint = layer.window.start ∧
      wire.outPoint = layer.window.stop := by
  obtain ⟨name, window, kind⟩ := layer
  cases kind with
  | stroke stroke =>
    obtain ⟨_, -, rfl⟩ := (toLottie_stroke_eq_some_iff rfl).mp h
    exact ⟨rfl, rfl, rfl⟩
  | grid nodes => cases h; exact ⟨rfl, rfl, rfl⟩
  | background plain => cases h; exact ⟨rfl, rfl, rfl⟩
  | caption caption => cases h; exact ⟨rfl, rfl, rfl⟩

namespace AnimationDocument

theorem toLottie_eq_some_iff {document : AnimationDocument} {animation : Lottie.Animation} :
    document.toLottie = some animation ↔
      ∃ layers, List.Forall₂ (fun layer wire => layer.toLottie = some wire)
          document.layers layers ∧ animation = document.animationOf layers := by
  simp only [toLottie, map_eq_some_iff, mapM_eq_some_iff]

/-- Every layer of the animation is that of a layer of the document. -/
theorem exists_of_mem_layers {document : AnimationDocument} {animation : Lottie.Animation}
    (h : document.toLottie = some animation) {wire : Lottie.Layer}
    (hwire : wire ∈ animation.layers) : ∃ layer ∈ document.layers, layer.toLottie = some wire := by
  obtain ⟨layers, hlayers, rfl⟩ := toLottie_eq_some_iff.mp h
  exact exists_of_forall₂_right hlayers hwire

/-- Every layer of the document has one in the animation. -/
theorem exists_toLottie_of_mem {document : AnimationDocument} {animation : Lottie.Animation}
    (h : document.toLottie = some animation) {layer : Layer} (hlayer : layer ∈ document.layers) :
    ∃ wire ∈ animation.layers, layer.toLottie = some wire := by
  obtain ⟨layers, hlayers, rfl⟩ := toLottie_eq_some_iff.mp h
  exact exists_of_forall₂_left hlayers hlayer

end AnimationDocument

/-! ## Compiled documents -/

namespace WordPlace

theorem offFrame_window (place : WordPlace) (total : UInt32) :
    (place.window total).offFrame = max (wordStart place.words total.toNat place.word + 1)
      (wordStop place.words total.toNat place.word) + 1 := by
  rw [FrameWindow.offFrame, place.toNat_start_window, place.toNat_stop_window]

theorem offFrame_window_lt {place : WordPlace} {total : UInt32}
    (h : total.toNat + 1 < 2 ^ 32) : (place.window total).offFrame < 2 ^ 32 := by
  have hstop := wordStop_le place.words total.toNat place.word
  rw [offFrame_window]
  by_cases htotal : 0 < total.toNat
  · have hstart := wordStart_lt htotal place.word_lt
    omega
  · have hstart : wordStart place.words total.toNat place.word ≤ total.toNat :=
      wordStart_le place.word_lt
    omega

/-- The last word of a line stops with the timeline. -/
theorem le_offFrame_window_of_last {place : WordPlace} {total : UInt32}
    (hlast : place.word + 1 = place.words) :
    total.toNat + 1 ≤ (place.window total).offFrame := by
  have hstop : wordStop place.words total.toNat place.word = total.toNat := wordStop_last hlast
  rw [offFrame_window]
  omega

end WordPlace

theorem Scene.isSome_toLottie_wordStroke_iff {scene : Scene} {word : WordPlace × StrokePath} :
    (scene.wordStroke word).toLottie.isSome = true ↔
      (scene.options.animated = true →
        (word.1.window scene.settings.totalFrames).offFrame < 2 ^ 32) := by
  rw [Layer.isSome_toLottie_iff]
  constructor
  · intro h hanimated
    refine h _ rfl ?_
    rw [if_pos hanimated]
    exact List.mem_cons_of_mem Effect.trim List.mem_cons_self
  · rintro h stroke ⟨⟩ hopacity
    apply h
    by_contra hstill
    rw [if_neg hstill] at hopacity
    cases hopacity

theorem Scene.toLottie_wordStroke_of_moving {scene : Scene} {word : WordPlace × StrokePath}
    {frames : List Keyframe} (hanimated : scene.options.animated = true)
    (hframes : opacityKeyframes (scene.wordStroke word).window = some frames) :
    (scene.wordStroke word).toLottie =
      some (.ofShapes word.1.glyph.label (scene.wordStroke word).window.start
        (scene.wordStroke word).window.stop (scene.wordStroke word).window.start
        [pathCurve word.2,
          strokeStyle word.1.colour.toRgba (strokeWidth word.1.line scene.lines) 2,
          .trim (trimOver (scene.wordStroke word).window), .transform (opacityOver frames)]) := by
  have hopacity : effectShape (scene.wordStroke word).window .opacity =
      some (.transform (opacityOver frames)) :=
    effectShape_eq_some_iff.mpr (.inr ⟨rfl, frames, hframes, rfl⟩)
  rw [Layer.toLottie_stroke_eq_some_iff rfl, if_pos hanimated]
  exact ⟨_, strokeShapes_eq_some_iff.mpr ⟨_, .cons rfl (.cons hopacity .nil), rfl⟩, rfl⟩

theorem Scene.isSome_toLottie_letters {scene : Scene} {place : WordPlace} :
    ∀ layer ∈ scene.letters place, layer.toLottie.isSome = true := by
  intro layer hlayer
  obtain ⟨caption, hkind⟩ := exists_caption_of_mem_letters hlayer
  rw [Layer.isSome_toLottie_iff, hkind]
  exact nofun

theorem Scene.isSome_toLottie_document_iff {scene : Scene}
    {drawn : List (WordPlace × StrokePath)} :
    (scene.document (scene.wordStack drawn ++ scene.ground)).toLottie.isSome = true ↔
      (scene.options.animated = true → ∀ word ∈ drawn,
        (word.1.window scene.settings.totalFrames).offFrame < 2 ^ 32) := by
  rw [AnimationDocument.toLottie, Option.isSome_map, isSome_mapM_iff]
  refine forall_mem_layers_iff.trans ?_
  simp only [isSome_toLottie_wordStroke_iff]
  constructor
  · exact fun h hanimated word hword => (h.1 word hword).2 hanimated
  · intro h
    exact ⟨fun word hword =>
      ⟨isSome_toLottie_letters, fun hanimated => h hanimated word hword⟩, rfl, rfl⟩

/-- Settings may have any number of frames from two on. -/
theorem StickerSettings.check_standard {total : UInt32} (h : ¬total < 2) :
    { StickerSettings.standard with totalFrames := total }.check = .ok () := by
  have hsize : ¬(StickerSettings.standard.width = 0 ∨ StickerSettings.standard.height = 0) := by
    decide
  have hscale : ¬StickerSettings.standard.canvas.scale ≤ 0.0 := by decide
  rw [StickerSettings.check, if_neg h, if_neg hsize, if_neg hscale]

namespace GlyphCompiler

/-- A compiled document has a Lottie form unless it moves and its timeline has all the frames
that a word counts. -/
theorem isSome_toLottie_iff {compiler : GlyphCompiler} {options : CompileOptions} {text : String}
    {source : RandomSource} {document : AnimationDocument}
    (hdocument : (compiler.compile options text source).1 = some document) :
    document.toLottie.isSome = true ↔
      (options.animated = true → compiler.settings.totalFrames.toNat + 1 < 2 ^ 32) := by
  obtain ⟨husable, rfl⟩ := compile_eq_some_iff.mp hdocument
  obtain ⟨place, hplace, hlast⟩ := exists_last_word husable
  rw [← compiler.map_fst_drawn options text source] at hplace
  obtain ⟨word, hword, rfl⟩ := List.mem_map.mp hplace
  rw [Scene.isSome_toLottie_document_iff]
  constructor
  · intro h hanimated
    exact Nat.lt_of_le_of_lt (WordPlace.le_offFrame_window_of_last hlast)
      (h hanimated word hword)
  · exact fun room hanimated _ _ => WordPlace.offFrame_window_lt (room hanimated)

/-- The document of a text has no Lottie form exactly if the text moves on a timeline of all the
frames that a word counts. -/
theorem exists_toLottie_eq_none_iff {compiler : GlyphCompiler} {options : CompileOptions}
    {text : String} {source : RandomSource} :
    (∃ document, (compiler.compile options text source).1 = some document ∧
        document.toLottie = none) ↔
      options.animated = true ∧ compiler.settings.totalFrames.toNat + 1 = 2 ^ 32 ∧
        (compiler.compile options text source).1.isSome = true := by
  have hframes := compiler.settings.totalFrames.toNat_lt
  constructor
  · rintro ⟨document, hdocument, hnone⟩
    have hnot := mt (isSome_toLottie_iff hdocument).mpr (by rw [hnone]; exact Bool.false_ne_true)
    obtain ⟨hanimated, hroom⟩ := Classical.not_imp.mp hnot
    exact ⟨hanimated, by omega, by rw [hdocument]; rfl⟩
  · rintro ⟨hanimated, htotal, hsome⟩
    obtain ⟨document, hdocument⟩ := Option.isSome_iff_exists.mp hsome
    refine ⟨document, hdocument, Option.not_isSome_iff_eq_none.mp fun hlottie => ?_⟩
    have hroom := (isSome_toLottie_iff hdocument).mp hlottie hanimated
    omega

/-- With a frame to spare every compiled document has a Lottie form. -/
theorem exists_toLottie {compiler : GlyphCompiler} {options : CompileOptions} {text : String}
    {source : RandomSource} {document : AnimationDocument}
    (hdocument : (compiler.compile options text source).1 = some document)
    (room : options.animated = true → compiler.settings.totalFrames.toNat + 1 < 2 ^ 32) :
    ∃ animation, document.toLottie = some animation :=
  Option.isSome_iff_exists.mp ((isSome_toLottie_iff hdocument).mpr room)

end GlyphCompiler
end AnimatedGlyph
