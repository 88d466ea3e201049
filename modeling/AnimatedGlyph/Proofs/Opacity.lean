/-
The opacity of a stroke over time.

An opacity has three or four keyframes, and which of them are there depends on the
window.  `heldAt_opacityKeyframes` does away with the cases: the opacity is off at the
start of the window, on from the next frame up to and including the stop, and in any
case for that next frame, and then off for good.
-/
import Mathlib.Algebra.Group.Nat.Defs
import AnimatedGlyph.Proofs.Conversion

namespace AnimatedGlyph

open Lottie (Keyframe ShapeItem)

/-! ## Held values -/

namespace Lottie

/-- The value at a frame, which is that of the last keyframe at or before it. -/
def heldAt (frames : List Keyframe) (frame : UInt32) : Option (List Float) :=
  (frames.filter fun keyframe => keyframe.time ≤ frame).getLast?.map Keyframe.value

theorem heldAt_append_of_le {frames : List Keyframe} {keyframe : Keyframe} {frame : UInt32}
    (h : keyframe.time ≤ frame) : heldAt (frames ++ [keyframe]) frame = some keyframe.value := by
  rw [heldAt, List.filter_append, List.filter_cons, if_pos (decide_eq_true h)]
  simp

theorem heldAt_append_of_lt {frames : List Keyframe} {keyframe : Keyframe} {frame : UInt32}
    (h : ¬keyframe.time ≤ frame) : heldAt (frames ++ [keyframe]) frame = heldAt frames frame := by
  rw [heldAt, List.filter_append, List.filter_cons, if_neg (by simpa using h)]
  simp [heldAt]

end Lottie

/-! ## Keyframes of a window -/

theorem heldAt_start {window : FrameWindow} {on frame : UInt32}
    (hon : on.toNat = window.start.toNat + 1) (hstart : window.start ≤ frame) :
    Lottie.heldAt ([.hold window.start 0.0] ++ [.hold on 100.0]) frame =
      if window.start.toNat < frame.toNat then some [100.0] else some [0.0] := by
  by_cases hpast : window.start.toNat < frame.toNat
  · have hle : on ≤ frame := by
      rw [UInt32.le_iff_toNat_le, hon]
      exact hpast
    rw [if_pos hpast, Lottie.heldAt_append_of_le hle]
    rfl
  · have hlt : ¬on ≤ frame := by
      rw [UInt32.le_iff_toNat_le, hon]
      exact hpast
    rw [if_neg hpast, Lottie.heldAt_append_of_lt hlt]
    have hzero : (Keyframe.hold window.start 0.0).time ≤ frame := hstart
    show Lottie.heldAt ([] ++ [Keyframe.hold window.start 0.0]) frame = some [0.0]
    exact Lottie.heldAt_append_of_le hzero

/-- The opacity over a window at every frame from its start on. -/
theorem heldAt_opacityKeyframes {window : FrameWindow} {frames : List Keyframe} {frame : UInt32}
    (hframes : opacityKeyframes window = some frames) (hstart : window.start ≤ frame) :
    Lottie.heldAt frames frame =
      if window.start.toNat < frame.toNat ∧ frame.toNat < window.offFrame then some [100.0]
      else some [0.0] := by
  obtain ⟨on, off, hon, hlast, rfl⟩ := opacityKeyframes_eq_some_iff.mp hframes
  have hreach : window.offFrame = max (window.start.toNat + 1) window.stop.toNat + 1 := rfl
  by_cases hoff : off ≤ frame
  · -- Off for good: the last keyframe decides.
    have hpast := UInt32.le_iff_toNat_le.mp hoff
    rw [Lottie.heldAt_append_of_le hoff, if_neg (by omega)]
    rfl
  · have hbefore : frame.toNat < window.offFrame := by
      rw [← hlast]
      exact Nat.lt_of_not_le fun h => hoff (UInt32.le_iff_toNat_le.mpr h)
    rw [Lottie.heldAt_append_of_lt hoff]
    by_cases hstop : on < window.stop ∧ window.stop ≤ frame
    · -- The keyframe at the stop says once more that it is on.
      have hpast : window.start.toNat < frame.toNat := by
        have hlt := UInt32.lt_iff_toNat_lt.mp hstop.1
        have hle := UInt32.le_iff_toNat_le.mp hstop.2
        omega
      rw [if_pos hstop.1, Lottie.heldAt_append_of_le hstop.2, if_pos ⟨hpast, hbefore⟩]
      rfl
    · have hmiddle : Lottie.heldAt
          ([.hold window.start 0.0, .hold on 100.0] ++
            (if on < window.stop then [.hold window.stop 100.0] else [])) frame =
          Lottie.heldAt ([.hold window.start 0.0] ++ [.hold on 100.0]) frame := by
        by_cases hlong : on < window.stop
        · rw [if_pos hlong]
          exact Lottie.heldAt_append_of_lt fun h => hstop ⟨hlong, h⟩
        · rw [if_neg hlong]
          rfl
      rw [hmiddle, heldAt_start hon hstart]
      by_cases hpast : window.start.toNat < frame.toNat
      · rw [if_pos hpast, if_pos ⟨hpast, hbefore⟩]
      · rw [if_neg hpast, if_neg fun h => hpast h.1]

/-- The opacity is on in some frame of the window exactly if the window has a second
frame: in the first one it is still off. -/
theorem exists_on_frame_iff {window : FrameWindow} {frames : List Keyframe}
    (hframes : opacityKeyframes window = some frames) :
    (∃ frame, window.start ≤ frame ∧ frame < window.stop ∧
        Lottie.heldAt frames frame = some [100.0]) ↔
      window.start.toNat + 2 ≤ window.stop.toNat := by
  constructor
  · rintro ⟨frame, hin, hout, hon⟩
    have hlt := UInt32.lt_iff_toNat_lt.mp hout
    rw [heldAt_opacityKeyframes hframes hin] at hon
    split at hon
    · omega
    · exact absurd hon (by decide)
  · intro htwo
    obtain ⟨on, off, hon, -, -⟩ := opacityKeyframes_eq_some_iff.mp hframes
    have hoff : window.offFrame = max (window.start.toNat + 1) window.stop.toNat + 1 := rfl
    have hin : window.start ≤ on := by
      rw [UInt32.le_iff_toNat_le]
      omega
    have hout : on < window.stop := by
      rw [UInt32.lt_iff_toNat_lt]
      omega
    refine ⟨on, hin, hout, ?_⟩
    rw [heldAt_opacityKeyframes hframes hin, if_pos (by omega)]

/-! ## Layers that show -/

namespace Lottie

/-- The keyframes of the opacity of a transform among shapes. -/
def ShapeItem.opacityKeyframes? : ShapeItem → Option (List Keyframe)
  | .transform placing => placing.opacity.keyframes?
  | _ => none

/-- The opacity of a layer at a frame, if it has keyframes. -/
def Layer.opacityAt (layer : Layer) (frame : UInt32) : Option (List Float) := do
  heldAt (← (← layer.shapes).findSome? ShapeItem.opacityKeyframes?) frame

/-- Whether there is a whole frame in which the layer shows with all of its opacity. -/
def Layer.Shows (layer : Layer) : Prop :=
  ∃ frame, layer.inPoint ≤ frame ∧ frame < layer.outPoint ∧
    layer.opacityAt frame = some [100.0]

end Lottie

/-- Whether a layer has a Lottie form that shows with all of its opacity. -/
def Layer.Shows (layer : Layer) : Prop :=
  ∃ wire, layer.toLottie = some wire ∧ wire.Shows

/-- The Lottie form of a word's stroke that moves. -/
theorem exists_toLottie_wordStroke {scene : Scene} {word : WordPlace × StrokePath}
    (hanimated : scene.options.animated = true)
    (room : scene.settings.totalFrames.toNat + 1 < 2 ^ 32) :
    ∃ frames wire, opacityKeyframes (scene.wordStroke word).window = some frames ∧
      (scene.wordStroke word).toLottie = some wire ∧
      wire.inPoint = (scene.wordStroke word).window.start ∧
      wire.outPoint = (scene.wordStroke word).window.stop ∧
      ∀ frame, wire.opacityAt frame = Lottie.heldAt frames frame := by
  have hoff : (scene.wordStroke word).window.offFrame < 2 ^ 32 :=
    WordPlace.offFrame_window_lt room
  obtain ⟨frames, hframes⟩ :=
    Option.isSome_iff_exists.mp (isSome_opacityKeyframes_iff.mpr hoff)
  refine ⟨frames, _, hframes, Scene.toLottie_wordStroke_of_moving hanimated hframes, rfl, rfl,
    fun frame => rfl⟩

theorem shows_wordStroke_iff {scene : Scene} {word : WordPlace × StrokePath}
    (hanimated : scene.options.animated = true)
    (room : scene.settings.totalFrames.toNat + 1 < 2 ^ 32) :
    (scene.wordStroke word).Shows ↔
      (scene.wordStroke word).window.start.toNat + 2 ≤
        (scene.wordStroke word).window.stop.toNat := by
  obtain ⟨frames, wire, hframes, hwire, hin, hout, hopacity⟩ :=
    @exists_toLottie_wordStroke scene word hanimated room
  have hshows : wire.Shows ↔ (scene.wordStroke word).Shows := by
    constructor
    · exact fun h => ⟨wire, hwire, h⟩
    · rintro ⟨other, hother, h⟩
      rw [hwire] at hother
      cases hother
      exact h
  rw [← hshows, ← exists_on_frame_iff hframes]
  simp only [Lottie.Layer.Shows, hin, hout, hopacity]

/-! ## Documents in which every stroke shows -/

namespace GlyphCompiler

theorem forall_two_frames_drawn (compiler : GlyphCompiler) (options : CompileOptions)
    (text : String) (source : RandomSource) :
    (∀ word ∈ (compiler.drawn options text source).1,
        (word.1.window compiler.settings.totalFrames).start.toNat + 2 ≤
          (word.1.window compiler.settings.totalFrames).stop.toNat) ↔
      ∀ line ∈ compiler.table.glyphLines text,
        2 * line.length ≤ compiler.settings.totalFrames.toNat := by
  have hplaces : (∀ word ∈ (compiler.drawn options text source).1,
        (word.1.window compiler.settings.totalFrames).start.toNat + 2 ≤
          (word.1.window compiler.settings.totalFrames).stop.toNat) ↔
      ∀ place ∈ wordPlaces (compiler.table.glyphLines text),
        wordStart place.words compiler.settings.totalFrames.toNat place.word + 2 ≤
          wordStop place.words compiler.settings.totalFrames.toNat place.word := by
    rw [← compiler.map_fst_drawn options text source, List.forall_mem_map]
    simp only [WordPlace.toNat_start_window, WordPlace.toNat_stop_window]
  have hlines := @forall_wordPlaces (compiler.table.glyphLines text) fun words word =>
    wordStart words compiler.settings.totalFrames.toNat word + 2 ≤
      wordStop words compiler.settings.totalFrames.toNat word
  rw [hplaces, hlines]
  refine forall_congr' fun line => forall_congr' fun _ => ?_
  by_cases hline : 0 < line.length
  · exact forall_two_frames_iff hline
  · constructor
    · intro _
      omega
    · intro _ word hword
      omega

theorem shows_iff_two_frames {compiler : GlyphCompiler} {options : CompileOptions}
    {text : String} {source : RandomSource} {document : AnimationDocument} {layer : Layer}
    (hdocument : (compiler.compile options text source).1 = some document)
    (animated : options.animated = true)
    (room : compiler.settings.totalFrames.toNat + 1 < 2 ^ 32)
    (hlayer : layer ∈ document.strokeLayers) :
    layer.Shows ↔ layer.window.start.toNat + 2 ≤ layer.window.stop.toNat := by
  obtain ⟨-, rfl⟩ := compile_eq_some_iff.mp hdocument
  obtain ⟨word, -, rfl⟩ := Scene.mem_strokeLayers.mp hlayer
  exact shows_wordStroke_iff animated room

/-- The document of a moving text has a Lottie form, in which a stroke shows exactly if its window
has two frames, and so all of them show exactly if every line has at least twice as many frames as
words. -/
theorem strokes_show_iff (compiler : GlyphCompiler) {options : CompileOptions} {text : String}
    (source : RandomSource) (animated : options.animated = true)
    (room : compiler.settings.totalFrames.toNat + 1 < 2 ^ 32)
    (usable : (compiler.table.glyphLines text).all List.isEmpty = false) :
    ∃ document, (compiler.compile options text source).1 = some document ∧
      document.toLottie.isSome = true ∧
      (∀ layer ∈ document.strokeLayers,
        (layer.Shows ↔ layer.window.start.toNat + 2 ≤ layer.window.stop.toNat)) ∧
      ((∀ layer ∈ document.strokeLayers, layer.Shows) ↔
        ∀ line ∈ compiler.table.glyphLines text,
          2 * line.length ≤ compiler.settings.totalFrames.toNat) := by
  have hstroke : ∀ word ∈ (compiler.drawn options text source).1,
      (compiler.scene options text).wordStroke word ∈
        ((compiler.scene options text).document
          ((compiler.scene options text).wordStack (compiler.drawn options text source).1 ++
            (compiler.scene options text).ground)).strokeLayers :=
    fun word hword => Scene.mem_strokeLayers.mpr ⟨word, hword, rfl⟩
  have hdocument := @compile_of_glyph compiler options text source usable
  refine ⟨_, hdocument, (isSome_toLottie_iff hdocument).mpr fun _ => room,
    fun layer => shows_iff_two_frames hdocument animated room, ?_⟩
  rw [← forall_two_frames_drawn compiler options text source]
  constructor
  · intro h word hword
    have hlayer := hstroke word hword
    exact (shows_iff_two_frames hdocument animated room hlayer).mp (h _ hlayer)
  · intro h layer hlayer
    obtain ⟨word, hword, rfl⟩ := Scene.mem_strokeLayers.mp hlayer
    exact (shows_iff_two_frames hdocument animated room hlayer).mpr (h word hword)

/-- Two words on four frames. -/
theorem strokes_show_on_four_frames :
    let compiler : GlyphCompiler :=
      ⟨.empty, { StickerSettings.standard with totalFrames := 4 }⟩
    CompileOptions.standard.animated = true ∧
      compiler.settings.totalFrames.toNat + 1 < 2 ^ 32 ∧
        (compiler.table.glyphLines "01 23").all List.isEmpty = false ∧
          ∃ document, (compiler.compile .standard "01 23" (.ofSeed 1)).1 = some document ∧
            ∀ layer ∈ document.strokeLayers, layer.Shows := by
  intro compiler
  have room : compiler.settings.totalFrames.toNat + 1 < 2 ^ 32 := by decide
  have usable : (compiler.table.glyphLines "01 23").all List.isEmpty = false := by
    decide +kernel
  have hlines : ∀ line ∈ compiler.table.glyphLines "01 23",
      2 * line.length ≤ compiler.settings.totalFrames.toNat := by
    decide +kernel
  obtain ⟨document, hdocument, -, -, hall⟩ :=
    strokes_show_iff compiler (.ofSeed 1) (show CompileOptions.standard.animated = true from rfl)
      room usable
  exact ⟨rfl, room, usable, document, hdocument, hall.mpr hlines⟩

/-- Two words on two frames, which settings may have: each has a window of one frame, and
neither shows in it. -/
theorem strokes_hidden_on_two_frames :
    let compiler : GlyphCompiler :=
      ⟨.empty, { StickerSettings.standard with totalFrames := 2 }⟩
    compiler.settings.check = .ok () ∧
      ∃ document, (compiler.compile .standard "01 23" (.ofSeed 1)).1 = some document ∧
        document.toLottie.isSome = true ∧
        document.strokeLayers.map Layer.window = [⟨1, 2⟩, ⟨0, 1⟩] ∧
          ∀ layer ∈ document.strokeLayers, ¬layer.Shows := by
  intro compiler
  have room : compiler.settings.totalFrames.toNat + 1 < 2 ^ 32 := by decide
  have hwindows : (compiler.compile .standard "01 23" (.ofSeed 1)).1.map
      (fun document => document.strokeLayers.map Layer.window) = some [⟨1, 2⟩, ⟨0, 1⟩] := by
    decide +kernel
  obtain ⟨document, hdocument, hlayers⟩ := Option.map_eq_some_iff.mp hwindows
  refine ⟨StickerSettings.check_standard (by decide), document, hdocument,
    (isSome_toLottie_iff hdocument).mpr fun _ => room, hlayers, ?_⟩
  intro layer hlayer
  have hwindow : layer.window ∈ document.strokeLayers.map Layer.window :=
    List.mem_map_of_mem hlayer
  have hshort : ∀ window ∈ ([⟨1, 2⟩, ⟨0, 1⟩] : List FrameWindow),
      ¬window.start.toNat + 2 ≤ window.stop.toNat := by
    decide
  rw [hlayers] at hwindow
  rw [shows_iff_two_frames hdocument rfl room hlayer]
  exact hshort layer.window hwindow

end GlyphCompiler
end AnimatedGlyph
