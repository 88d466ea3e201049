/-
When frames overflow.

Schedules and keyframes are computed on machine words.  `Checked` notices a result that does
not fit, and this file says when it does: never in a schedule, as long as a line has fewer
than `2 ^ 32` words, and in a document exactly where a stroke with an opacity stops with the
last frame there is, since its opacity goes off one frame later.

For a text this comes down to its settings.  The last word of a line stops with the
timeline, so an animated text with a glyph overflows exactly if the timeline has
`2 ^ 32 - 1` frames, which `StickerSettings.check` lets through.
-/
import Mathlib.Algebra.Group.Nat.Defs
import AnimatedGlyph.Proofs.Conversion

namespace AnimatedGlyph

theorem mapM_eq_some_map {α β : Type} {f : α → Option β} {g : α → β} {items : List α}
    (h : ∀ item ∈ items, f item = some (g item)) : items.mapM f = some (items.map g) := by
  induction items with
  | nil => rfl
  | cons item rest ih =>
    have hrest := ih fun other hother => h other (List.mem_cons_of_mem item hother)
    rw [List.mapM_cons, h item List.mem_cons_self, hrest]
    rfl

namespace Checked

/-! ## Operations

All operations are read on the natural numbers that the words stand for, so that a
computation is followed step by step with `omega` at every check. -/

theorem mul64_ofNat {a b : Nat} (ha : a < 2 ^ 64) (hb : b < 2 ^ 64) (h : a * b < 2 ^ 64) :
    mul64 (UInt64.ofNat a) (UInt64.ofNat b) = some (UInt64.ofNat (a * b)) := by
  have hroom : (UInt64.ofNat a).toNat * (UInt64.ofNat b).toNat < UInt64.size := by
    rw [UInt64.toNat_ofNat_of_lt' ha, UInt64.toNat_ofNat_of_lt' hb]
    exact h
  rw [mul64, if_pos hroom, UInt64.ofNat_mul]

theorem add64_ofNat {a : Nat} (h : a + 1 < 2 ^ 64) :
    add64 (UInt64.ofNat a) 1 = some (UInt64.ofNat (a + 1)) := by
  have ha : a < 2 ^ 64 := by omega
  have hroom : (UInt64.ofNat a).toNat + (1 : UInt64).toNat < UInt64.size := by
    rw [UInt64.toNat_ofNat_of_lt' ha]
    exact h
  rw [add64, if_pos hroom, UInt64.ofNat_add]
  rfl

theorem max_ofNat {a b : Nat} (ha : a < 2 ^ 64) (hb : b < 2 ^ 64) :
    max (UInt64.ofNat a) (UInt64.ofNat b) = UInt64.ofNat (max a b) := by
  show (if UInt64.ofNat a ≤ UInt64.ofNat b then UInt64.ofNat b else UInt64.ofNat a) = _
  by_cases h : a ≤ b
  · rw [if_pos ((UInt64.ofNat_le_iff_le ha hb).mpr h), Nat.max_eq_right h]
  · rw [if_neg fun hle => h ((UInt64.ofNat_le_iff_le ha hb).mp hle), Nat.max_eq_left (by omega)]

theorem min_ofNat {a b : Nat} (ha : a < 2 ^ 64) (hb : b < 2 ^ 64) :
    min (UInt64.ofNat a) (UInt64.ofNat b) = UInt64.ofNat (min a b) := by
  show (if UInt64.ofNat a ≤ UInt64.ofNat b then UInt64.ofNat a else UInt64.ofNat b) = _
  by_cases h : a ≤ b
  · rw [if_pos ((UInt64.ofNat_le_iff_le ha hb).mpr h), Nat.min_eq_left h]
  · rw [if_neg fun hle => h ((UInt64.ofNat_le_iff_le ha hb).mp hle), Nat.min_eq_right (by omega)]

theorem narrow_ofNat {n : Nat} (h : n < 2 ^ 32) :
    narrow (UInt64.ofNat n) = some (UInt32.ofNat n) := by
  have hn : n < 2 ^ 64 := by omega
  have hroom : (UInt64.ofNat n).toNat < UInt32.size := by
    rw [UInt64.toNat_ofNat_of_lt' hn]
    exact h
  rw [narrow, if_pos hroom, UInt64.toUInt32_ofNat']

/-! ## Schedules -/

theorem window?_eq {words i : Nat} {total : UInt32} (hi : i < words) (hwords : words < 2 ^ 64)
    (hroom : words * total.toNat < 2 ^ 64) :
    window? (UInt64.ofNat words) total.toUInt64 (UInt64.ofNat i) =
      some ⟨UInt32.ofNat (wordStart words total.toNat i),
        UInt32.ofNat (wordStop words total.toNat i)⟩ := by
  have hframes : total.toNat < 2 ^ 32 := total.toNat_lt
  have htotal : total.toUInt64 = UInt64.ofNat total.toNat := by
    have hword : total.toNat < 2 ^ 64 := by omega
    apply UInt64.toNat_inj.mp
    rw [UInt32.toNat_toUInt64, UInt64.toNat_ofNat_of_lt' hword]
  have hproduct : (i + 1) * total.toNat < 2 ^ 64 :=
    Nat.lt_of_le_of_lt (Nat.mul_le_mul_right total.toNat hi) hroom
  have hbefore : i * total.toNat ≤ (i + 1) * total.toNat :=
    Nat.mul_le_mul_right total.toNat (Nat.le_succ i)
  have hstart : i * total.toNat / words = wordStart words total.toNat i := rfl
  have hnext : (i + 1) * total.toNat / words ≤ (i + 1) * total.toNat := Nat.div_le_self _ _
  have hstart_le : wordStart words total.toNat i ≤ total.toNat := wordStart_le hi
  have hstop_le : wordStop words total.toNat i ≤ total.toNat := wordStop_le words total.toNat i
  rw [window?, htotal, mul64_ofNat (by omega) (by omega) (by omega), add64_ofNat (by omega)]
  simp only [Option.bind_eq_bind, Option.bind_some]
  rw [mul64_ofNat (by omega) (by omega) hproduct, ← UInt64.ofNat_div (by omega) (by omega), hstart,
    add64_ofNat (by omega), narrow_ofNat (by omega)]
  simp only [Option.bind_some]
  rw [← UInt64.ofNat_div hproduct (by omega), max_ofNat (by omega) (by omega),
    min_ofNat (by omega) (by omega), ← wordStop, narrow_ofNat (by omega)]
  rfl

/-- Nothing is lost in a schedule as long as its words times its frames are a word. -/
theorem schedule?_eq {words : Nat} {total : UInt32} (hwords : words < 2 ^ 64)
    (hroom : words * total.toNat < 2 ^ 64) :
    schedule? words total = some (schedule words total) :=
  mapM_eq_some_map fun _ hi => window?_eq (List.mem_range.mp hi) hwords hroom

theorem schedule?_eq_of_lt {words : Nat} (total : UInt32) (hwords : words < 2 ^ 32) :
    schedule? words total = some (schedule words total) := by
  have hroom : words * total.toNat < 2 ^ 64 :=
    calc words * total.toNat < 2 ^ 32 * 2 ^ 32 := Nat.mul_lt_mul'' hwords total.toNat_lt
      _ = 2 ^ 64 := by decide
  exact schedule?_eq (by omega) hroom

end Checked

/-! ## Strokes -/

/-- The stroke of a word overflows exactly if it stops with the last frame that a word counts. -/
theorem Scene.toLottie_wordStroke_eq_none_iff {scene : Scene} {word : WordPlace × StrokePath} :
    (scene.wordStroke word).toLottie = none ↔
      scene.options.animated = true ∧ (scene.wordStroke word).window.stop.toNat + 1 = 2 ^ 32 := by
  have hframes := scene.settings.totalFrames.toNat_lt
  have hstop := word.1.toNat_stop_window scene.settings.totalFrames
  have hstart_lt : 0 < scene.settings.totalFrames.toNat →
      wordStart word.1.words scene.settings.totalFrames.toNat word.1.word <
        wordStop word.1.words scene.settings.totalFrames.toNat word.1.word :=
    fun htotal => wordStart_lt_wordStop htotal word.1.word_lt
  have hstart_le : wordStart word.1.words scene.settings.totalFrames.toNat word.1.word ≤
      scene.settings.totalFrames.toNat := wordStart_le word.1.word_lt
  have hstop_le := wordStop_le word.1.words scene.settings.totalFrames.toNat word.1.word
  have hfits : (word.1.window scene.settings.totalFrames).offFrame < 2 ^ 32 ↔
      ¬(word.1.window scene.settings.totalFrames).stop.toNat + 1 = 2 ^ 32 := by
    rw [WordPlace.offFrame_window, hstop]
    omega
  rw [← Option.not_isSome_iff_eq_none, isSome_toLottie_wordStroke_iff, hfits, Classical.not_imp,
    not_not]
  rfl

namespace GlyphCompiler

/-- No schedule of a text loses a number, and the stroke of a word has a Lottie form unless it
moves and stops with the last frame that a word counts.  So a text without a Lottie form is one
that moves on a timeline of all these frames. -/
theorem overflows_iff (compiler : GlyphCompiler) (options : CompileOptions) {text : String}
    (source : RandomSource)
    (short : ∀ line ∈ compiler.table.glyphLines text, line.length < 2 ^ 32) :
    let total := compiler.settings.totalFrames
    let answer := (compiler.compile options text source).1
    (∀ line ∈ compiler.table.glyphLines text,
        Checked.schedule? line.length total = some (schedule line.length total)) ∧
      (∀ document, answer = some document → ∀ layer ∈ document.strokeLayers,
        (layer.toLottie = none ↔
          options.animated = true ∧ layer.window.stop.toNat + 1 = 2 ^ 32)) ∧
      ((∃ document, answer = some document ∧ document.toLottie = none) ↔
        options.animated = true ∧ total.toNat + 1 = 2 ^ 32 ∧
          (compiler.table.glyphLines text).all List.isEmpty = false) := by
  intro total answer
  refine ⟨fun line hline => Checked.schedule?_eq_of_lt total (short line hline), ?_, ?_⟩
  · intro document hdocument layer hlayer
    obtain ⟨-, rfl⟩ := compile_eq_some_iff.mp hdocument
    obtain ⟨word, -, rfl⟩ := Scene.mem_strokeLayers.mp hlayer
    exact Scene.toLottie_wordStroke_eq_none_iff
  · rw [exists_toLottie_eq_none_iff, isSome_compile_iff]

/-- One frame less than there can be is enough. -/
theorem fits_before_last_frame :
    let compiler : GlyphCompiler :=
      ⟨.empty, { StickerSettings.standard with totalFrames := 4294967294 }⟩
    (∀ line ∈ compiler.table.glyphLines "01 12", line.length < 2 ^ 32) ∧
      Checked.schedule? 2 4294967294 = some [⟨0, 2147483647⟩, ⟨2147483647, 4294967294⟩] ∧
        ∃ document, (compiler.compile .standard "01 12" (.ofSeed 1)).1 = some document ∧
          document.toLottie.isSome = true := by
  intro compiler
  have short : ∀ line ∈ compiler.table.glyphLines "01 12", line.length < 2 ^ 32 := by
    decide +kernel
  have usable : (compiler.table.glyphLines "01 12").all List.isEmpty = false := by
    decide +kernel
  have htotal : ¬compiler.settings.totalFrames.toNat + 1 = 2 ^ 32 := by decide
  have hdocument := @compile_of_glyph compiler .standard "01 12" (.ofSeed 1) usable
  obtain ⟨hschedules, -, hoverflow⟩ := overflows_iff compiler .standard (.ofSeed 1) short
  have htwo : ∃ line ∈ compiler.table.glyphLines "01 12", line.length = 2 := by decide +kernel
  obtain ⟨line, hline, hlength⟩ := htwo
  have hschedule := hschedules line hline
  rw [hlength] at hschedule
  refine ⟨short, hschedule.trans (by decide +kernel), _, hdocument, ?_⟩
  by_contra hnone
  exact htotal (hoverflow.mp ⟨_, hdocument, Option.not_isSome_iff_eq_none.mp hnone⟩).2.1

/-- Settings with all the frames that a word counts pass their check, and with them the document
of one word has no Lottie form. -/
theorem overflows_on_longest_timeline :
    let compiler : GlyphCompiler :=
      ⟨.empty, { StickerSettings.standard with totalFrames := 4294967295 }⟩
    compiler.settings.check = .ok () ∧
      (∀ line ∈ compiler.table.glyphLines "01", line.length < 2 ^ 32) ∧
        ∃ document, (compiler.compile .standard "01" (.ofSeed 1)).1 = some document ∧
          document.strokeLayers.map Layer.window = [⟨0, 4294967295⟩] ∧
            document.toLottie = none := by
  intro compiler
  have hcompiled : (compiler.compile .standard "01" (.ofSeed 1)).1.any (fun document =>
      decide (document.strokeLayers.map Layer.window = [⟨0, 4294967295⟩] ∧
        document.toLottie.isNone = true)) = true := by
    decide +kernel
  obtain ⟨document, hdocument, hlayers⟩ := (Option.any_eq_true _ _).mp hcompiled
  obtain ⟨hwindows, hnone⟩ := of_decide_eq_true hlayers
  exact ⟨StickerSettings.check_standard (by decide), by decide +kernel, document, hdocument,
    hwindows, Option.isNone_iff_eq_none.mp hnone⟩

end GlyphCompiler
end AnimatedGlyph
