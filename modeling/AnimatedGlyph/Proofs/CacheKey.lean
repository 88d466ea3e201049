/-
Which requests share a key.

A key is that of a text into which everything goes that a sticker depends on, one part
after the other.  The parts after the user's text can be told from it, as the caption
flag is one of two words; the part before it cannot, as the text may start with the
words that mark a still sticker.

The main theorem says exactly what follows.  Two requests share a key if they have the
same words and options, or if one is still and the other moves and has the mark in
front of the same text.  In the first case their documents agree but for chance; in the
second they agree only if there is none.
-/
import AnimatedGlyph.Proofs.Jitter
import AnimatedGlyph.Proofs.Trimming
import AnimatedGlyph.Sticker.Request

namespace AnimatedGlyph

/-! ## The parts of a key -/

theorem append_boolText_inj {first second : String} {firstFlag secondFlag : Bool} :
    first ++ ":" ++ Json.boolText firstFlag = second ++ ":" ++ Json.boolText secondFlag ↔
      firstFlag = secondFlag ∧ first = second := by
  constructor
  · intro h
    have hreverse := congrArg (fun text => text.toList.reverse) h
    cases firstFlag <;> cases secondFlag
    case false.true | true.false => simp [Json.boolText] at hreverse
    all_goals
      rw [String.append_left_inj, String.append_left_inj] at h
      exact ⟨rfl, h⟩
  · rintro ⟨rfl, rfl⟩
    rfl

theorem keyText_eq_iff (first second : CompileRequest) (engine : String) :
    keyText first.text first.options engine = keyText second.text second.options engine ↔
      first.options.showCaption = second.options.showCaption ∧
        keyPrefix first.options ++ Text.trim first.text =
          keyPrefix second.options ++ Text.trim second.text := by
  rw [keyText, keyText, String.append_left_inj, String.append_left_inj, append_boolText_inj]

theorem keyPrefix_append_eq_iff (first second : CompileOptions) (one other : String) :
    keyPrefix first ++ one = keyPrefix second ++ other ↔
      first.animated = second.animated ∧ one = other ∨
        first.animated = false ∧ second.animated = true ∧ other = "static:" ++ one ∨
          first.animated = true ∧ second.animated = false ∧ one = "static:" ++ other := by
  rw [keyPrefix, keyPrefix]
  cases first.animated <;> cases second.animated <;> simp [eq_comm]

theorem options_eq {first second : CompileOptions} (hanimated : first.animated = second.animated)
    (hcaption : first.showCaption = second.showCaption) : first = second := by
  cases first
  cases second
  rw [CompileOptions.mk.injEq]
  exact ⟨hanimated, hcaption⟩

/-! ## Requests with the same key -/

namespace GlyphCompiler

theorem compileStill_of_trim_eq {compiler : GlyphCompiler} (options : CompileOptions)
    {first second : String} (h : Text.trim first = Text.trim second) :
    compiler.compileStill options first = compiler.compileStill options second := by
  refine compileStill_congr options ?_
  calc compiler.table.glyphLines first
      = compiler.table.glyphLines (Text.trim first) := (compiler.table.glyphLines_trim first).symm
    _ = compiler.table.glyphLines (Text.trim second) := by rw [h]
    _ = compiler.table.glyphLines second := compiler.table.glyphLines_trim second

/-- Two requests share a key exactly if their captions agree and either they move alike
and have the same trimmed text, or one is still and the other moves and has the mark of
still stickers in front of the same text.  If they share a key their answers agree up to
the tangents at revisits exactly if they move alike or both have no answer. -/
theorem keyText_sound (compiler : GlyphCompiler) (engine : String)
    (firstChance secondChance : RandomSource) (first second : CompileRequest) :
    (keyText first.text first.options engine = keyText second.text second.options engine ↔
      first.options.showCaption = second.options.showCaption ∧
        (first.options.animated = second.options.animated ∧
            Text.trim first.text = Text.trim second.text ∨
          first.options.animated = false ∧ second.options.animated = true ∧
            Text.trim second.text = "static:" ++ Text.trim first.text ∨
          first.options.animated = true ∧ second.options.animated = false ∧
            Text.trim first.text = "static:" ++ Text.trim second.text)) ∧
      (keyText first.text first.options engine = keyText second.text second.options engine →
        ((compiler.compileRequest firstChance first).map AnimationDocument.settled =
            (compiler.compileRequest secondChance second).map AnimationDocument.settled ↔
          first.options.animated = second.options.animated ∨
            compiler.compileRequest firstChance first = none ∧
              compiler.compileRequest secondChance second = none)) := by
  have hkey : keyText first.text first.options engine =
        keyText second.text second.options engine ↔ _ :=
    (keyText_eq_iff first second engine).trans
      (and_congr_right fun _ => keyPrefix_append_eq_iff _ _ _ _)
  refine ⟨hkey, ?_⟩
  intro hshared
  obtain ⟨hcaption, hparts⟩ := hkey.mp hshared
  have hnone : ∀ chance request, compiler.compileRequest chance request = none ↔
      compiler.compileStill request.options request.text = none := by
    intro chance request
    rw [← compiler.compileRequest_settled chance request, Option.map_eq_none_iff]
  rw [compileRequest_settled, compileRequest_settled, hnone, hnone]
  constructor
  · intro hagree
    cases hsecond : compiler.compileStill second.options second.text with
    | none => exact .inr ⟨hagree.trans hsecond, rfl⟩
    | some document => exact .inl (animated_of_compileStill (hagree.trans hsecond) hsecond)
  · rintro (hanimated | ⟨hfirst, hsecond⟩)
    · have hoptions : first.options = second.options := options_eq hanimated hcaption
      have htrim : Text.trim first.text = Text.trim second.text := by
        rcases hparts with ⟨-, h⟩ | ⟨hstill, hmoves, -⟩ | ⟨hmoves, hstill, -⟩
        · exact h
        · rw [hanimated, hmoves] at hstill
          cases hstill
        · rw [hanimated, hstill] at hmoves
          cases hmoves
      rw [hoptions]
      exact compileStill_of_trim_eq second.options htrim
    · rw [hfirst, hsecond]

/-- The same words with other blanks around them and other tangents at a revisit. -/
theorem keyText_sound_with_blanks :
    let compiler : GlyphCompiler := ⟨.empty, .standard⟩
    let first : CompileRequest := ⟨" 0101\n", .standard, some 1⟩
    let second : CompileRequest := ⟨"0101", .standard, some 2⟩
    keyText first.text first.options "1.0.0" = keyText second.text second.options "1.0.0" ∧
      (compiler.compileRequest (.ofSeed 0) first).map AnimationDocument.settled =
        (compiler.compileRequest (.ofSeed 0) second).map AnimationDocument.settled := by
  intro compiler first second
  have hkey : keyText first.text first.options "1.0.0" =
      keyText second.text second.options "1.0.0" := by
    decide +kernel
  obtain ⟨-, hsound⟩ := keyText_sound compiler "1.0.0" (.ofSeed 0) (.ofSeed 0) first second
  exact ⟨hkey, (hsound hkey).mpr (.inl rfl)⟩

/-- A still sticker of two words and a moving one of only the second share a key. -/
theorem still_shares_key_with_moving :
    let compiler : GlyphCompiler := ⟨.empty, .standard⟩
    let first : CompileRequest := ⟨"01 23", ⟨false, true⟩, some 1⟩
    let second : CompileRequest := ⟨"static:01 23", ⟨true, true⟩, some 1⟩
    keyText first.text first.options "1.0.0" = keyText second.text second.options "1.0.0" ∧
      (compiler.table.glyphLines first.text).map List.length = [2] ∧
        (compiler.table.glyphLines second.text).map List.length = [1] ∧
          (compiler.compileRequest (.ofSeed 0) first).map AnimationDocument.settled ≠
            (compiler.compileRequest (.ofSeed 0) second).map AnimationDocument.settled := by
  intro compiler first second
  have hfirst : (compiler.compileRequest (.ofSeed 0) first).isSome = true := by decide +kernel
  refine ⟨?_, ?_, ?_, ?_⟩
  · decide +kernel
  · decide +kernel
  · decide +kernel
  · intro hagree
    rw [compileRequest_settled, compileRequest_settled] at hagree
    obtain ⟨document, hdocument⟩ := Option.isSome_iff_exists.mp hfirst
    have hstill := compiler.compileRequest_settled (.ofSeed 0) first
    rw [hdocument] at hstill
    exact Bool.false_ne_true
      (animated_of_compileStill hstill.symm (hagree.symm.trans hstill.symm))

end GlyphCompiler
end AnimatedGlyph
