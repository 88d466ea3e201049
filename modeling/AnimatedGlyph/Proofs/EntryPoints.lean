/-
The ways into the compiler.

A text can be reported on, compiled, compiled as a request, and made a sticker of.  Each of
these looks at the report by itself, so that they could come to differ; `entryPoints_agree` says
that they do not.  They accept the same texts, which are those whose report has no error, and
they make the same document of them.  A sticker describes that document: its hash, what is in
its payload, and the report and key that it carries.  The one thing that compiling does without is
the Lottie form, so that a document without one has no sticker.
-/
import AnimatedGlyph.Proofs.Conversion
import AnimatedGlyph.Proofs.Jitter
import AnimatedGlyph.Proofs.Packing
import AnimatedGlyph.Sticker.Manifest

namespace AnimatedGlyph

/-! ## Reports and their errors -/

theorem severity_of_resolveToken {table : GlyphTable} {token : String} {violation : Violation}
    (h : resolveToken table token = .error violation) : violation.severity = .warning := by
  rw [resolveToken] at h
  split at h
  · cases h
    rfl
  · split at h
    · cases h
    · rw [resolveCode] at h
      split at h
      · cases h
      · cases h
        rfl

theorem severity_of_mem_violations {table : GlyphTable} {text : String} {line : LineReport}
    (hline : line ∈ (report table text).lines) {violation : Violation}
    (h : violation ∈ line.violations) : violation.severity = .warning := by
  rw [report] at hline
  obtain ⟨index, hindex, rfl⟩ := List.mem_mapIdx.mp hline
  rw [violations_reportLine] at h
  obtain ⟨token, -, hviolation⟩ := List.mem_filterMap.mp h
  cases hresolved : resolveToken table token with
  | ok glyph =>
    rw [hresolved] at hviolation
    cases hviolation
  | error found =>
    rw [hresolved] at hviolation
    cases hviolation
    exact severity_of_resolveToken hresolved

/-- The violations of tokens are warnings, so that a report has an error only where nothing of
the text is of use. -/
theorem hasErrors_report (table : GlyphTable) (text : String) :
    (report table text).hasErrors = !(report table text).isValid := by
  have hlines : ((report table text).lines.flatMap LineReport.violations).any
      (fun violation => violation.severity == .error) = false := by
    refine List.any_eq_false.mpr fun violation hviolation => ?_
    obtain ⟨line, hline, hfound⟩ := List.mem_flatMap.mp hviolation
    rw [severity_of_mem_violations hline hfound]
    decide
  rw [Report.hasErrors, violations_report]
  cases (report table text).isValid with
  | true => exact hlines
  | false =>
    rw [if_neg Bool.false_ne_true, List.any_append, hlines]
    rfl

/-- The code of a glyph makes a text valid, whatever names there are. -/
theorem isValid_of_code (table : GlyphTable) {text line token : String}
    (hline : line ∈ Text.lines text) (htoken : token ∈ Text.tokens line)
    (hascii : (Text.asciiPart token).isEmpty = false)
    (hcode : (GlyphCode.parse (Text.asciiPart token)).isOk = true) :
    (report table text).isValid = true := by
  have hresolved : (table.glyphOf? token).isSome = true := by
    rw [GlyphTable.glyphOf?, resolveToken]
    simp only [hascii, Bool.false_eq_true, if_false]
    cases resolveName table (Text.asciiPart token) with
    | ok glyph => rfl
    | error violation =>
      rw [resolveCode]
      cases hparse : GlyphCode.parse (Text.asciiPart token) with
      | ok code => rfl
      | error cause =>
        rw [hparse] at hcode
        cases hcode
  rw [isValid_report, Bool.not_eq_true', Bool.eq_false_iff]
  intro hnone
  rw [(table.all_isEmpty_glyphLines text).mp hnone line hline token htoken] at hresolved
  cases hresolved

/-! ## Stickers and their documents -/

/-- The sticker carries the report and what belongs to the document as a JSON value: its hash,
and a payload of the size given in which its text is packed. -/
structure Sticker.Describes (sticker : Sticker) (request : CompileRequest) (validation : Report)
    (document : AnimationDocument) : Prop where
  validation : sticker.validation = validation
  packed : ∃ value bytes, document.toJson = some value ∧
    sticker.documentHash = AnimatedGlyph.documentHash value ∧
    Bytes.ofBase64? (Bytes.base64 sticker.payload) = some bytes ∧
    bytes.length = sticker.size ∧ Payload.gunzip? bytes = some (textBytes value.compact)
  cacheKey : sticker.cacheKey = stickerKey request.text request.options Engine.versionText

theorem AnimationDocument.toLottie_ne_none {document : AnimationDocument} {value : Json}
    (h : document.toJson = some value) : document.toLottie ≠ none := by
  intro hnone
  rw [toJson, hnone] at h
  cases h

theorem Sticker.Describes.toLottie_ne_none {sticker : Sticker} {request : CompileRequest}
    {validation : Report} {document : AnimationDocument}
    (h : sticker.Describes request validation document) : document.toLottie ≠ none := by
  obtain ⟨value, bytes, hvalue, -⟩ := h.packed
  exact AnimationDocument.toLottie_ne_none hvalue

/-- A sticker is made of the Lottie form of a document. -/
theorem Sticker.ofDocument_eq_some_iff {stamp : Stamp} {request : CompileRequest}
    {validation : Report} {document : AnimationDocument} {sticker : Sticker} :
    Sticker.ofDocument stamp request validation document = some sticker ↔
      ∃ animation, document.toLottie = some animation ∧ sticker = {
        stamp := stamp
        engineVersion := Engine.versionText
        cacheKey := stickerKey request.text request.options Engine.versionText
        documentHash := AnimatedGlyph.documentHash animation.toJson
        mediaType := payloadMediaType
        validation := validation
        payload := Payload.gzip (textBytes animation.toJson.compact) } := by
  simp only [ofDocument, AnimationDocument.payload, AnimationDocument.text,
    AnimationDocument.hash, AnimationDocument.toJson]
  cases document.toLottie with
  | none => exact ⟨nofun, nofun⟩
  | some animation =>
    constructor
    · rintro ⟨⟩
      exact ⟨animation, rfl, rfl⟩
    · rintro ⟨_, ⟨⟩, rfl⟩
      rfl

theorem Sticker.describes_of_ofDocument {stamp : Stamp} {request : CompileRequest}
    {validation : Report} {document : AnimationDocument} {sticker : Sticker}
    (h : Sticker.ofDocument stamp request validation document = some sticker) :
    sticker.Describes request validation document := by
  obtain ⟨animation, hanimation, rfl⟩ := ofDocument_eq_some_iff.mp h
  have hvalue : document.toJson = some animation.toJson := by
    rw [AnimationDocument.toJson, hanimation]
    rfl
  exact ⟨rfl, ⟨_, _, hvalue, rfl, Bytes.ofBase64?_base64 _, rfl, Payload.gunzip?_gzip _⟩, rfl⟩

theorem Sticker.stamp_of_ofDocument {stamp : Stamp} {request : CompileRequest}
    {validation : Report} {document : AnimationDocument} {sticker : Sticker}
    (h : Sticker.ofDocument stamp request validation document = some sticker) :
    sticker.stamp = stamp := by
  obtain ⟨animation, -, rfl⟩ := ofDocument_eq_some_iff.mp h
  rfl

theorem Sticker.ofDocument_eq_none_iff {stamp : Stamp} {request : CompileRequest}
    {validation : Report} {document : AnimationDocument} :
    Sticker.ofDocument stamp request validation document = none ↔ document.toLottie = none := by
  simp only [Option.eq_none_iff_forall_ne_some, ne_eq, ofDocument_eq_some_iff, not_exists, not_and]
  exact ⟨fun h animation hanimation => h _ animation hanimation rfl,
    fun h _ animation hanimation _ => h animation hanimation⟩

namespace GlyphCompiler

theorem compileChecked_eq (compiler : GlyphCompiler) (chance : RandomSource)
    (request : CompileRequest) :
    compiler.compileChecked chance request =
      (compiler.compileRequest chance request).map fun document =>
        (compiler.report request.text, document) := by
  rw [compileRequest, compileChecked]
  cases (compiler.report request.text).isValid <;> rfl

theorem compileSticker_of_none {compiler : GlyphCompiler} {chance : RandomSource}
    {request : CompileRequest} (stamp : Stamp)
    (h : compiler.compileRequest chance request = none) :
    compiler.compileSticker stamp chance request = some none := by
  rw [compileSticker, compileChecked_eq, h]
  rfl

/-- The sticker of a request is made of its document. -/
theorem compileSticker_of_some {compiler : GlyphCompiler} {chance : RandomSource}
    {request : CompileRequest} {document : AnimationDocument} (stamp : Stamp)
    (h : compiler.compileRequest chance request = some document) :
    compiler.compileSticker stamp chance request =
      (Sticker.ofDocument stamp request (compiler.report request.text) document).map some := by
  rw [compileSticker, compileChecked_eq, h]
  rfl

theorem compileSticker_eq_some_none_iff {compiler : GlyphCompiler} {stamp : Stamp}
    {chance : RandomSource} {request : CompileRequest} :
    compiler.compileSticker stamp chance request = some none ↔
      compiler.compileRequest chance request = none := by
  cases hrequest : compiler.compileRequest chance request with
  | none => simp [compileSticker_of_none stamp hrequest]
  | some document => simp [compileSticker_of_some stamp hrequest]

theorem compileSticker_eq_some_some_iff {compiler : GlyphCompiler} {stamp : Stamp}
    {chance : RandomSource} {request : CompileRequest} {sticker : Sticker} :
    compiler.compileSticker stamp chance request = some (some sticker) ↔
      ∃ document, compiler.compileRequest chance request = some document ∧
        Sticker.ofDocument stamp request (compiler.report request.text) document =
          some sticker := by
  cases hrequest : compiler.compileRequest chance request with
  | none => simp [compileSticker_of_none stamp hrequest]
  | some document => simp [compileSticker_of_some stamp hrequest]

/-- A sticker is not made exactly if the document has no Lottie form. -/
theorem compileSticker_eq_none_iff {compiler : GlyphCompiler} {stamp : Stamp}
    {chance : RandomSource} {request : CompileRequest} :
    compiler.compileSticker stamp chance request = none ↔
      ∃ document, compiler.compileRequest chance request = some document ∧
        document.toLottie = none := by
  cases hrequest : compiler.compileRequest chance request with
  | none => simp [compileSticker_of_none stamp hrequest]
  | some document =>
    simp [compileSticker_of_some stamp hrequest, Sticker.ofDocument_eq_none_iff]

/-! ## Texts that are accepted -/

theorem isSome_compile (compiler : GlyphCompiler) (options : CompileOptions) (text : String)
    (source : RandomSource) :
    (compiler.compile options text source).1.isSome = (compiler.report text).isValid := by
  rw [compile]
  cases (compiler.report text).isValid <;> rfl

theorem isSome_compileRequest (compiler : GlyphCompiler) (chance : RandomSource)
    (request : CompileRequest) :
    (compiler.compileRequest chance request).isSome = (compiler.report request.text).isValid := by
  rw [compileRequest_eq, isSome_compile]

theorem isValid_of_compileRequest {compiler : GlyphCompiler} {chance : RandomSource}
    {request : CompileRequest} {document : AnimationDocument}
    (h : compiler.compileRequest chance request = some document) :
    (compiler.report request.text).isValid = true := by
  rw [← compiler.isSome_compileRequest chance request, h]
  rfl

/-! ## Agreement -/

/-- The answer for a text is what compiling it from the source of the seed gives.  Without a
seed it is what compiling it from any source gives, but for the tangents at revisits. -/
def Follows (compiler : GlyphCompiler) (options : CompileOptions) (text : String)
    (seed : Option UInt64) (answer : Option AnimationDocument) : Prop :=
  match seed with
  | some seed => answer = (compiler.compile options text (.ofSeed seed)).1
  | none => ∀ source, answer.map AnimationDocument.settled =
      (compiler.compile options text source).1.map AnimationDocument.settled

theorem follows_compileRequest (compiler : GlyphCompiler) (options : CompileOptions)
    (text : String) (seed : Option UInt64) (chance : RandomSource) :
    compiler.Follows options text seed
      (compiler.compileRequest chance ⟨text, options, seed⟩) := by
  cases seed with
  | some seed => exact compiler.compileRequest_eq chance ⟨text, options, some seed⟩
  | none =>
    intro source
    rw [compileRequest_settled, compile_settled]

theorem compileSticker_overflows_iff {compiler : GlyphCompiler} {stamp : Stamp}
    {chance : RandomSource} {request : CompileRequest} :
    compiler.compileSticker stamp chance request = none ↔
      request.options.animated = true ∧
        compiler.settings.totalFrames.toNat + 1 = 2 ^ 32 ∧
          (compiler.report request.text).isValid = true := by
  rw [compileSticker_eq_none_iff, compileRequest_eq, exists_toLottie_eq_none_iff, isSome_compile]

/-- A request gives the document that compiling gives, and a sticker is made of that document,
unless its opacity runs past the last frame that a word counts, where there is no sticker.  Both
accept a text exactly if it is valid, which is when its report has no errors. -/
theorem entryPoints_agree (compiler : GlyphCompiler) (options : CompileOptions) (text : String)
    (seed : Option UInt64) (stamp : Stamp) (chance : RandomSource) :
    let request : CompileRequest := ⟨text, options, seed⟩
    let validation := compiler.report text
    let answer := compiler.compileRequest chance request
    let sticker := compiler.compileSticker stamp chance request
    compiler.Follows options text seed answer ∧
      (sticker = some none ↔ answer = none) ∧
      (∀ made, sticker = some (some made) →
        ∃ document, answer = some document ∧ made.Describes request validation document) ∧
      (sticker = none ↔ options.animated = true ∧
        compiler.settings.totalFrames.toNat + 1 = 2 ^ 32 ∧ validation.isValid = true) ∧
      (∀ source, (compiler.compile options text source).1.isSome = validation.isValid) ∧
      answer.isSome = validation.isValid ∧
      (validation.isValid = true ↔ validation.hasErrors = false) := by
  intro request validation answer sticker
  refine ⟨compiler.follows_compileRequest options text seed chance,
    compileSticker_eq_some_none_iff, ?_, compileSticker_overflows_iff,
    compiler.isSome_compile options text, compiler.isSome_compileRequest chance request, ?_⟩
  · intro made hmade
    obtain ⟨document, hdocument, hsticker⟩ := compileSticker_eq_some_some_iff.mp hmade
    exact ⟨document, hdocument, Sticker.describes_of_ofDocument hsticker⟩
  · have herrors : validation.hasErrors = !validation.isValid :=
      hasErrors_report compiler.table text
    rw [herrors, Bool.not_eq_false']

/-- A text that is valid and has a document, but no sticker: the timeline has all the frames
that a word counts. -/
theorem no_sticker_on_longest_timeline :
    let compiler : GlyphCompiler :=
      ⟨.empty, { StickerSettings.standard with totalFrames := 4294967295 }⟩
    compiler.settings.check = .ok () ∧ (compiler.report "01").isValid = true ∧
      ∀ stamp chance, compiler.compileSticker stamp chance ⟨"01", .standard, some 1⟩ = none := by
  intro compiler
  have hvalid : (compiler.report "01").isValid = true := by decide +kernel
  exact ⟨StickerSettings.check_standard (by decide), hvalid, fun _ _ =>
    compileSticker_overflows_iff.mpr ⟨rfl, by decide, hvalid⟩⟩

end GlyphCompiler
end AnimatedGlyph
