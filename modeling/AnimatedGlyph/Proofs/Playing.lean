/-
Stickers that play.

A manifest hands out its payload in base 64, and a player has to get the animation of the
document back from it.  Unpacking always succeeds, and the text inside is nested no deeper
than a reader allows, so that only floats that are no numbers can stand in the way: they are
written as `null`.  Settings are not checked for this.  `plays_iff` says exactly which stickers
play, that a player refuses every other one, and that moderate settings are always safe.
-/
import AnimatedGlyph.Proofs.CanvasRange
import AnimatedGlyph.Proofs.EntryPoints
import AnimatedGlyph.Proofs.Nesting
import AnimatedGlyph.Proofs.RoundTrip

namespace AnimatedGlyph

/-- The payload in the manifest is read as the animation of the document, and the hash of what
was read is the one in the manifest. -/
def Sticker.PlaysAs (sticker : Sticker) (document : AnimationDocument) : Prop :=
  ∃ payload animation, Bytes.ofBase64? (Bytes.base64 sticker.payload) = some payload ∧
    readPayload payload = .ok animation ∧ document.toLottie = some animation ∧
      AnimatedGlyph.documentHash animation.toJson = sticker.documentHash

namespace AnimationDocument

theorem isFinite_stretch {layer : Layer} {wire : Lottie.Layer} (h : layer.toLottie = some wire)
    {x : Float} (hx : wire.stretch = some x) : x.isFinite = true := by
  obtain ⟨name, window, kind⟩ := layer
  cases kind with
  | caption letter =>
    cases h
    cases hx
    decide +kernel
  | stroke stroke =>
    obtain ⟨_, -, rfl⟩ := (Layer.toLottie_stroke_eq_some_iff rfl).mp h
    cases hx
  | grid nodes => cases h; cases hx
  | background plain => cases h; cases hx

theorem restores_toLottie {document : AnimationDocument} {animation : Lottie.Animation}
    (h : document.toLottie = some animation) :
    Json.Restores Lottie.Animation.decode animation.toJson animation.floats animation := by
  refine animation.restores fun wire hwire x hx => ?_
  obtain ⟨layer, -, hlayer⟩ := exists_of_mem_layers h hwire
  exact isFinite_stretch hlayer hx

/-- The floats of an animation decide whether its payload is read. -/
theorem readPayload_gzip {document : AnimationDocument} {animation : Lottie.Animation}
    (h : document.toLottie = some animation) (exact : Json.FloatsReadBack animation.floats) :
    readPayload (Payload.gzip (textBytes animation.toJson.compact)) =
      if animation.floats.all Float.isFinite then .ok animation
      else .error (.unreadable .mismatch) := by
  have hread := (restores_toLottie h).ofText exact (depth_toLottie_le h)
  rw [readPayload, Payload.gunzip?_gzip]
  show (Json.ofText _ (textBytes animation.toJson.compact)).mapError _ = _
  rw [hread]
  cases animation.floats.all Float.isFinite <;> rfl

end AnimationDocument

namespace GlyphCompiler

/-- A sticker is made from the Lottie form of the document of its request. -/
theorem animation_of_compileSticker {compiler : GlyphCompiler} {stamp : Stamp}
    {chance : RandomSource} {request : CompileRequest} {sticker : Sticker}
    (h : compiler.compileSticker stamp chance request = some (some sticker)) :
    ∃ document animation, compiler.compileRequest chance request = some document ∧
      document.toLottie = some animation ∧
      sticker.payload = Payload.gzip (textBytes animation.toJson.compact) ∧
      sticker.documentHash = documentHash animation.toJson := by
  obtain ⟨document, hdocument, hsticker⟩ := compileSticker_eq_some_some_iff.mp h
  obtain ⟨animation, hanimation, rfl⟩ := Sticker.ofDocument_eq_some_iff.mp hsticker
  exact ⟨document, animation, hdocument, hanimation, rfl, rfl⟩

theorem exists_sticker {compiler : GlyphCompiler} {chance : RandomSource}
    {request : CompileRequest} {document : AnimationDocument} {animation : Lottie.Animation}
    (stamp : Stamp) (hdocument : compiler.compileRequest chance request = some document)
    (hanimation : document.toLottie = some animation) :
    ∃ sticker, compiler.compileSticker stamp chance request = some (some sticker) :=
  ⟨_, compileSticker_eq_some_some_iff.mpr
    ⟨document, hdocument, Sticker.ofDocument_eq_some_iff.mpr ⟨animation, hanimation, rfl⟩⟩⟩

theorem document_of_compileRequest {compiler : GlyphCompiler} {chance : RandomSource}
    {request : CompileRequest} {document : AnimationDocument}
    (h : compiler.compileRequest chance request = some document) :
    let scene := compiler.scene request.options request.text
    let places := wordPlaces (compiler.table.glyphLines request.text)
    document = scene.document (scene.wordStack
      (drawWords scene.points places (sourceOf chance request)).1 ++ scene.ground) := by
  rw [compileRequest_eq] at h
  exact (compile_eq_some_iff.mp h).2

/-- A sticker plays if and only if all places on its canvas are numbers.  Otherwise its payload
is refused.  The third part is a margin for the settings that leaves room for the places of
every word. -/
theorem plays_iff (compiler : GlyphCompiler) (stamp : Stamp) (chance : RandomSource)
    (request : CompileRequest) {sticker : Sticker}
    (hsticker : compiler.compileSticker stamp chance request = some (some sticker))
    (exact : ∀ document animation, compiler.compileRequest chance request = some document →
      document.toLottie = some animation → Json.FloatsReadBack animation.floats) :
    ∃ document, compiler.compileRequest chance request = some document ∧
      (sticker.PlaysAs document ↔ ∀ p ∈ document.places, AllFinite p.floats) ∧
      ((¬∀ p ∈ document.places, AllFinite p.floats) →
        (Bytes.ofBase64? (Bytes.base64 sticker.payload)).map readPayload =
          some (.error (.unreadable .mismatch))) ∧
      ∀ limit, 0 ≤ limit → limit ≤ 840 → compiler.settings.Moderate limit →
        (∀ place ∈ wordPlaces (compiler.table.glyphLines request.text),
          limit + 2 * place.glyph.label.toList.length ≤ 840) →
            sticker.PlaysAs document := by
  obtain ⟨document, animation, hdocument, hanimation, hpayload, hhash⟩ :=
    animation_of_compileSticker hsticker
  have hread := AnimationDocument.readPayload_gzip hanimation
    (exact document animation hdocument hanimation)
  have hbytes := Bytes.ofBase64?_base64 sticker.payload
  have hform := document_of_compileRequest hdocument
  have hfinite : animation.floats.all Float.isFinite = true ↔
      ∀ p ∈ document.places, AllFinite p.floats := by
    have hlottie := hanimation
    rw [hform] at hlottie
    rw [List.all_eq_true, hform]
    exact Scene.allFinite_document_iff hlottie
  rw [← hpayload] at hread
  have hplays : (∀ p ∈ document.places, AllFinite p.floats) → sticker.PlaysAs document := by
    intro hplaces
    rw [if_pos (hfinite.mpr hplaces)] at hread
    exact ⟨sticker.payload, animation, hbytes, hread, hanimation, hhash.symm⟩
  refine ⟨document, hdocument, ⟨?_, hplays⟩, ?_, ?_⟩
  · rintro ⟨payload, other, hpacked, hother, -⟩
    rw [hbytes] at hpacked
    cases hpacked
    rw [hread] at hother
    by_cases hall : animation.floats.all Float.isFinite = true
    · exact hfinite.mp hall
    · rw [if_neg hall] at hother
      cases hother
  · intro hplaces
    rw [if_neg fun hall => hplaces (hfinite.mp hall)] at hread
    rw [hbytes, Option.map_some, hread]
  · intro limit hfrom hto hmoderate hlabels
    refine hplays ?_
    rw [hform]
    exact Scene.allFinite_places_of_moderate hmoderate hfrom hto hlabels _

/-- A moving stroke. -/
theorem plays_at_standard_settings :
    let compiler : GlyphCompiler := ⟨.empty, .standard⟩
    let request : CompileRequest := ⟨"01", ⟨true, false⟩, some 1⟩
    ∃ sticker document,
      compiler.compileSticker ⟨"", ""⟩ (.ofSeed 0) request = some (some sticker) ∧
        compiler.compileRequest (.ofSeed 0) request = some document ∧
          sticker.PlaysAs document := by
  intro compiler request
  have hfloats : ((compiler.compileRequest (.ofSeed 0) request).any fun document =>
      document.toLottie.any fun animation =>
        decide (Json.FloatsReadBack animation.floats ∧
          ∀ p ∈ document.places, AllFinite p.floats)) = true := by
    decide +kernel
  clear_value compiler request
  obtain ⟨document, hdocument, hrest⟩ := (Option.any_eq_true _ _).mp hfloats
  obtain ⟨animation, hanimation, hnumbers⟩ := (Option.any_eq_true _ _).mp hrest
  obtain ⟨exact, hplaces⟩ := of_decide_eq_true hnumbers
  obtain ⟨sticker, hsticker⟩ := exists_sticker ⟨"", ""⟩ hdocument hanimation
  have hreadBack : ∀ other result, compiler.compileRequest (.ofSeed 0) request = some other →
      other.toLottie = some result → Json.FloatsReadBack result.floats := by
    intro other result hother hresult
    rw [hdocument] at hother
    cases hother
    rw [hanimation] at hresult
    cases hresult
    exact exact
  obtain ⟨other, hother, hplays, -⟩ :=
    plays_iff compiler ⟨"", ""⟩ (.ofSeed 0) request hsticker hreadBack
  rw [hdocument] at hother
  cases hother
  exact ⟨sticker, document, hsticker, hdocument, hplays.mpr hplaces⟩

/-- The settings pass their check, but a hundred times the centre is no number. -/
theorem refused_with_far_origin :
    let settings : StickerSettings := { StickerSettings.standard with
      canvas := { Canvas.standard with originX := 1e308 } }
    let compiler : GlyphCompiler := ⟨.empty, settings⟩
    let request : CompileRequest := ⟨"01", ⟨false, false⟩, some 1⟩
    settings.check = .ok () ∧ settings.totalFrames.toNat + 1 < UInt32.size ∧
      ∃ sticker, compiler.compileSticker ⟨"", ""⟩ (.ofSeed 0) request = some (some sticker) ∧
        (Bytes.ofBase64? (Bytes.base64 sticker.payload)).map readPayload =
          some (.error (.unreadable .mismatch)) := by
  intro settings compiler request
  have hfloats : ((compiler.compileRequest (.ofSeed 0) request).any fun document =>
      document.toLottie.any fun animation =>
        decide (Json.FloatsReadBack animation.floats ∧
          ¬animation.floats.all Float.isFinite = true)) = true := by
    decide +kernel
  obtain ⟨document, hdocument, hrest⟩ := (Option.any_eq_true _ _).mp hfloats
  obtain ⟨animation, hanimation, hnumbers⟩ := (Option.any_eq_true _ _).mp hrest
  obtain ⟨exact, hinfinite⟩ := of_decide_eq_true hnumbers
  obtain ⟨sticker, hsticker⟩ := exists_sticker ⟨"", ""⟩ hdocument hanimation
  obtain ⟨other, result, hother, hresult, hpayload, -⟩ := animation_of_compileSticker hsticker
  rw [hdocument] at hother
  cases hother
  rw [hanimation] at hresult
  cases hresult
  have hcheck : settings.check = .ok () := by
    have hframes : ¬settings.totalFrames < 2 := by decide
    have hsize : ¬(settings.width = 0 ∨ settings.height = 0) := by decide
    have hscale : ¬settings.canvas.scale ≤ 0.0 := by decide
    rw [StickerSettings.check, if_neg hframes, if_neg hsize, if_neg hscale]
  refine ⟨hcheck, by decide, sticker, hsticker, ?_⟩
  rw [Bytes.ofBase64?_base64, Option.map_some, hpayload,
    AnimationDocument.readPayload_gzip hanimation exact, if_neg hinfinite]

end GlyphCompiler
end AnimatedGlyph
