/-
Animations and their texts.

An animation whose floats are numbers is read from the text that is written for it, as
far as the reader is exact on its floats.  That is no more than a reader can ask for, since
an accepted text has no other floats: reading a text, writing what was read and reading
that again changes nothing.  The reader need not know that it reads an animation; whoever
takes the text for any JSON value gets the value that was written, with the same canonical
text and the same hash.
-/
import AnimatedGlyph.Proofs.Accepting
import AnimatedGlyph.Sticker.Payload

namespace AnimatedGlyph
namespace Json

/-! ## Doubles that read back -/

theorem eq_sound_iff {α : Type} {answer : Leaf α × Option (List UInt8)} {a : α} :
    answer.1.value.toOption = some a ∧ answer.1.passed = none ∧ answer.2 = some [] ↔
      answer = (.sound a, some []) := by
  obtain ⟨⟨value, passed⟩, rest⟩ := answer
  cases value with
  | error fault => exact ⟨nofun, nofun⟩
  | ok b => simp [Leaf.sound, Except.toOption, and_assoc]

instance (n : JsonNumber) : Decidable n.ReadsBack :=
  decidable_of_iff _ eq_sound_iff

/-- The numbers among some floats read back. -/
def FloatsReadBack (floats : List Float) : Prop :=
  ∀ x ∈ floats, ∀ finite : x.isFinite = true, (JsonNumber.double ⟨x, finite⟩).ReadsBack

instance (floats : List Float) : Decidable (FloatsReadBack floats) :=
  inferInstanceAs (Decidable (∀ x ∈ floats, ∀ finite : x.isFinite = true,
    (JsonNumber.double ⟨x, finite⟩).ReadsBack))

/-! ## Reading a written text -/

section Text

variable {α : Type} {decode : Decoder α} {value : Json} {floats : List Float} {a : α}

theorem Restores.numbersReadBack (restores : Restores decode value floats a)
    (exact : FloatsReadBack floats) : value.NumbersReadBack := by
  intro n hn
  cases n with
  | natural n => exact readsBack_natural n
  | negative n => exact readsBack_negative n
  | double x => exact exact x.val (restores.doubles hn) x.finite

/-- The floats decide whether a written text is read. -/
theorem Restores.ofText (restores : Restores decode value floats a)
    (exact : FloatsReadBack floats) (hdepth : value.depth ≤ nestingLimit) :
    Json.ofText decode (textBytes value.compact) =
      if floats.all Float.isFinite then .ok a else .error .mismatch := by
  rw [Json.ofText, readText_compact (restores.numbersReadBack exact)]
  simp only [bind, Except.bind, restores.reads hdepth]
  cases floats.all Float.isFinite <;> rfl

theorem Keeps.sound_of_ofText {encode : α → Json} {floats : α → List Float}
    (keeps : Keeps decode encode floats) {bs : List UInt8} (h : Json.ofText decode bs = .ok a) :
    Sound nestingLimit (encode a) (floats a) := by
  rw [Json.ofText] at h
  cases hdecode : decode nestingLimit (readText bs).1 with
  | error fault =>
    simp only [bind, Except.bind, hdecode] at h
    cases h
  | ok b =>
    simp only [bind, Except.bind, hdecode] at h
    rw [← of_orFault h]
    exact keeps hdecode

end Text

end Json

namespace Lottie
namespace Animation

theorem stretch_mem_floats {animation : Animation} {layer : Layer}
    (hlayer : layer ∈ animation.layers) {x : Float} (hx : layer.stretch = some x) :
    x ∈ animation.floats := by
  refine List.mem_cons_of_mem _ (List.mem_flatMap.mpr ⟨layer, hlayer, ?_⟩)
  rw [Layer.floats, hx]
  exact List.mem_append_left _ (List.mem_append_left _ (List.mem_singleton_self x))

theorem restores_of_finite {animation : Animation}
    (hfinite : ∀ x ∈ animation.floats, x.isFinite = true) :
    Json.Restores decode animation.toJson animation.floats animation :=
  animation.restores fun _ hlayer x hx => hfinite x (stretch_mem_floats hlayer hx)

theorem ofText_of_finite {animation : Animation} (exact : Json.FloatsReadBack animation.floats)
    (hfinite : ∀ x ∈ animation.floats, x.isFinite = true)
    (hdepth : animation.toJson.depth ≤ Json.nestingLimit) :
    Json.ofText decode (textBytes animation.toJson.compact) = .ok animation := by
  rw [(restores_of_finite hfinite).ofText exact hdepth, if_pos (List.all_eq_true.mpr hfinite)]

/-- Reading undoes writing.  An animation that was read has only numbers for floats and is
nested no deeper than a reader allows, so that it is read again, and it is the same for a
reader of any JSON value. -/
theorem ofText_toJson (animation : Animation) (exact : Json.FloatsReadBack animation.floats) :
    ((∀ x ∈ animation.floats, x.isFinite = true) →
        animation.toJson.depth ≤ Json.nestingLimit →
          Json.ofText decode (textBytes animation.toJson.compact) = .ok animation) ∧
      ∀ bs, Json.ofText decode bs = .ok animation →
        ∃ again value, Json.ofText decode (textBytes animation.toJson.compact) = .ok again ∧
          Json.ofText Json.Draft.value (textBytes animation.toJson.compact) = .ok value ∧
            again = animation ∧ value = again.toJson ∧
              value.canonical = animation.toJson.canonical ∧
                documentHash value = documentHash animation.toJson := by
  refine ⟨ofText_of_finite exact, ?_⟩
  intro bs hbs
  have hsound := Animation.keeps.sound_of_ofText hbs
  have hnumbers := (restores_of_finite hsound.finite).numbersReadBack exact
  exact ⟨animation, animation.toJson, ofText_of_finite exact hsound.finite hsound.depth_le,
    Json.ofText_value hnumbers hsound.depth_le, rfl, rfl, rfl, rfl⟩

/-- An animation with a group in a group, keyframes, and members that are left out. -/
def nested : Animation where
  version := "5.5.2"
  frameRate := 29.97
  inPoint := 0
  outPoint := 180
  name := "\"01\"\n√2"
  depth := 0
  height := 512
  width := 512
  generator := "sketch"
  layers := [
    .solid "ground" 0 180 "#ffffff" 512 512,
    { Layer.ofShapes "marks" 0 180 0 [
        .group [
          .group [
            .ellipse ⟨.fixed ⟨-12.5, 0.1⟩, ⟨1, .keyframes [], some 3⟩, "dot"⟩,
            .curve ⟨.fixed ⟨[⟨0.0, 0.0⟩], [⟨0.0, 0.0⟩], [⟨1e-7, 2.5e21⟩], false⟩, none⟩] none,
          .transform {
            Transform.identity with
            opacity := ⟨1, .keyframes [
              ⟨some ⟨[0.667], [1.0]⟩, some ⟨[0.333], [0.0]⟩, 0, [0.0]⟩,
              ⟨none, none, 12, [100.0]⟩], none⟩ }] (some "dots"),
        .style ⟨.fixed ⟨1.0, 0.5, 0.25, 1.0⟩, .fixed 100.0, .fixed 8.0, 2, 2, 4.0, 0, "ink"⟩,
        .trim ⟨"", 1, false, .fixed 0.0, .fixed 100.0, .fixed 0.0, 1⟩] with
      stretch := some 1.0
      blendMode := some 0 }]

theorem ofText_toJson_nested :
    Json.FloatsReadBack nested.floats ∧
      Json.ofText decode (textBytes nested.toJson.compact) = .ok nested ∧
        ∃ value, Json.ofText Json.Draft.value (textBytes nested.toJson.compact) = .ok value ∧
          documentHash value = documentHash nested.toJson := by
  have exact : Json.FloatsReadBack nested.floats := by decide +kernel
  have hfinite : ∀ x ∈ nested.floats, x.isFinite = true := by decide +kernel
  have hdepth : nested.toJson.depth ≤ Json.nestingLimit := by decide +kernel
  have hread := (ofText_toJson nested exact).1 hfinite hdepth
  obtain ⟨_, value, -, hvalue, -, -, -, hhash⟩ := (ofText_toJson nested exact).2 _ hread
  exact ⟨exact, hread, value, hvalue, hhash⟩

end Animation
end Lottie
end AnimatedGlyph
