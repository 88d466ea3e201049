/-
Settings of moderate size.

A place on the canvas is a sum of a few settings and, for a letter, of one advance for each
letter before it.  An addition raises a bound on exponents by two, so settings whose exponents
stay below the greatest one by a fixed margin, and by twice the length of the words that are
set, have places whose coordinates are numbers.
-/
import AnimatedGlyph.Proofs.Coordinates

namespace AnimatedGlyph

open Number (Bounded IsExponent isExponent_of_le)

/-- The numbers of the settings have exponents of at most `limit`. -/
structure StickerSettings.Moderate (limit : Int) (settings : StickerSettings) : Prop where
  scale : Bounded limit settings.canvas.scale
  originX : Bounded limit settings.canvas.originX
  originY : Bounded limit settings.canvas.originY
  fontSize : Bounded limit settings.canvas.fontSize
  fontSpacing : Bounded limit settings.canvas.fontSpacing
  captionTop : Bounded limit settings.captionTop

variable {k n : Int}

namespace Scene

variable {scene : Scene} {limit : Int}

/-! ## Nodes -/

theorem bounded_place (node : Node) :
    Bounded (-52) (node.place.magnitude * node.place.bearing.cosine) ∧
      Bounded (-52) (node.place.magnitude * node.place.bearing.sine) := by
  have table : ∀ node : Node, Bounded (-52) (node.place.magnitude * node.place.bearing.cosine) ∧
      Bounded (-52) (node.place.magnitude * node.place.bearing.sine) := by
    decide
  exact table node

theorem allFinite_rounded (h : scene.settings.Moderate limit) (hfrom : 0 ≤ limit)
    (hto : limit ≤ 840) (node : Node) : AllFinite (scene.points.rounded node).floats := by
  obtain ⟨hcosine, hsine⟩ := bounded_place node
  have hshift : Bounded limit
      (if scene.lines = 1 then scene.settings.canvas.fontSize else 0.0) := by
    split
    · exact h.fontSize
    · exact Bounded.mono (by decide : Bounded 0 0.0) hfrom
  have hscaled : IsExponent (limit + 54) := isExponent_of_le (by omega) (by omega)
  have hplaced : IsExponent (limit + 56) := isExponent_of_le (by omega) (by omega)
  have hx : Bounded (limit + 56) (node.place.onCanvas scene.canvas).x :=
    h.originX.add (hcosine.mul h.scale (by omega) hscaled) (by omega) (by omega) hplaced
  have horiginY : Bounded (limit + 2) scene.canvas.originY :=
    h.originY.add hshift (Int.le_refl _) (Int.le_refl _) (isExponent_of_le (by omega) (by omega))
  have hy : Bounded (limit + 56) (node.place.onCanvas scene.canvas).y :=
    horiginY.sub (hsine.mul h.scale (by omega) hscaled) (by omega) (by omega) hplaced
  have hpoint : scene.points.get node = node.place.onCanvas scene.canvas :=
    Vector.getElem_ofFn node.isLt
  rw [Projection.rounded, hpoint]
  exact allFinite_toHundredths hx hy (by omega) (by omega)

/-! ## Letters -/

theorem bounded_advance {canvas : Canvas} (h : Bounded limit canvas.fontSpacing)
    (hfrom : 0 ≤ limit) (hto : limit ≤ 840) (c : Char) :
    Bounded (limit + 3) (advance canvas c) := by
  have hn : IsExponent (limit + 3) := isExponent_of_le (by omega) (by omega)
  rw [advance]
  cases hletter : Letterform.ofChar? c with
  | none => exact h.mul (by decide : Bounded (-51) 3.0) (by omega) hn
  | some letter => exact (bounded_width hletter).add h (by omega) (by omega) hn

/-- Every sum adds at most two to the bound. -/
theorem bounded_foldl_add {xs : List Float} (hxs : ∀ x ∈ xs, Bounded k x) :
    ∀ {l : Int} {start : Float}, Bounded l start → k ≤ l → 0 ≤ l → l + 2 * xs.length ≤ 971 →
      Bounded (l + 2 * xs.length) (xs.foldl (· + ·) start) := by
  induction xs with
  | nil =>
    intro l start hstart _ _ _
    exact hstart.mono (by simp)
  | cons x rest ih =>
    intro l start hstart hle hfrom hto
    obtain ⟨hx, hrest⟩ := List.forall_mem_cons.mp hxs
    rw [List.length_cons] at hto ⊢
    have hsum : Bounded (l + 2) (start + x) :=
      hstart.add hx (Int.le_refl _) (by omega) (isExponent_of_le (by omega) (by omega))
    exact (ih hrest hsum (by omega) (by omega) (by omega)).mono (by omega)

theorem bounded_advances {canvas : Canvas} (h : Bounded limit canvas.fontSpacing)
    (hfrom : 0 ≤ limit) {word part : List Char} (hlength : part.length ≤ word.length)
    (hword : limit + 2 * word.length ≤ 840) {start : Float} (hstart : Bounded 0 start) :
    Bounded (limit + 2 * word.length + 3) ((part.map (advance canvas)).foldl (· + ·) start) := by
  have hadvance : ∀ x ∈ part.map (advance canvas), Bounded (limit + 3) x :=
    List.forall_mem_map.mpr fun c _ => bounded_advance h hfrom (by omega) c
  have hlength' : (part.map (advance canvas)).length ≤ word.length := by
    rw [List.length_map]
    exact hlength
  have hsum := bounded_foldl_add hadvance (hstart.mono (by omega : 0 ≤ limit + 3))
    (Int.le_refl _) (by omega) (by omega)
  exact hsum.mono (by omega)

theorem bounded_measure {canvas : Canvas} (h : Bounded limit canvas.fontSpacing)
    (hfrom : 0 ≤ limit) {word : String} (hword : limit + 2 * word.toList.length ≤ 840) :
    Bounded (limit + 2 * word.toList.length + 5) (measure canvas word) := by
  have hsum := bounded_advances h hfrom (Nat.le_refl word.toList.length) hword
    (by decide : Bounded 0 (-0.0))
  have hwidth := hsum.sub h (Int.le_refl _) (by omega) (isExponent_of_le (by omega) (by omega))
  rw [measure]
  split
  · exact hwidth.mono (by omega)
  · exact Bounded.mono (by decide : Bounded 0 0.0) (by omega)

theorem allFinite_of_mem_letters_of_moderate (h : scene.settings.Moderate limit)
    (hfrom : 0 ≤ limit) {place : WordPlace}
    (hlabel : limit + 2 * place.glyph.label.toList.length ≤ 840) {layer : Layer}
    (hlayer : layer ∈ scene.letters place) : ∀ p ∈ layer.kind.places, AllFinite p.floats := by
  rw [letters] at hlayer
  split at hlayer
  case isFalse => cases hlayer
  obtain ⟨⟨c, position⟩, -, hletter⟩ := List.mem_filterMap.mp hlayer
  obtain ⟨letter, hc, rfl⟩ := Option.map_eq_some_iff.mp hletter
  have hspacing : Bounded limit scene.canvas.fontSpacing := h.fontSpacing
  have hmeasure := bounded_measure hspacing hfrom hlabel
  have hspare := (Number.bounded_toFloat32 scene.settings.width).sub hmeasure
    (by omega : _ ≤ limit + 2 * place.glyph.label.toList.length + 14) (by omega)
    (isExponent_of_le (by omega) (by omega))
  have hleft := hspare.half (by omega) (by omega)
  have hcursor : Bounded _ (scene.canvas.cursorAt place.glyph.label.toList position) :=
    bounded_advances hspacing hfrom (List.length_take_le' _ _) hlabel
      (by decide : Bounded 0 0.0)
  have hstart := hleft.add hcursor (Int.le_refl _) (by omega)
    (isExponent_of_le (by omega) (by omega))
  have hx := hstart.add ((bounded_width hc).half (Int.le_refl _) (by decide)) (Int.le_refl _)
    (by omega) (isExponent_of_le (by omega) (by omega))
  have hy := h.captionTop.add (h.fontSize.half hfrom (by omega)) (by omega)
    (by omega : _ ≤ limit + 2 * place.glyph.label.toList.length + 70)
    (isExponent_of_le (by omega) (by omega))
  exact List.forall_mem_singleton.mpr
    (allFinite_toHundredths hx (hy.mono (by omega)) (by omega) (by omega))

/-- The places of a document are numbers if the settings are moderate and the words that are
set are short enough for them. -/
theorem allFinite_places_of_moderate (h : scene.settings.Moderate limit) (hfrom : 0 ≤ limit)
    (hto : limit ≤ 840) {places : List WordPlace}
    (hlabels : ∀ place ∈ places, limit + 2 * place.glyph.label.toList.length ≤ 840)
    (source : RandomSource) :
    ∀ p ∈ (scene.document
      (scene.wordStack (drawWords scene.points places source).1 ++ scene.ground)).places,
        AllFinite p.floats := by
  rw [AnimationDocument.places, List.forall_mem_flatMap]
  refine forall_mem_layers_iff.mpr ⟨?_, ?_, List.forall_mem_nil _⟩
  · intro word hword
    have hplace : word.1 ∈ places := by
      have hmem := List.mem_map_of_mem (f := Prod.fst) hword
      rwa [map_fst_drawWords] at hmem
    refine ⟨fun layer hletter => ?_, List.forall_mem_nil _⟩
    exact allFinite_of_mem_letters_of_moderate h hfrom (hlabels _ hplace) hletter
  · refine List.forall_mem_map.mpr ?_
    intro p hp
    obtain ⟨i, hi, rfl⟩ := Vector.getElem_of_mem (Vector.mem_toList_iff.mp hp)
    exact allFinite_rounded h hfrom hto ⟨i, hi⟩

end Scene
end AnimatedGlyph
