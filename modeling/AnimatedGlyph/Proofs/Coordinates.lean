/-
Coordinates that are numbers.

Whatever the settings are, almost every float of a compiled animation is a number.  The frame
rate is a third of a 32-bit word, tangents are made of 53 random bits, and colours, widths and
letters are made of small integers.  That leaves the places on the canvas, which are the nodes
and the positions of letters: they are sums of settings, rounded by way of a product with a
hundred, and the settings may be as large as doubles can be.  `allFinite_document_iff` says
that they alone decide whether all floats are numbers.  The vertices of strokes are nodes and
add nothing.
-/
import AnimatedGlyph.Document.Wire
import AnimatedGlyph.Proofs.AnimationText
import AnimatedGlyph.Proofs.Conversion
import AnimatedGlyph.Proofs.Draws
import AnimatedGlyph.Proofs.FiniteFloats

namespace AnimatedGlyph

/-! ## Lists of numbers -/

/-- All of the floats are numbers. -/
def AllFinite (floats : List Float) : Prop :=
  ∀ x ∈ floats, x.isFinite = true

instance (floats : List Float) : Decidable (AllFinite floats) :=
  inferInstanceAs (Decidable (∀ x ∈ floats, x.isFinite = true))

namespace AllFinite

variable {x : Float} {first more : List Float}

@[simp]
theorem nil_iff : AllFinite [] ↔ True :=
  iff_true_intro nofun

@[simp]
theorem cons_iff : AllFinite (x :: more) ↔ x.isFinite = true ∧ AllFinite more :=
  List.forall_mem_cons

@[simp]
theorem append_iff : AllFinite (first ++ more) ↔ AllFinite first ∧ AllFinite more :=
  List.forall_mem_append

@[simp]
theorem flatMap_iff {α : Type} {items : List α} {floats : α → List Float} :
    AllFinite (items.flatMap floats) ↔ ∀ item ∈ items, AllFinite (floats item) := by
  induction items with
  | nil => exact ⟨fun _ => nofun, fun _ => nofun⟩
  | cons item rest ih => rw [List.flatMap_cons, append_iff, ih, List.forall_mem_cons]

end AllFinite

theorem Point.allFinite_floats_iff {p : Point} :
    AllFinite p.floats ↔ p.x.isFinite = true ∧ p.y.isFinite = true := by
  rw [floats, AllFinite.cons_iff, AllFinite.cons_iff, AllFinite.nil_iff, and_true]

/-! ## Rates and tangents -/

open Lottie (Keyframe ShapeItem Transform)
open Number (Bounded IsExponent isExponent_of_le)

theorem allFinite_toHundredths {k : Int} {p : Point} (hx : Bounded k p.x) (hy : Bounded k p.y)
    (hfrom : 6 ≤ k) (hto : k ≤ 916) : AllFinite p.toHundredths.floats := by
  have hn : IsExponent (k + 55) := isExponent_of_le (by omega) (by omega)
  have hroundedX := hx.toHundredths (Int.le_refl _) (by omega) hn
  have hroundedY := hy.toHundredths (Int.le_refl _) (by omega) hn
  exact Point.allFinite_floats_iff.mpr ⟨hroundedX.isFinite, hroundedY.isFinite⟩

theorem StickerSettings.isFinite_frameRate (settings : StickerSettings) :
    settings.frameRate.isFinite = true := by
  have hrate : Bounded 64 settings.frameRate :=
    (Number.bounded_toFloat32 settings.totalFrames).div (by decide : Number.AtLeast (-51)
      (3.0 : Float).toModel.unpack) (by decide) (by decide)
  exact hrate.isFinite

theorem bounded_nextUnit (source : RandomSource) : Bounded 12 source.nextUnit.1 :=
  (Number.bounded_toFloat _).div (by decide : Number.AtLeast 1
    (9007199254740992.0 : Float).toModel.unpack) (by decide) (by decide)

theorem bounded_moved {unit : Float} (h : Bounded 12 unit) :
    Bounded 18 (21.0 * unit) ∧ Bounded 20 (21.0 * unit - 9.0) := by
  have hscaled : Bounded 18 (21.0 * unit) :=
    Bounded.mul (by decide : Bounded (-48) 21.0) h (by decide) (by decide)
  exact ⟨hscaled, hscaled.sub (by decide : Bounded (-49) 9.0) (by decide) (by decide) (by decide)⟩

theorem isFinite_jitter {unit : Float} (h : Bounded 12 unit) : (jitter unit).isFinite = true := by
  have hrounded : Bounded 75 (jitter unit) :=
    (bounded_moved h).2.toHundredths (by decide) (by decide) (by decide)
  exact hrounded.isFinite

theorem allFinite_zero : AllFinite Point.zero.floats := by
  decide

theorem allFinite_jitterTangent (source : RandomSource) :
    AllFinite (jitterTangent source).1.floats := by
  have hx := isFinite_jitter (bounded_nextUnit source)
  have hy := isFinite_jitter (bounded_nextUnit source.nextUnit.2)
  exact Point.allFinite_floats_iff.mpr ⟨hx, hy⟩

theorem allFinite_arrivals (vertices : List Point) :
    ∀ (seen : List (Int64 × Int64)) (source : RandomSource),
      ∀ tangent ∈ (arrivals seen source vertices).1, AllFinite tangent.floats := by
  induction vertices with
  | nil => exact fun _ _ => nofun
  | cons v rest ih =>
    intro seen source
    rw [arrivals]
    refine List.forall_mem_cons.mpr ⟨?_, ih _ _⟩
    split
    · exact allFinite_jitterTangent source
    · exact allFinite_zero

/-! ## Vertices -/

theorem allFinite_pathCurve {points : Projection}
    (hnodes : ∀ node, AllFinite (points.rounded node).floats) (code : GlyphCode)
    (source : RandomSource) :
    AllFinite (pathCurve (StrokePath.ofEdges (code.edges points) source).1).floats := by
  have hvertices : ∀ v ∈ chainVertices (code.edges points), AllFinite v.floats := by
    rw [chainVertices_edges, List.forall_mem_map]
    exact fun node _ => hnodes node
  have hzero : ∀ tangent ∈ (chainVertices (code.edges points)).map fun _ => Point.zero,
      AllFinite tangent.floats := by
    intro tangent htangent
    obtain ⟨v, -, rfl⟩ := List.mem_map.mp htangent
    exact allFinite_zero
  show AllFinite (_ ++ _ ++ _)
  rw [AllFinite.append_iff, AllFinite.append_iff, AllFinite.flatMap_iff, AllFinite.flatMap_iff,
    AllFinite.flatMap_iff]
  exact ⟨⟨allFinite_arrivals _ [] source, hzero⟩, hvertices⟩

/-! ## Styles, effects and letters -/

theorem allFinite_strokeStyle {colour : Rgba} {width : Float} (hcolour : AllFinite colour.floats)
    (hwidth : width.isFinite = true) (lineJoin : UInt8) :
    AllFinite (strokeStyle colour width lineJoin).floats := by
  have hopacity : (100.0 : Float).isFinite = true := by decide
  have hmiter : (10.0 : Float).isFinite = true := by decide
  show AllFinite (colour.floats ++ [100.0] ++ [width] ++ [10.0])
  simp only [AllFinite.append_iff, AllFinite.cons_iff, AllFinite.nil_iff, and_true]
  exact ⟨⟨⟨hcolour, hopacity⟩, hwidth⟩, hmiter⟩

theorem Colour.allFinite_toRgba (c : Colour) : AllFinite c.toRgba.floats := by
  have hone : (1.0 : Float).isFinite = true := by decide
  have hchannel : ∀ channel, (unitChannel channel).isFinite = true := by
    intro channel
    have hquotient : Bounded 58 (channel.toFloat / 255.0) :=
      (Number.bounded_toFloat8 channel).div (by decide : Number.AtLeast (-45)
        (255.0 : Float).toModel.unpack) (by decide) (by decide)
    have hrounded : Bounded 113 (unitChannel channel) :=
      hquotient.toHundredths (by decide) (by decide) (by decide)
    exact hrounded.isFinite
  show AllFinite [unitChannel c.red, unitChannel c.green, unitChannel c.blue, 1.0]
  simp only [AllFinite.cons_iff, AllFinite.nil_iff, hchannel, hone, and_true]

theorem isFinite_strokeWidth (index lines : Nat) : (strokeWidth index lines).isFinite = true := by
  have hfirst : (8.0 : Float).isFinite = true := by decide
  have hafter : (lines - index) % 20 < 2 ^ 53 :=
    Nat.lt_of_lt_of_le (Nat.mod_lt _ (by decide)) (by decide)
  have hscaled : Bounded 16 (Float.ofNat ((lines - index) % 20) * 0.6) :=
    (Number.bounded_ofNat hafter).mul (by decide : Bounded (-53) 0.6) (by decide) (by decide)
  have hwidth : Bounded 18 (6.0 + Float.ofNat ((lines - index) % 20) * 0.6) :=
    Bounded.add (by decide : Bounded (-50) 6.0) hscaled (by decide) (by decide) (by decide)
  have hrounded := hwidth.toHundredths (n := 73) (by decide) (by decide) (by decide)
  rw [strokeWidth]
  split
  · exact hfirst
  · exact hrounded.isFinite

theorem allFinite_identity : AllFinite Transform.identity.floats := by
  decide

theorem allFinite_opacityKeyframes {window : FrameWindow} {frames : List Keyframe}
    (hframes : opacityKeyframes window = some frames) :
    AllFinite (frames.flatMap Keyframe.floats) := by
  have hoff : AllFinite [0.0] := by decide
  have hon : AllFinite [100.0] := by decide
  have hfloats : ∀ time value, (Keyframe.hold time value).floats = [value] := fun _ _ => rfl
  obtain ⟨on, off, -, -, rfl⟩ := opacityKeyframes_eq_some_iff.mp hframes
  split <;> simp [hfloats, AllFinite.cons_iff.mp hoff, AllFinite.cons_iff.mp hon]

theorem allFinite_opacityOver {frames : List Keyframe}
    (hopacity : AllFinite (frames.flatMap Keyframe.floats)) :
    AllFinite (opacityOver frames).floats := by
  have hidentity := allFinite_identity
  rw [Transform.floats] at hidentity ⊢
  simp only [AllFinite.append_iff] at hidentity ⊢
  obtain ⟨⟨⟨hrest, -⟩, hskew⟩, haxis⟩ := hidentity
  exact ⟨⟨⟨hrest, hopacity⟩, hskew⟩, haxis⟩

theorem allFinite_effectShape {window : FrameWindow} {effect : Effect} {item : ShapeItem}
    (h : effectShape window effect = some item) : AllFinite item.floats := by
  rcases effectShape_eq_some_iff.mp h with ⟨-, rfl⟩ | ⟨-, frames, hframes, rfl⟩
  · exact (by decide : AllFinite [0.0, 0.3, 1.0, 0.333, 0.0, 0.0, 100.0, 0.0])
  · exact allFinite_opacityOver (allFinite_opacityKeyframes hframes)

theorem bounded_coordinates {c : Char} {letter : Letterform}
    (h : Letterform.ofChar? c = some letter) :
    ∀ stroke ∈ letter.strokes, ∀ p ∈ stroke, Bounded 0 p.x ∧ Bounded 0 p.y := by
  have hcells : ∀ entry ∈ cellStrokes, ∀ stroke ∈ entry.2, ∀ p ∈ stroke, p.1 ≤ 20 ∧ p.2 ≤ 20 := by
    decide
  have hfloats : ∀ n ≤ 20, Bounded 0 (Float.ofNat n) := by decide
  obtain ⟨entry, hentry, rfl⟩ := exists_cell_of_ofChar? h
  refine List.forall_mem_map.mpr fun stroke hstroke => List.forall_mem_map.mpr fun p hp => ?_
  obtain ⟨hx, hy⟩ := hcells entry hentry stroke hstroke p hp
  exact ⟨hfloats _ hx, hfloats _ hy⟩

theorem bounded_foldl_wider {k : Int} {xs : List Float} (h : ∀ x ∈ xs, Bounded k x) :
    ∀ {start : Float}, Bounded k start → Bounded k (xs.foldl Letterform.wider start) := by
  induction xs with
  | nil => exact fun hstart => hstart
  | cons x rest ih =>
    intro start hstart
    obtain ⟨hx, hrest⟩ := List.forall_mem_cons.mp h
    refine ih hrest ?_
    rw [Letterform.wider]
    split
    · exact hx
    · exact hstart

theorem bounded_width {c : Char} {letter : Letterform} (h : Letterform.ofChar? c = some letter) :
    Bounded 0 letter.width := by
  refine bounded_foldl_wider (List.forall_mem_map.mpr fun p hp => ?_) (by decide)
  obtain ⟨stroke, hstroke, hp⟩ := List.mem_flatten.mp hp
  exact (bounded_coordinates h stroke hstroke p hp).1

theorem allFinite_polyline {points : List Point} (h : ∀ p ∈ points, AllFinite p.floats) :
    AllFinite (polyline points).floats := by
  have hzero : ∀ tangent ∈ points.map fun _ => Point.zero, AllFinite tangent.floats := by
    intro tangent htangent
    obtain ⟨v, -, rfl⟩ := List.mem_map.mp htangent
    exact allFinite_zero
  show AllFinite (_ ++ _ ++ _)
  rw [AllFinite.append_iff, AllFinite.append_iff, AllFinite.flatMap_iff, AllFinite.flatMap_iff]
  exact ⟨⟨hzero, hzero⟩, h⟩

/-! ## Layers -/

/-- The places on the canvas that a layer writes down: those of the nodes, or that of a
letter. -/
def LayerKind.places : LayerKind → List Point
  | .grid nodes => nodes.toList.map Point.toHundredths
  | .caption letter => [letter.position.toHundredths]
  | _ => []

/-- The places on the canvas that a document writes down. -/
def AnimationDocument.places (document : AnimationDocument) : List Point :=
  document.layers.flatMap fun layer => layer.kind.places

theorem allFinite_ofShapes_iff {name : String} {start stop startTime : UInt32}
    {shapes : List ShapeItem} :
    AllFinite (Lottie.Layer.ofShapes name start stop startTime shapes).floats ↔
      ∀ item ∈ shapes, AllFinite item.floats := by
  show AllFinite ([] ++ Transform.identity.floats ++ Lottie.itemsFloats shapes) ↔ _
  simp [Lottie.itemsFloats_eq_flatMap, allFinite_identity]

namespace Layer

theorem allFinite_grid_iff {nodes : Projection} {total : UInt32} {wire : Lottie.Layer}
    (hwire : (grid nodes total).toLottie = some wire) :
    AllFinite wire.floats ↔ ∀ p ∈ nodes.toList.map Point.toHundredths, AllFinite p.floats := by
  cases hwire
  have hsize : AllFinite [20.0, 20.0] := by decide
  have hcircle : ∀ p, AllFinite (nodeCircle p).floats ↔ AllFinite p.toHundredths.floats := by
    intro p
    show AllFinite (p.toHundredths.floats ++ [20.0, 20.0]) ↔ _
    rw [AllFinite.append_iff, and_iff_left hsize]
  have hstyle : AllFinite (strokeStyle .white 3.0 1).floats :=
    allFinite_strokeStyle (by decide) (by decide) 1
  show AllFinite (Lottie.Layer.ofShapes _ _ _ _ (gridShapes nodes)).floats ↔ _
  rw [allFinite_ofShapes_iff, gridShapes, List.forall_mem_append, List.forall_mem_singleton,
    and_iff_left hstyle, List.forall_mem_map, List.forall_mem_map]
  exact forall₂_congr fun p _ => hcircle p

theorem allFinite_background {colour : String} {width height total : UInt32}
    {wire : Lottie.Layer} (hwire : (background colour width height total).toLottie = some wire) :
    AllFinite wire.floats := by
  cases hwire
  show AllFinite ([] ++ Transform.identity.floats ++ [])
  simpa using allFinite_identity

theorem allFinite_caption_iff {c : Char} {letter : Letterform}
    (h : Letterform.ofChar? c = some letter) {name : String} {window : FrameWindow}
    {position : Point} {wire : Lottie.Layer}
    (hwire : Layer.toLottie ⟨name, window, .caption
      ⟨c, letter, ⟨letter.width / 2.0, 0.0⟩, position⟩⟩ = some wire) :
    AllFinite wire.floats ↔ AllFinite position.toHundredths.floats := by
  cases hwire
  have hstrokes := bounded_coordinates h
  have hanchor : AllFinite (Point.toHundredths ⟨letter.width / 2.0, 0.0⟩).floats :=
    allFinite_toHundredths ((bounded_width h).half (Int.le_refl _) (by decide))
      (by decide : Bounded 52 0.0) (by decide) (by decide)
  have hstretch : AllFinite [1.0] := by decide
  have hpolylines : ∀ item ∈ letter.strokes.map polyline, AllFinite item.floats := by
    intro item hitem
    obtain ⟨stroke, hstroke, rfl⟩ := List.mem_map.mp hitem
    refine allFinite_polyline fun p hp => ?_
    obtain ⟨hx, hy⟩ := hstrokes stroke hstroke p hp
    exact Point.allFinite_floats_iff.mpr ⟨hx.isFinite, hy.isFinite⟩
  have hstyle : AllFinite (strokeStyle .white 2.0 2).floats :=
    allFinite_strokeStyle (by decide) (by decide) 2
  let placed : Transform := { Transform.identity with
    anchor := .fixed (Point.toHundredths ⟨letter.width / 2.0, 0.0⟩)
    position := .fixed position.toHundredths }
  have hplaced : AllFinite placed.floats ↔ AllFinite position.toHundredths.floats := by
    have hidentity := allFinite_identity
    rw [Transform.floats] at hidentity ⊢
    simp only [AllFinite.append_iff] at hidentity ⊢
    obtain ⟨⟨⟨⟨⟨-, hscale⟩, hrotation⟩, hopacity⟩, hskew⟩, haxis⟩ := hidentity
    exact ⟨fun h => h.1.1.1.1.1.2,
      fun h => ⟨⟨⟨⟨⟨⟨hanchor, h⟩, hscale⟩, hrotation⟩, hopacity⟩, hskew⟩, haxis⟩⟩
  show AllFinite ([1.0] ++ Transform.identity.floats ++ (Lottie.itemsFloats
    (letter.strokes.map polyline ++ [strokeStyle .white 2.0 2, .transform placed]) ++ [])) ↔ _
  rw [List.append_nil, AllFinite.append_iff, AllFinite.append_iff,
    and_iff_right ⟨hstretch, allFinite_identity⟩, Lottie.itemsFloats_eq_flatMap,
    AllFinite.flatMap_iff, List.forall_mem_append, and_iff_right hpolylines, List.forall_mem_cons,
    and_iff_right hstyle, List.forall_mem_singleton]
  exact hplaced

end Layer

namespace Scene

theorem allFinite_wordStroke {scene : Scene} {drawn : WordPlace × StrokePath}
    {source : RandomSource} {wire : Lottie.Layer}
    (hnodes : ∀ node, AllFinite (scene.points.rounded node).floats)
    (hpath : drawn.2 = (StrokePath.ofEdges (drawn.1.glyph.code.edges scene.points) source).1)
    (hwire : (scene.wordStroke drawn).toLottie = some wire) : AllFinite wire.floats := by
  obtain ⟨shapes, hshapes, rfl⟩ := (Layer.toLottie_stroke_eq_some_iff rfl).mp hwire
  obtain ⟨items, hitems, rfl⟩ := strokeShapes_eq_some_iff.mp hshapes
  rw [allFinite_ofShapes_iff, List.forall_mem_append]
  refine ⟨?_, ?_⟩
  · refine List.forall_mem_cons.mpr ⟨?_, List.forall_mem_singleton.mpr ?_⟩
    · show AllFinite (pathCurve drawn.2).floats
      rw [hpath]
      exact allFinite_pathCurve hnodes drawn.1.glyph.code source
    · exact allFinite_strokeStyle (Colour.allFinite_toRgba _)
        (isFinite_strokeWidth drawn.1.line scene.lines) 2
  · intro item hitem
    obtain ⟨effect, -, hitem⟩ := exists_of_forall₂_right hitems hitem
    exact allFinite_effectShape hitem

theorem allFinite_of_mem_letters {scene : Scene} {place : WordPlace} {layer : Layer}
    (h : layer ∈ scene.letters place) {wire : Lottie.Layer} (hwire : layer.toLottie = some wire) :
    AllFinite wire.floats ↔ ∀ p ∈ layer.kind.places, AllFinite p.floats := by
  rw [letters] at h
  split at h
  case isFalse => cases h
  obtain ⟨⟨c, position⟩, -, hletter⟩ := List.mem_filterMap.mp h
  obtain ⟨letter, hc, rfl⟩ := Option.map_eq_some_iff.mp hletter
  rw [Layer.allFinite_caption_iff hc hwire]
  show _ ↔ ∀ p ∈ [Point.toHundredths _], AllFinite p.floats
  rw [List.forall_mem_singleton]

/-- The floats of an animation are numbers if and only if those of its layers are, the number
of frames in a second being one. -/
theorem allFinite_toLottie_iff {scene : Scene} {layers : List Layer}
    {animation : Lottie.Animation} (h : (scene.document layers).toLottie = some animation) :
    AllFinite animation.floats ↔
      ∀ layer ∈ layers, ∀ wire, layer.toLottie = some wire → AllFinite wire.floats := by
  have hfloats : animation.floats =
      scene.settings.frameRate :: animation.layers.flatMap Lottie.Layer.floats := by
    obtain ⟨wires, -, rfl⟩ := AnimationDocument.toLottie_eq_some_iff.mp h
    rfl
  rw [hfloats, AllFinite.cons_iff, and_iff_right scene.settings.isFinite_frameRate,
    AllFinite.flatMap_iff]
  constructor
  · intro hall layer hlayer wire hwire
    obtain ⟨other, hmem, hother⟩ := AnimationDocument.exists_toLottie_of_mem h hlayer
    rw [hwire] at hother
    cases hother
    exact hall wire hmem
  · intro hall wire hmem
    obtain ⟨layer, hlayer, hwire⟩ := AnimationDocument.exists_of_mem_layers h hmem
    exact hall layer hlayer wire hwire

/-- The floats of a document are numbers if and only if the coordinates of its places are. -/
theorem allFinite_document_iff {scene : Scene} {places : List WordPlace} {source : RandomSource}
    {animation : Lottie.Animation}
    (h : (scene.document (scene.wordStack (drawWords scene.points places source).1 ++
      scene.ground)).toLottie = some animation) :
    AllFinite animation.floats ↔
      ∀ p ∈ (scene.document (scene.wordStack (drawWords scene.points places source).1 ++
        scene.ground)).places, AllFinite p.floats := by
  have hgrid := @Layer.allFinite_grid_iff scene.points scene.settings.totalFrames _ rfl
  rw [allFinite_toLottie_iff h, AnimationDocument.places, List.forall_mem_flatMap]
  refine forall_mem_layers_iff.trans (Iff.trans ?_ forall_mem_layers_iff.symm)
  constructor
  · rintro ⟨hwords, hnodes, -⟩
    refine ⟨fun word hword => ⟨?_, List.forall_mem_nil _⟩, hgrid.mp (hnodes _ rfl),
      List.forall_mem_nil _⟩
    intro layer hletter
    obtain ⟨wire, hwire⟩ := Option.isSome_iff_exists.mp (isSome_toLottie_letters layer hletter)
    exact (allFinite_of_mem_letters hletter hwire).mp
      ((hwords word hword).1 layer hletter wire hwire)
  · rintro ⟨hwords, hnodes, -⟩
    have hrounded : ∀ node, AllFinite (scene.points.rounded node).floats := by
      intro node
      refine hnodes _ (List.mem_map_of_mem ?_)
      exact Vector.mem_toList_iff.mpr (Vector.getElem_mem node.isLt)
    refine ⟨fun word hword => ⟨?_, ?_⟩, ?_, fun wire => Layer.allFinite_background⟩
    · exact fun layer hletter wire hwire =>
        (allFinite_of_mem_letters hletter hwire).mpr ((hwords word hword).1 layer hletter)
    · obtain ⟨start, hpath⟩ := path_of_mem_drawWords hword
      exact fun wire hwire => allFinite_wordStroke hrounded hpath hwire
    · exact fun wire hwire => (Layer.allFinite_grid_iff hwire).mpr hnodes

end Scene
end AnimatedGlyph
