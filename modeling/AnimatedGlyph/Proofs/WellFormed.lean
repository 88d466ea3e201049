/-
Animations that a player can trust.

An animation is a tree, and what a player needs of it is said of all that the tree holds
at once: `itemsWithin` lists the items of a tree, `tracks` the properties of an item with
what they do over time, `lists` the lists in which items stand.  `WellFormed` is the
whole of it, for an item in a window, a layer on a timeline, and an animation.

Each of the four kinds of layers has one lemma.  The frames come from the schedule, the
lengths of curves from the length of a glyph code and from the table of letters.
-/
import AnimatedGlyph.Proofs.Draws
import AnimatedGlyph.Proofs.Opacity

namespace AnimatedGlyph

open Lottie (Bezier Curve Ellipse Keyframe Property PropertyValue ShapeItem StrokeStyle
  Transform Trim)

/-! ## What an animation holds -/

namespace Lottie

/-- A property over time: its flag and its keyframes, if it has them. -/
structure Track where
  flag : UInt8
  frames? : Option (List Keyframe)

def Property.track {α : Type} (property : Property α) : Track :=
  ⟨property.flag, property.keyframes?⟩

def Transform.tracks (transform : Transform) : List Track :=
  [transform.anchor.track, transform.position.track, transform.scale.track,
    transform.rotation.track, transform.opacity.track, transform.skew.track,
    transform.skewAxis.track]

/-- The properties of an item, without those of the items inside it. -/
def ShapeItem.tracks : ShapeItem → List Track
  | .ellipse item => [item.position.track, item.size.track]
  | .curve item => [item.course.track]
  | .style item => [item.colour.track, item.opacity.track, item.width.track]
  | .trim item => [item.start.track, item.stop.track, item.offset.track]
  | .transform item => item.tracks
  | .group _ _ => []

/-- The course of an item, if it is a curve with one. -/
def ShapeItem.course? : ShapeItem → Option Bezier
  | .curve ⟨⟨_, .fixed bezier, _⟩, _⟩ => some bezier
  | _ => none

/-- The items of an item, if it is a group. -/
def ShapeItem.members? : ShapeItem → Option (List ShapeItem)
  | .group items _ => some items
  | _ => none

mutual
/-- The item and, if it is a group, all items inside it. -/
def ShapeItem.within : ShapeItem → List ShapeItem
  | .group items name => .group items name :: itemsWithin items
  | .ellipse item => [.ellipse item]
  | .curve item => [.curve item]
  | .style item => [.style item]
  | .trim item => [.trim item]
  | .transform item => [.transform item]

/-- The items and all items inside them. -/
def itemsWithin : List ShapeItem → List ShapeItem
  | [] => []
  | item :: rest => item.within ++ itemsWithin rest
end

namespace Layer

/-- All items of the layer, at any depth. -/
def items (layer : Layer) : List ShapeItem :=
  itemsWithin (layer.shapes.getD [])

/-- The lists in which the items of the layer stand: that of its shapes and those of its
groups. -/
def lists (layer : Layer) : List (List ShapeItem) :=
  layer.shapes.toList ++ layer.items.filterMap ShapeItem.members?

end Layer

/-! ## Well-formed animations -/

/-- The keyframes run from one frame on in ascending order, up to the frame after
another. -/
structure Running (start stop : UInt32) (frames : List Keyframe) : Prop where
  starts : frames.head?.map Keyframe.time = some start
  ascending : frames.Pairwise fun earlier later => earlier.time < later.time
  stops : ∀ frame ∈ frames, frame.time.toNat ≤ stop.toNat + 1

/-- The flag tells whether the property has keyframes, and these run from one frame to
another. -/
structure Track.WellFormed (start stop : UInt32) (track : Track) : Prop where
  flag_iff : track.flag = 1 ↔ track.frames?.isSome = true
  running : ∀ frames, track.frames? = some frames → Running start stop frames

/-- The curve is open, and each vertex has a tangent on either side. -/
structure Bezier.WellFormed (bezier : Bezier) : Prop where
  inTangents : bezier.inTangents.length = bezier.vertices.length
  outTangents : bezier.outTangents.length = bezier.vertices.length
  two_le : 2 ≤ bezier.vertices.length
  isOpen : bezier.closed = false

/-- An item that fits in a window: its properties do, its course is one, and if it is a
group its last item places it. -/
structure ShapeItem.WellFormed (start stop : UInt32) (item : ShapeItem) : Prop where
  tracks : ∀ track ∈ item.tracks, track.WellFormed start stop
  course : ∀ bezier, item.course? = some bezier → bezier.WellFormed
  placed : ∀ items, item.members? = some items →
    ∃ last, items.getLast? = some last ∧ last.tag = .transform

/-- A layer that fits on a timeline. -/
structure Layer.WellFormed (total : UInt32) (layer : Layer) : Prop where
  inPoint_lt : layer.inPoint < layer.outPoint
  outPoint_le : layer.outPoint ≤ total
  shapes_iff : layer.shapes.isSome = true ↔ layer.type = shapeType
  colour_iff : layer.solidColour.isSome = true ↔ layer.type = solidType
  height_iff : layer.solidHeight.isSome = true ↔ layer.type = solidType
  width_iff : layer.solidWidth.isSome = true ↔ layer.type = solidType
  transform : ∀ track ∈ layer.transform.tracks, track.WellFormed layer.inPoint layer.outPoint
  items : ∀ item ∈ layer.items, item.WellFormed layer.inPoint layer.outPoint
  placed_last : ∀ items ∈ layer.lists, ∀ item ∈ items.dropLast, item.tag ≠ .transform

/-- An animation whose layers fit on its timeline.  The lowest layer, and no other, is a
plain rectangle, and it ends one frame early. -/
structure Animation.WellFormed (animation : Animation) : Prop where
  layers : ∀ layer ∈ animation.layers, layer.WellFormed animation.outPoint
  ground : ∃ above plain, animation.layers = above ++ [plain] ∧
    (∀ layer ∈ above, layer.type = Layer.shapeType) ∧ plain.type = Layer.solidType ∧
      plain.outPoint.toNat + 1 = animation.outPoint.toNat

/-! ## Properties that never change -/

theorem Track.wellFormed_fixed {α : Type} (start stop : UInt32) (value : α)
    (index : Option UInt8) :
    (Property.track ⟨0, .fixed value, index⟩).WellFormed start stop where
  flag_iff := by simp [Property.track, Property.keyframes?]
  running := by
    intro frames h
    cases h

theorem Track.wellFormed_animated {start stop : UInt32} {frames : List Keyframe}
    (h : Running start stop frames) (α : Type) (index : UInt8) :
    ((Property.animated frames : Property α).withIndex index).track.WellFormed start stop where
  flag_iff := by simp [Property.track, Property.withIndex, Property.animated, Property.keyframes?]
  running := by
    intro other hother
    cases hother
    exact h

theorem wellFormed_tracks_identity (start stop : UInt32) :
    ∀ track ∈ Transform.identity.tracks, track.WellFormed start stop := by
  intro track htrack
  simp only [Transform.tracks, Transform.identity, List.mem_cons, List.not_mem_nil,
    or_false] at htrack
  rcases htrack with rfl | rfl | rfl | rfl | rfl | rfl | rfl <;>
    exact Track.wellFormed_fixed start stop _ _

/-- Items that are no groups have no items inside them. -/
theorem itemsWithin_of_plain {items : List ShapeItem} (h : ∀ item ∈ items, item.tag ≠ .group) :
    itemsWithin items = items := by
  induction items with
  | nil => rfl
  | cons item rest ih =>
    have hitem : item.within = [item] := by
      cases item with
      | group inner name => exact absurd rfl (h _ List.mem_cons_self)
      | ellipse ellipse => rfl
      | curve curve => rfl
      | style style => rfl
      | trim trim => rfl
      | transform transform => rfl
    rw [itemsWithin, hitem, ih fun other hother => h other (List.mem_cons_of_mem item hother)]
    rfl

theorem filterMap_members?_of_plain {items : List ShapeItem}
    (h : ∀ item ∈ items, item.tag ≠ .group) : items.filterMap ShapeItem.members? = [] := by
  rw [List.filterMap_eq_nil_iff]
  intro item hitem
  cases item with
  | group inner name => exact absurd rfl (h _ hitem)
  | ellipse ellipse => rfl
  | curve curve => rfl
  | style style => rfl
  | trim trim => rfl
  | transform transform => rfl

theorem ShapeItem.wellFormed_style {start stop : UInt32} (colour : Rgba) (width : Float)
    (lineJoin : UInt8) : (strokeStyle colour width lineJoin).WellFormed start stop where
  tracks := by
    intro track htrack
    simp only [strokeStyle, tracks, List.mem_cons, List.not_mem_nil, or_false] at htrack
    rcases htrack with rfl | rfl | rfl <;> exact Track.wellFormed_fixed start stop _ _
  course := nofun
  placed := nofun

theorem ShapeItem.wellFormed_transform {start stop : UInt32} {transform : Transform}
    (h : ∀ track ∈ transform.tracks, track.WellFormed start stop) :
    (ShapeItem.transform transform).WellFormed start stop where
  tracks := h
  course := nofun
  placed := nofun

theorem ShapeItem.wellFormed_curve {start stop : UInt32} {bezier : Bezier}
    (h : bezier.WellFormed) (name : Option String) :
    (ShapeItem.curve ⟨.fixed bezier, name⟩).WellFormed start stop where
  tracks := by
    intro track htrack
    rw [tracks, List.mem_singleton] at htrack
    rw [htrack]
    exact Track.wellFormed_fixed start stop _ _
  course := by
    intro other hother
    cases hother
    exact h
  placed := nofun

theorem Layer.wellFormed_solid {start stop total : UInt32} (hstart : start < stop)
    (hstop : stop ≤ total) (name colour : String) (width height : UInt32) :
    (solid name start stop colour width height).WellFormed total where
  inPoint_lt := hstart
  outPoint_le := hstop
  shapes_iff := by simp [solid, shapeType, solidType]
  colour_iff := by simp [solid]
  height_iff := by simp [solid]
  width_iff := by simp [solid]
  transform := wellFormed_tracks_identity start stop
  items := nofun
  placed_last := nofun

/-- Shapes without a group make a layer if each of them fits and only the last one may be
a transform. -/
theorem Layer.wellFormed_ofShapes {name : String} {start stop startTime total : UInt32}
    {shapes : List ShapeItem} (hstart : start < stop) (hstop : stop ≤ total)
    (hitems : ∀ item ∈ shapes, item.WellFormed start stop)
    (hplain : ∀ item ∈ shapes, item.tag ≠ .group)
    (hplaced : ∀ item ∈ shapes.dropLast, item.tag ≠ .transform) :
    (ofShapes name start stop startTime shapes).WellFormed total where
  inPoint_lt := hstart
  outPoint_le := hstop
  shapes_iff := by simp [ofShapes]
  colour_iff := by simp [ofShapes, shapeType, solidType]
  height_iff := by simp [ofShapes, shapeType, solidType]
  width_iff := by simp [ofShapes, shapeType, solidType]
  transform := wellFormed_tracks_identity start stop
  items := by
    intro item hitem
    have hmem : item ∈ itemsWithin shapes := hitem
    rw [itemsWithin_of_plain hplain] at hmem
    exact hitems item hmem
  placed_last := by
    have hnone : (itemsWithin shapes).filterMap ShapeItem.members? = [] := by
      rw [itemsWithin_of_plain hplain, filterMap_members?_of_plain hplain]
    intro items hlist
    have hmem : items ∈ [shapes] ++ (itemsWithin shapes).filterMap ShapeItem.members? := hlist
    rw [hnone, List.append_nil, List.mem_singleton] at hmem
    rw [hmem]
    exact hplaced

/-- So does a group of such shapes with a transform at its end. -/
theorem Layer.wellFormed_ofGroup {name : String} {start stop startTime total : UInt32}
    {shapes : List ShapeItem} {placing : Transform} (hstart : start < stop) (hstop : stop ≤ total)
    (hitems : ∀ item ∈ shapes, item.WellFormed start stop)
    (hplain : ∀ item ∈ shapes, item.tag ≠ .group)
    (hplaced : ∀ item ∈ shapes, item.tag ≠ .transform)
    (hplacing : ∀ track ∈ placing.tracks, track.WellFormed start stop) :
    (ofShapes name start stop startTime
      [.group (shapes ++ [.transform placing]) none]).WellFormed total := by
  have hall : ∀ item ∈ shapes ++ [.transform placing], item.tag ≠ .group := by
    intro item hitem
    rcases List.mem_append.mp hitem with hshape | hlast
    · exact hplain item hshape
    · rw [List.mem_singleton.mp hlast]
      nofun
  have hwithin : itemsWithin [.group (shapes ++ [.transform placing]) none] =
      .group (shapes ++ [.transform placing]) none :: (shapes ++ [.transform placing]) := by
    rw [itemsWithin, ShapeItem.within, itemsWithin_of_plain hall, itemsWithin, List.append_nil]
  have hlist : (itemsWithin [.group (shapes ++ [.transform placing]) none]).filterMap
      ShapeItem.members? = [shapes ++ [.transform placing]] := by
    rw [hwithin, List.filterMap_cons, filterMap_members?_of_plain hall]
    rfl
  refine ⟨hstart, hstop, by simp [ofShapes], by simp [ofShapes, shapeType, solidType],
    by simp [ofShapes, shapeType, solidType], by simp [ofShapes, shapeType, solidType],
    wellFormed_tracks_identity start stop, ?_, ?_⟩
  · intro item hitem
    have hmem : item ∈ itemsWithin [.group (shapes ++ [.transform placing]) none] := hitem
    rw [hwithin] at hmem
    rcases List.mem_cons.mp hmem with rfl | hmem
    · refine ⟨nofun, nofun, ?_⟩
      rintro items ⟨rfl⟩
      exact ⟨.transform placing, List.getLast?_concat, rfl⟩
    · rcases List.mem_append.mp hmem with hshape | hlast
      · exact hitems item hshape
      · rw [List.mem_singleton.mp hlast]
        exact ShapeItem.wellFormed_transform hplacing
  · intro items hmem
    have hmem : items ∈ [[ShapeItem.group (shapes ++ [.transform placing]) none]] ++
        (itemsWithin [.group (shapes ++ [.transform placing]) none]).filterMap
          ShapeItem.members? := hmem
    rw [hlist, List.mem_append, List.mem_singleton, List.mem_singleton] at hmem
    rcases hmem with rfl | rfl
    · nofun
    · rw [List.dropLast_concat]
      exact hplaced

end Lottie

/-! ## Frames of a window -/

open Lottie (Running Track)

theorem Lottie.running_of_times {start stop : UInt32} {frames : List Keyframe} (times : List Nat)
    (hframes : (frames.map fun frame => frame.time.toNat) = start.toNat :: times)
    (hascending : (start.toNat :: times).Pairwise (· < ·))
    (hstops : ∀ time ∈ start.toNat :: times, time ≤ stop.toNat + 1) :
    Running start stop frames where
  starts := by
    cases frames with
    | nil => cases hframes
    | cons first rest =>
      obtain ⟨hfirst, -⟩ := List.cons.inj hframes
      exact congrArg some (UInt32.toNat_inj.mp hfirst)
  ascending := by
    rw [← hframes, List.pairwise_map] at hascending
    exact hascending.imp UInt32.lt_iff_toNat_lt.mpr
  stops := by
    rw [← hframes] at hstops
    exact List.forall_mem_map.mp hstops

namespace FrameWindow

/-- A window that has a frame, lies on a timeline, and leaves room for one frame after
it. -/
structure Fits (total : UInt32) (window : FrameWindow) : Prop where
  start_lt : window.start < window.stop
  stop_le : window.stop ≤ total
  room : window.stop.toNat + 1 < 2 ^ 32

namespace Fits

variable {total : UInt32} {window : FrameWindow}

theorem toNat_lt (fits : window.Fits total) : window.start.toNat < window.stop.toNat :=
  UInt32.lt_iff_toNat_lt.mp fits.start_lt

theorem offFrame_eq (fits : window.Fits total) :
    window.offFrame = window.stop.toNat + 1 := by
  have hlt := fits.toNat_lt
  rw [offFrame]
  omega

theorem running_trim (fits : window.Fits total) :
    Running window.start window.stop
      [.eased window.start 0.0 (.single 0.3 1.0) (.single 0.333 0.0),
        .hold window.stop 100.0] := by
  have hlt := fits.toNat_lt
  refine Lottie.running_of_times [window.stop.toNat] rfl ?_ ?_
  · simp only [List.pairwise_pair]
    exact hlt
  · simp only [List.mem_cons, List.not_mem_nil, or_false, forall_eq_or_imp, forall_eq]
    omega

theorem running_opacity (fits : window.Fits total) {frames : List Keyframe}
    (hframes : opacityKeyframes window = some frames) :
    Running window.start window.stop frames := by
  have hlt := fits.toNat_lt
  have hreach := fits.offFrame_eq
  obtain ⟨on, off, hon, hoff, rfl⟩ := opacityKeyframes_eq_some_iff.mp hframes
  by_cases hlong : on < window.stop
  · have honlt := UInt32.lt_iff_toNat_lt.mp hlong
    refine Lottie.running_of_times
      [window.start.toNat + 1, window.stop.toNat, window.offFrame] ?_ ?_ ?_
    · rw [← hoff, ← hon, if_pos hlong]
      rfl
    · simp only [List.pairwise_cons, List.mem_cons, List.not_mem_nil, or_false, forall_eq_or_imp,
        forall_eq, false_implies, implies_true, List.Pairwise.nil, and_true]
      omega
    · simp only [List.mem_cons, List.not_mem_nil, or_false, forall_eq_or_imp, forall_eq]
      omega
  · refine Lottie.running_of_times [window.start.toNat + 1, window.offFrame] ?_ ?_ ?_
    · rw [← hoff, ← hon, if_neg hlong]
      rfl
    · simp only [List.pairwise_cons, List.mem_cons, List.not_mem_nil, or_false, forall_eq_or_imp,
        forall_eq, false_implies, implies_true, List.Pairwise.nil, and_true]
      omega
    · simp only [List.mem_cons, List.not_mem_nil, or_false, forall_eq_or_imp, forall_eq]
      omega

end Fits
end FrameWindow

/-! ## Items of a document -/

theorem wellFormed_nodeCircle (start stop : UInt32) (point : Point) :
    (nodeCircle point).WellFormed start stop where
  tracks := by
    intro track htrack
    simp only [nodeCircle, ShapeItem.tracks, List.mem_cons, List.not_mem_nil, or_false] at htrack
    rcases htrack with rfl | rfl <;> exact Track.wellFormed_fixed start stop _ _
  course := nofun
  placed := nofun

theorem wellFormed_trimOver {total : UInt32} {window : FrameWindow} (fits : window.Fits total) :
    (ShapeItem.trim (trimOver window)).WellFormed window.start window.stop := by
  refine ⟨?_, nofun, nofun⟩
  intro track htrack
  simp only [trimOver, ShapeItem.tracks, List.mem_cons, List.not_mem_nil, or_false] at htrack
  rcases htrack with rfl | rfl | rfl
  · exact Track.wellFormed_fixed _ _ _ _
  · exact Track.wellFormed_animated fits.running_trim Float 2
  · exact Track.wellFormed_fixed _ _ _ _

theorem wellFormed_opacityOver {start stop : UInt32} {frames : List Keyframe}
    (h : Running start stop frames) :
    (ShapeItem.transform (opacityOver frames)).WellFormed start stop := by
  refine Lottie.ShapeItem.wellFormed_transform ?_
  intro track htrack
  simp only [opacityOver, Transform.tracks, Transform.identity, List.mem_cons,
    List.not_mem_nil, or_false] at htrack
  rcases htrack with rfl | rfl | rfl | rfl | rfl | rfl | rfl
  case inr.inr.inr.inr.inl => exact Track.wellFormed_animated h Float 11
  all_goals exact Track.wellFormed_fixed _ _ _ _

theorem wellFormed_effectShape {total : UInt32} {window : FrameWindow} (fits : window.Fits total)
    {effect : Effect} {item : ShapeItem} (h : effectShape window effect = some item) :
    item.WellFormed window.start window.stop := by
  rcases effectShape_eq_some_iff.mp h with ⟨-, rfl⟩ | ⟨-, frames, hframes, rfl⟩
  · exact wellFormed_trimOver fits
  · exact wellFormed_opacityOver (fits.running_opacity hframes)

theorem wellFormed_polyline (start stop : UInt32) {points : List Point} (h : 2 ≤ points.length) :
    (polyline points).WellFormed start stop := by
  refine ShapeItem.wellFormed_curve ?_ none
  exact ⟨List.length_map _, List.length_map _, h, rfl⟩

theorem wellFormed_pathCurve (start stop : UInt32) (code : GlyphCode) (points : Projection)
    (source : RandomSource) :
    (pathCurve (StrokePath.ofEdges (code.edges points) source).1).WellFormed start stop := by
  refine ShapeItem.wellFormed_curve ?_ none
  refine ⟨StrokePath.length_arrivals _ _ _, List.length_map _, ?_, rfl⟩
  have hlength : (chainVertices (code.edges points)).length = code.nodes.length := by
    rw [chainVertices_edges, List.length_map]
  exact hlength ▸ code.two_le_length

theorem two_le_length_of_ofChar? {c : Char} {letter : Letterform}
    (h : Letterform.ofChar? c = some letter) : ∀ stroke ∈ letter.strokes, 2 ≤ stroke.length := by
  have table : ∀ entry ∈ cellStrokes, ∀ stroke ∈ entry.2, 2 ≤ stroke.length := by decide
  obtain ⟨entry, hentry, rfl⟩ := exists_cell_of_ofChar? h
  intro stroke hstroke
  obtain ⟨cellStroke, hmem, rfl⟩ := List.mem_map.mp hstroke
  rw [List.length_map]
  exact table entry hentry cellStroke hmem

/-! ## Layers of a document -/

theorem WordPlace.fits_window (place : WordPlace) {total : UInt32} (two_le : 2 ≤ total)
    (room : total.toNat + 1 < 2 ^ 32) : (place.window total).Fits total := by
  have htotal : 2 ≤ total.toNat := UInt32.le_iff_toNat_le.mp two_le
  have hstop := wordStop_le place.words total.toNat place.word
  refine ⟨?_, ?_, ?_⟩
  · rw [UInt32.lt_iff_toNat_lt, place.toNat_start_window, place.toNat_stop_window]
    exact wordStart_lt_wordStop (by omega) place.word_lt
  · rw [UInt32.le_iff_toNat_le, place.toNat_stop_window]
    exact hstop
  · rw [place.toNat_stop_window]
    omega

namespace Layer

theorem wellFormed_grid {nodes : Projection} {total : UInt32} (two_le : 2 ≤ total)
    {wire : Lottie.Layer} (hwire : (grid nodes total).toLottie = some wire) :
    wire.WellFormed total := by
  cases hwire
  have hshapes : ∀ item ∈ gridShapes nodes, item.WellFormed 0 total ∧
      item.tag ≠ .group ∧ item.tag ≠ .transform := by
    intro item hitem
    rcases List.mem_append.mp hitem with hnode | hstyle
    · obtain ⟨point, -, rfl⟩ := List.mem_map.mp hnode
      exact ⟨wellFormed_nodeCircle 0 total point, nofun, nofun⟩
    · rw [List.mem_singleton.mp hstyle]
      exact ⟨Lottie.ShapeItem.wellFormed_style _ _ _, nofun, nofun⟩
  refine Lottie.Layer.wellFormed_ofShapes ?_ (UInt32.le_refl total)
    (fun item hitem => (hshapes item hitem).1) (fun item hitem => (hshapes item hitem).2.1)
    (fun item hitem => (hshapes item (List.dropLast_subset _ hitem)).2.2)
  have htotal : 2 ≤ total.toNat := UInt32.le_iff_toNat_le.mp two_le
  rw [UInt32.lt_iff_toNat_lt]
  exact Nat.lt_of_lt_of_le Nat.two_pos htotal

theorem toNat_stop_background (colour : String) (width height : UInt32) {total : UInt32}
    (two_le : 2 ≤ total) :
    (background colour width height total).window.stop.toNat + 1 = total.toNat := by
  have htotal : 2 ≤ total.toNat := UInt32.le_iff_toNat_le.mp two_le
  have hone : (1 : UInt32).toNat = 1 := rfl
  have hle : (1 : UInt32) ≤ total := by
    rw [UInt32.le_iff_toNat_le, hone]
    omega
  have hzero : ¬total = 0 := by
    rintro rfl
    exact absurd htotal (by decide)
  show (if total = 0 then 0 else total - 1).toNat + 1 = total.toNat
  rw [if_neg hzero, UInt32.toNat_sub_of_le _ _ hle, hone]
  omega

theorem wellFormed_background {colour : String} {width height total : UInt32}
    (two_le : 2 ≤ total) {wire : Lottie.Layer}
    (hwire : (background colour width height total).toLottie = some wire) :
    wire.WellFormed total := by
  cases hwire
  have htotal : 2 ≤ total.toNat := UInt32.le_iff_toNat_le.mp two_le
  have hstop := toNat_stop_background colour width height two_le
  refine Lottie.Layer.wellFormed_solid ?_ ?_ _ _ _ _
  · have hzero : (background colour width height total).window.start.toNat = 0 := rfl
    rw [UInt32.lt_iff_toNat_lt, hzero]
    omega
  · rw [UInt32.le_iff_toNat_le]
    omega

/-- A letter is one group, whose last item is its placement. -/
theorem wellFormed_caption {window : FrameWindow} {total : UInt32} (fits : window.Fits total)
    {caption : CaptionLayer} (hstrokes : ∀ stroke ∈ caption.letter.strokes, 2 ≤ stroke.length)
    {name : String} {wire : Lottie.Layer}
    (hwire : Layer.toLottie ⟨name, window, .caption caption⟩ = some wire) :
    wire.WellFormed total := by
  cases hwire
  -- The members that only letters have do not matter here.
  suffices h : (Lottie.Layer.ofShapes name window.start window.stop 0
      (captionShapes caption)).WellFormed total from
    ⟨h.inPoint_lt, h.outPoint_le, h.shapes_iff, h.colour_iff, h.height_iff, h.width_iff,
      h.transform, h.items, h.placed_last⟩
  have hshapes : ∀ item ∈ caption.letter.strokes.map polyline ++ [strokeStyle .white 2.0 2],
      item.WellFormed window.start window.stop ∧ item.tag ≠ .group ∧ item.tag ≠ .transform := by
    intro item hitem
    rcases List.mem_append.mp hitem with hcurve | hstyle
    · obtain ⟨stroke, hstroke, rfl⟩ := List.mem_map.mp hcurve
      exact ⟨wellFormed_polyline _ _ (hstrokes stroke hstroke), nofun, nofun⟩
    · rw [List.mem_singleton.mp hstyle]
      exact ⟨Lottie.ShapeItem.wellFormed_style _ _ _, nofun, nofun⟩
  have hsplit : ∀ last : ShapeItem,
      caption.letter.strokes.map polyline ++ [strokeStyle .white 2.0 2, last] =
        caption.letter.strokes.map polyline ++ [strokeStyle .white 2.0 2] ++ [last] := by
    intro last
    rw [List.append_assoc]
    rfl
  rw [captionShapes, hsplit]
  refine Lottie.Layer.wellFormed_ofGroup fits.start_lt fits.stop_le
    (fun item hitem => (hshapes item hitem).1) (fun item hitem => (hshapes item hitem).2.1)
    (fun item hitem => (hshapes item hitem).2.2) ?_
  intro track htrack
  simp only [Transform.tracks, Transform.identity, List.mem_cons, List.not_mem_nil,
    or_false] at htrack
  rcases htrack with rfl | rfl | rfl | rfl | rfl | rfl | rfl <;>
    exact Track.wellFormed_fixed _ _ _ _

end Layer

namespace Scene

theorem wellFormed_wordStroke {scene : Scene} {drawn : WordPlace × StrokePath}
    {source : RandomSource}
    (fits : (drawn.1.window scene.settings.totalFrames).Fits scene.settings.totalFrames)
    (hpath : drawn.2 = (StrokePath.ofEdges (drawn.1.glyph.code.edges scene.points) source).1)
    {wire : Lottie.Layer} (hwire : (scene.wordStroke drawn).toLottie = some wire) :
    wire.WellFormed scene.settings.totalFrames := by
  obtain ⟨shapes, hshapes, rfl⟩ := (Layer.toLottie_stroke_eq_some_iff rfl).mp hwire
  obtain ⟨items, hitems, rfl⟩ := strokeShapes_eq_some_iff.mp hshapes
  refine Lottie.Layer.wellFormed_ofShapes fits.start_lt fits.stop_le ?_ ?_ ?_
  · intro item hitem
    rcases List.mem_append.mp hitem with hdrawn | heffect
    · simp only [List.mem_cons, List.not_mem_nil, or_false] at hdrawn
      rcases hdrawn with rfl | rfl
      · show (pathCurve drawn.2).WellFormed _ _
        rw [hpath]
        exact wellFormed_pathCurve _ _ _ _ _
      · exact Lottie.ShapeItem.wellFormed_style _ _ _
    · obtain ⟨effect, -, heffect⟩ := exists_of_forall₂_right hitems heffect
      exact wellFormed_effectShape fits heffect
  · exact plain_strokeShapes hshapes
  · -- The transform comes last, after the trim.
    cases hanimated : scene.options.animated with
    | true =>
      rw [if_pos hanimated] at hitems
      obtain ⟨trim, rest, htrim, hrest, rfl⟩ := List.forall₂_cons_left_iff.mp hitems
      obtain ⟨opacity, rest, -, hnone, rfl⟩ := List.forall₂_cons_left_iff.mp hrest
      cases hnone
      cases htrim
      simp only [List.cons_append, List.nil_append, List.dropLast, List.mem_cons,
        List.not_mem_nil, or_false]
      rintro item (rfl | rfl | rfl) <;> nofun
    | false =>
      rw [if_neg (ne_true_of_eq_false hanimated)] at hitems
      cases hitems
      simp only [List.append_nil, List.dropLast, List.mem_singleton]
      rintro item rfl
      nofun

theorem wellFormed_of_mem_letters {scene : Scene} {place : WordPlace} {layer : Layer}
    (fits : (place.window scene.settings.totalFrames).Fits scene.settings.totalFrames)
    (h : layer ∈ scene.letters place) {wire : Lottie.Layer} (hwire : layer.toLottie = some wire) :
    wire.WellFormed scene.settings.totalFrames := by
  rw [letters] at h
  split at h
  case isFalse => cases h
  obtain ⟨⟨c, position⟩, -, hletter⟩ := List.mem_filterMap.mp h
  obtain ⟨letter, hc, rfl⟩ := Option.map_eq_some_iff.mp hletter
  exact Layer.wellFormed_caption fits (two_le_length_of_ofChar? hc) hwire

theorem type_of_mem_letters {scene : Scene} {place : WordPlace} {layer : Layer}
    (h : layer ∈ scene.letters place) {wire : Lottie.Layer} (hwire : layer.toLottie = some wire) :
    wire.type = Lottie.Layer.shapeType := by
  obtain ⟨caption, hkind⟩ := exists_caption_of_mem_letters h
  rw [Layer.toLottie, hkind] at hwire
  cases hwire
  rfl

/-- Every layer above the background has shapes and is well-formed. -/
theorem wellFormed_above {scene : Scene} {places : List WordPlace} {source : RandomSource}
    (two_le : 2 ≤ scene.settings.totalFrames)
    (room : scene.settings.totalFrames.toNat + 1 < 2 ^ 32) {layer : Layer}
    (h : layer ∈ scene.wordStack (drawWords scene.points places source).1 ++
      [Layer.grid scene.points scene.settings.totalFrames])
    {wire : Lottie.Layer} (hwire : layer.toLottie = some wire) :
    wire.WellFormed scene.settings.totalFrames ∧ wire.type = Lottie.Layer.shapeType := by
  rcases List.mem_append.mp h with hword | hgrid
  · obtain ⟨drawn, hdrawn, hlayer⟩ := mem_wordStack.mp hword
    have fits := drawn.1.fits_window two_le room
    rcases hlayer with hletter | rfl
    · exact ⟨wellFormed_of_mem_letters fits hletter hwire, type_of_mem_letters hletter hwire⟩
    · obtain ⟨start, hstart⟩ := path_of_mem_drawWords hdrawn
      have hwell := wellFormed_wordStroke fits hstart hwire
      obtain ⟨_, -, rfl⟩ := (Layer.toLottie_stroke_eq_some_iff rfl).mp hwire
      exact ⟨hwell, rfl⟩
  · rw [List.mem_singleton.mp hgrid] at hwire
    exact ⟨Layer.wellFormed_grid two_le hwire, by cases hwire; rfl⟩

/-- The background is the lowest layer of an animation. -/
theorem layers_toLottie {scene : Scene} {above : List Layer} {animation : Lottie.Animation}
    (h : (scene.document (above ++ scene.ground)).toLottie = some animation) :
    ∃ wires plain, List.Forall₂ (fun layer wire => layer.toLottie = some wire)
        (above ++ [Layer.grid scene.points scene.settings.totalFrames]) wires ∧
      (Layer.background scene.settings.background scene.settings.width scene.settings.height
        scene.settings.totalFrames).toLottie = some plain ∧
      animation = (scene.document (above ++ scene.ground)).animationOf (wires ++ [plain]) := by
  obtain ⟨layers, hlayers, rfl⟩ := AnimationDocument.toLottie_eq_some_iff.mp h
  have hsplit : above ++ scene.ground =
      above ++ [Layer.grid scene.points scene.settings.totalFrames] ++
        [Layer.background scene.settings.background scene.settings.width scene.settings.height
          scene.settings.totalFrames] := by
    rw [ground, List.append_assoc]
    rfl
  have hstack : (scene.document (above ++ scene.ground)).layers = _ := hsplit
  rw [hstack] at hlayers
  obtain ⟨wires, plain, rfl, hwires, hplain⟩ := forall₂_concat_left hlayers
  exact ⟨wires, plain, hwires, hplain, rfl⟩

theorem wellFormed_document {scene : Scene} {places : List WordPlace} {source : RandomSource}
    (two_le : 2 ≤ scene.settings.totalFrames)
    (room : scene.settings.totalFrames.toNat + 1 < 2 ^ 32) {animation : Lottie.Animation}
    (h : (scene.document (scene.wordStack (drawWords scene.points places source).1 ++
      scene.ground)).toLottie = some animation) : animation.WellFormed := by
  obtain ⟨wires, plain, hwires, hplain, rfl⟩ := layers_toLottie h
  have habove : ∀ wire ∈ wires, wire.WellFormed scene.settings.totalFrames ∧
      wire.type = Lottie.Layer.shapeType := by
    intro wire hwire
    obtain ⟨layer, hlayer, hlottie⟩ := exists_of_forall₂_right hwires hwire
    exact wellFormed_above two_le room hlayer hlottie
  refine ⟨?_, wires, plain, rfl, fun wire hwire => (habove wire hwire).2, ?_, ?_⟩
  · intro wire hwire
    rcases List.mem_append.mp hwire with hmem | hlast
    · exact (habove wire hmem).1
    · rw [List.mem_singleton.mp hlast]
      exact Layer.wellFormed_background two_le hplain
  · cases hplain
    rfl
  · have hstop := Layer.toNat_stop_background scene.settings.background scene.settings.width
      scene.settings.height two_le
    rw [(Layer.outline_of_toLottie hplain).2.2]
    exact hstop

end Scene

namespace GlyphCompiler

/-- Every text with a glyph has an animation, which is well-formed, so long as the timeline has
two frames and the number after its last one is a word. -/
theorem wellFormed_toLottie (compiler : GlyphCompiler) (options : CompileOptions) {text : String}
    (source : RandomSource) (two_le : 2 ≤ compiler.settings.totalFrames)
    (room : compiler.settings.totalFrames.toNat + 1 < 2 ^ 32)
    (usable : (compiler.table.glyphLines text).all List.isEmpty = false) :
    ∃ document animation, (compiler.compile options text source).1 = some document ∧
      document.toLottie = some animation ∧ animation.WellFormed := by
  have hdocument := @compile_of_glyph compiler options text source usable
  obtain ⟨animation, hanimation⟩ := exists_toLottie hdocument fun _ => room
  exact ⟨_, animation, hdocument, hanimation,
    Scene.wellFormed_document two_le room hanimation⟩

/-- A line with a caption and more words than frames. -/
theorem wellFormed_on_two_frames :
    let compiler : GlyphCompiler :=
      ⟨.empty, { StickerSettings.standard with totalFrames := 2 }⟩
    2 ≤ compiler.settings.totalFrames ∧ compiler.settings.totalFrames.toNat + 1 < 2 ^ 32 ∧
      (compiler.table.glyphLines "01 23 0a3a0").all List.isEmpty = false ∧
        ∃ document animation,
          (compiler.compile .standard "01 23 0a3a0" (.ofSeed 1)).1 = some document ∧
            document.toLottie = some animation ∧ animation.WellFormed := by
  intro compiler
  have two_le : 2 ≤ compiler.settings.totalFrames := by decide
  have room : compiler.settings.totalFrames.toNat + 1 < 2 ^ 32 := by decide
  have usable : (compiler.table.glyphLines "01 23 0a3a0").all List.isEmpty = false := by
    decide
  exact ⟨two_le, room, usable,
    wellFormed_toLottie compiler .standard (.ofSeed 1) two_le room usable⟩

end GlyphCompiler
end AnimatedGlyph
