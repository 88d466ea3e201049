/-
How deep documents are nested.

A property has at most five levels whether it is fixed or animated, so an item that is no
group has six.  The only groups of a document are letters, and no group lies in another.
That bounds the depth of every document, far below what a reader allows.
-/
import AnimatedGlyph.Proofs.Accepting
import AnimatedGlyph.Proofs.Conversion

namespace AnimatedGlyph
namespace Json

@[simp]
theorem depth_bool (b : Bool) : (bool b).depth = 0 :=
  rfl

@[simp]
theorem depth_string (s : String) : (string s).depth = 0 :=
  rfl

@[simp]
theorem depth_ofUInt8 (n : UInt8) : (ofUInt8 n).depth = 0 :=
  rfl

@[simp]
theorem depth_ofUInt32 (n : UInt32) : (ofUInt32 n).depth = 0 :=
  rfl

theorem depth_ofList_le {α : Type} {encode : α → Json} (items : List α) {n : Nat}
    (h : ∀ a, (encode a).depth ≤ n) : (ofList encode items).depth ≤ n + 1 := by
  rw [ofList, depth_array_le]
  exact List.forall_mem_map.mpr fun a _ => h a

theorem depth_optionalMember_le {α : Type} {encode : α → Json} {n : Nat}
    (h : ∀ a, (encode a).depth ≤ n) (name : String) (field : Option α) :
    ∀ member ∈ optionalMember name encode field, member.2.depth ≤ n := by
  cases field with
  | none => exact nofun
  | some a => exact List.forall_mem_singleton.mpr (h a)

end Json

theorem depth_point_le (p : Point) : p.toJson.depth ≤ 1 := by
  rw [Point.toJson, Json.depth_array_le]
  simp [Json.depth_ofFloat]

theorem depth_rgba_le (c : Rgba) : c.toJson.depth ≤ 1 := by
  rw [Rgba.toJson, Json.depth_array_le]
  simp [Json.depth_ofFloat]

namespace Lottie

/-! ## Properties -/

theorem depth_floats_le (xs : List Float) : (Json.ofList .ofFloat xs).depth ≤ 1 :=
  Json.depth_ofList_le xs fun x => Nat.le_of_eq (Json.depth_ofFloat x)

theorem depth_easing_le (easing : Easing) : easing.toJson.depth ≤ 2 := by
  have htime := depth_floats_le easing.time
  have hvalue := depth_floats_le easing.value
  rw [Easing.toJson, Json.depth_object_le]
  exact List.forall_mem_cons.mpr ⟨htime, List.forall_mem_singleton.mpr hvalue⟩

theorem depth_keyframe_le (keyframe : Keyframe) : keyframe.toJson.depth ≤ 3 := by
  have hvalue := Nat.le_succ_of_le (depth_floats_le keyframe.value)
  rw [Keyframe.toJson, Json.depth_object_le, List.forall_mem_append, List.forall_mem_append]
  refine ⟨⟨Json.depth_optionalMember_le depth_easing_le "i" _,
    Json.depth_optionalMember_le depth_easing_le "o" _⟩, ?_⟩
  exact List.forall_mem_cons.mpr ⟨Nat.zero_le _, List.forall_mem_singleton.mpr hvalue⟩

theorem depth_bezier_le (bezier : Bezier) : bezier.toJson.depth ≤ 3 := by
  have hpoints : ∀ points : List Point, (Json.ofList Point.toJson points).depth ≤ 2 :=
    fun points => Json.depth_ofList_le points depth_point_le
  rw [Bezier.toJson, Json.depth_object_le]
  simp only [List.forall_mem_cons, hpoints, true_and]
  exact ⟨Nat.zero_le _, nofun⟩

theorem depth_property_le {α : Type} {encode : α → Json} (h : ∀ a, (encode a).depth ≤ 3)
    (property : Property α) : (property.toJson encode).depth ≤ 5 := by
  have hvalue : (property.value.toJson encode).depth ≤ 4 := by
    cases property.value with
    | keyframes frames => exact Json.depth_ofList_le frames depth_keyframe_le
    | fixed a => exact Nat.le_succ_of_le (h a)
  rw [Property.toJson, Json.depth_object_le, List.forall_mem_append]
  refine ⟨?_, Json.depth_optionalMember_le (fun _ => Nat.zero_le _) "ix" _⟩
  exact List.forall_mem_cons.mpr ⟨Nat.zero_le _, List.forall_mem_singleton.mpr hvalue⟩

theorem depth_pointProperty_le (property : Property Point) :
    (property.toJson Point.toJson).depth ≤ 5 :=
  depth_property_le (fun p => Nat.le_trans (depth_point_le p) (by decide)) property

theorem depth_floatProperty_le (property : Property Float) :
    (property.toJson .ofFloat).depth ≤ 5 :=
  depth_property_le (fun x => Nat.le_trans (Nat.le_of_eq (Json.depth_ofFloat x)) (by decide))
    property

/-! ## Items -/

theorem depth_transform_le (transform : Transform) : transform.toJson.depth ≤ 6 := by
  rw [Transform.toJson, Json.depth_object_le]
  simp [Transform.members, depth_pointProperty_le, depth_floatProperty_le]

theorem depth_tagged_le {tag : ShapeTag} {members : List (String × Json)} {n : Nat}
    (h : ∀ member ∈ members, member.2.depth ≤ n) : (tagged tag members).depth ≤ n + 1 :=
  Json.depth_object_le.mpr (List.forall_mem_cons.mpr ⟨Nat.zero_le _, h⟩)

/-- An item has six levels, unless it is a group. -/
theorem depth_plain_le {item : ShapeItem} (h : item.tag ≠ .group) : item.toJson.depth ≤ 6 := by
  cases item with
  | ellipse item =>
    refine depth_tagged_le ?_
    simp [Ellipse.members, depth_pointProperty_le]
  | curve item =>
    refine depth_tagged_le (List.forall_mem_append.mpr ⟨?_, ?_⟩)
    · exact List.forall_mem_singleton.mpr (depth_property_le depth_bezier_le item.course)
    · exact Json.depth_optionalMember_le (fun _ => Nat.zero_le _) "nm" item.name
  | style item =>
    have hcolour := depth_property_le
      (fun c => Nat.le_trans (depth_rgba_le c) (by decide)) item.colour
    refine depth_tagged_le ?_
    simp [StrokeStyle.members, hcolour, depth_floatProperty_le, Json.depth_ofFloat]
  | trim item =>
    refine depth_tagged_le ?_
    simp [Trim.members, depth_floatProperty_le]
  | transform item => exact depth_tagged_le (Json.depth_object_le.mp (depth_transform_le item))
  | group items name => exact absurd rfl h

/-- A group of plain items has two levels more. -/
theorem depth_group_le {items : List ShapeItem} (h : ∀ item ∈ items, item.tag ≠ .group)
    (name : Option String) : (ShapeItem.group items name).toJson.depth ≤ 8 := by
  have hitems : (Json.array (itemsToJson items)).depth ≤ 7 := by
    rw [Json.depth_array_le, itemsToJson_eq_map]
    exact List.forall_mem_map.mpr fun item hitem => depth_plain_le (h item hitem)
  refine depth_tagged_le (List.forall_mem_append.mpr ⟨?_, ?_⟩)
  · exact List.forall_mem_singleton.mpr hitems
  · exact Json.depth_optionalMember_le (fun _ => Nat.zero_le _) "nm" name

/-! ## Layers -/

theorem depth_layer_le {layer : Layer}
    (h : ∀ items, layer.shapes = some items → ∀ item ∈ items, item.toJson.depth ≤ 8) :
    layer.toJson.depth ≤ 10 := by
  have htransform := Nat.le_trans (depth_transform_le layer.transform) (by decide : 6 ≤ 9)
  have hshapes : ∀ member ∈ Json.optionalMember "shapes"
      (fun items => .array (itemsToJson items)) layer.shapes, member.2.depth ≤ 9 := by
    cases hlayer : layer.shapes with
    | none => exact nofun
    | some items =>
      refine List.forall_mem_singleton.mpr ?_
      rw [Json.depth_array_le, itemsToJson_eq_map]
      exact List.forall_mem_map.mpr (h items hlayer)
  have hleaf : ∀ {α : Type} {encode : α → Json}, (∀ a, (encode a).depth = 0) →
      ∀ (name : String) (field : Option α),
        ∀ member ∈ Json.optionalMember name encode field, member.2.depth ≤ 9 :=
    fun hencode => Json.depth_optionalMember_le fun a =>
      Nat.le_trans (Nat.le_of_eq (hencode a)) (Nat.zero_le _)
  rw [Layer.toJson, Json.depth_object_le]
  simp only [List.forall_mem_append]
  refine ⟨⟨⟨⟨⟨⟨⟨⟨⟨⟨?_, hleaf Json.depth_ofUInt8 "ddd" _⟩, hleaf Json.depth_ofUInt32 "ind" _⟩,
    hleaf Json.depth_ofFloat "sr" _⟩, ?_⟩, hleaf Json.depth_ofUInt8 "ao" _⟩,
    hleaf Json.depth_ofUInt8 "bm" _⟩, hshapes⟩, hleaf Json.depth_string "sc" _⟩,
    hleaf Json.depth_ofUInt32 "sh" _⟩, hleaf Json.depth_ofUInt32 "sw" _⟩
  · simp
  · simp [htransform]

theorem depth_animation_le {animation : Animation}
    (h : ∀ layer ∈ animation.layers, layer.toJson.depth ≤ 10) : animation.toJson.depth ≤ 12 := by
  have hlayers : (Json.ofList Layer.toJson animation.layers).depth ≤ 11 := by
    rw [Json.ofList, Json.depth_array_le]
    exact List.forall_mem_map.mpr h
  have hgenerator : (Json.object [("g", .string animation.generator)]).depth ≤ 11 :=
    Json.depth_object_le.mpr (List.forall_mem_singleton.mpr (Nat.zero_le _))
  rw [Animation.toJson, Json.depth_object_le]
  simp [hlayers, hgenerator, Json.depth_ofFloat]

end Lottie

/-! ## Documents -/

theorem depth_captionShapes_le (caption : CaptionLayer) :
    ∀ item ∈ captionShapes caption, item.toJson.depth ≤ 8 := by
  refine List.forall_mem_singleton.mpr (Lottie.depth_group_le ?_ none)
  refine List.forall_mem_append.mpr ⟨List.forall_mem_map.mpr fun _ _ => nofun, ?_⟩
  exact List.forall_mem_cons.mpr ⟨nofun, List.forall_mem_singleton.mpr nofun⟩

theorem Layer.depth_toLottie_le {layer : Layer} {wire : Lottie.Layer}
    (h : layer.toLottie = some wire) : wire.toJson.depth ≤ 10 := by
  have hplain : ∀ {items : List Lottie.ShapeItem}, (∀ item ∈ items, item.tag ≠ .group) →
      ∀ item ∈ items, item.toJson.depth ≤ 8 :=
    fun h item hitem => Nat.le_trans (Lottie.depth_plain_le (h item hitem)) (by decide)
  obtain ⟨name, window, kind⟩ := layer
  refine Lottie.depth_layer_le ?_
  intro items hitems
  cases kind with
  | grid nodes =>
    cases h
    cases hitems
    refine hplain (List.forall_mem_append.mpr ⟨?_, List.forall_mem_singleton.mpr nofun⟩)
    exact List.forall_mem_map.mpr fun _ _ => nofun
  | background plain =>
    cases h
    cases hitems
  | stroke stroke =>
    obtain ⟨shapes, hshapes, rfl⟩ := (toLottie_stroke_eq_some_iff rfl).mp h
    cases hitems
    exact hplain (plain_strokeShapes hshapes)
  | caption caption =>
    cases h
    cases hitems
    exact depth_captionShapes_le caption

theorem AnimationDocument.depth_toLottie_le {document : AnimationDocument}
    {animation : Lottie.Animation} (h : document.toLottie = some animation) :
    animation.toJson.depth ≤ Json.nestingLimit := by
  have hdepth : animation.toJson.depth ≤ 12 := by
    refine Lottie.depth_animation_le fun wire hwire => ?_
    obtain ⟨layer, -, hlayer⟩ := AnimationDocument.exists_of_mem_layers h hwire
    exact Layer.depth_toLottie_le hlayer
  exact Nat.le_trans hdepth (by decide)

end AnimatedGlyph
