/-
Animations that read back.

Every part of an animation is restored from the JSON value that is written for it.  Two
places need more than that their parts are.  The value of a property may be a list of
keyframes or a fixed value and does not say which, so `FixedValue` asks of a type of fixed
values that none is written as a list of keyframes and that no list of objects reads as
one.  An item says what it is by a tag, and the items of a group are read with one unit of
fuel less, so the induction there is on the fuel and not on the item.
-/
import AnimatedGlyph.Lottie.Animation
import AnimatedGlyph.Proofs.Restoring

namespace AnimatedGlyph

open Json (Decoder Restores Takes Draft takes_map takes_seq takes_required takes_optional
  takes_optional_plain restores_string restores_bool restores_uint8 restores_uint32 restores_float
  restores_list string_ne_null array_ne_null object_ne_null ofUInt8_ne_null ofUInt32_ne_null)

/-! ## Floats of an animation -/

/-- The coordinates of a point. -/
def Point.floats (p : Point) : List Float :=
  [p.x, p.y]

/-- The channels of a colour. -/
def Rgba.floats (c : Rgba) : List Float :=
  [c.red, c.green, c.blue, c.alpha]

namespace Lottie

/-- A double as the floats of a value that has no others. -/
def oneFloat (x : Float) : List Float :=
  [x]

/-- The floats of a handle. -/
def Easing.floats (easing : Easing) : List Float :=
  easing.time ++ easing.value

def Keyframe.floats (keyframe : Keyframe) : List Float :=
  keyframe.easeIn.elim [] Easing.floats ++ keyframe.easeOut.elim [] Easing.floats ++
    keyframe.value

/-- The floats of a property over time, given those of a fixed value. -/
def PropertyValue.floats {α : Type} (floats : α → List Float) : PropertyValue α → List Float
  | .keyframes frames => frames.flatMap Keyframe.floats
  | .fixed value => floats value

def Property.floats {α : Type} (floats : α → List Float) (property : Property α) : List Float :=
  property.value.floats floats

/-- The floats of a curve. -/
def Bezier.floats (bezier : Bezier) : List Float :=
  bezier.inTangents.flatMap Point.floats ++ bezier.outTangents.flatMap Point.floats ++
    bezier.vertices.flatMap Point.floats

def Transform.floats (transform : Transform) : List Float :=
  transform.anchor.floats Point.floats ++ transform.position.floats Point.floats ++
    transform.scale.floats Point.floats ++ transform.rotation.floats oneFloat ++
    transform.opacity.floats oneFloat ++ transform.skew.floats oneFloat ++
    transform.skewAxis.floats oneFloat

def Ellipse.floats (ellipse : Ellipse) : List Float :=
  ellipse.position.floats Point.floats ++ ellipse.size.floats Point.floats

def StrokeStyle.floats (style : StrokeStyle) : List Float :=
  style.colour.floats Rgba.floats ++ style.opacity.floats oneFloat ++
    style.width.floats oneFloat ++ [style.miterLimit]

def Trim.floats (trim : Trim) : List Float :=
  trim.start.floats oneFloat ++ trim.stop.floats oneFloat ++ trim.offset.floats oneFloat

mutual
def ShapeItem.floats : ShapeItem → List Float
  | .ellipse item => item.floats
  | .curve item => item.course.floats Bezier.floats
  | .style item => item.floats
  | .trim item => item.floats
  | .transform item => item.floats
  | .group items _ => itemsFloats items

def itemsFloats : List ShapeItem → List Float
  | [] => []
  | item :: rest => item.floats ++ itemsFloats rest
end

def Layer.floats (layer : Layer) : List Float :=
  layer.stretch.elim [] oneFloat ++ layer.transform.floats ++ layer.shapes.elim [] itemsFloats

def Animation.floats (animation : Animation) : List Float :=
  animation.frameRate :: animation.layers.flatMap Layer.floats

/-! ## Keyframes -/

attribute [local simp] List.lookup_append List.lookup_cons

theorem flatMap_oneFloat (xs : List Float) : xs.flatMap oneFloat = xs := by
  induction xs with
  | nil => rfl
  | cons x rest ih =>
    rw [List.flatMap_cons, ih]
    rfl

theorem restores_floats (xs : List Float) :
    Restores (Json.decodeList Json.decodeFloat) (.ofList .ofFloat xs) xs xs := by
  have hlist : Restores (Json.decodeList Json.decodeFloat) (.ofList .ofFloat xs)
      (xs.flatMap oneFloat) xs := restores_list fun x _ => restores_float x
  exact hlist.of_eq (flatMap_oneFloat xs)

theorem Easing.restores (easing : Easing) :
    Restores Easing.reader.decode easing.toJson easing.floats easing := by
  refine Takes.restores (takes_seq (takes_map Easing.mk
    (takes_required rfl (restores_floats easing.time)))
    (takes_required rfl (restores_floats easing.value))) ?_ (by decide)
  exact List.Sublist.refl _

theorem Keyframe.restores (keyframe : Keyframe) :
    Restores Keyframe.decode keyframe.toJson keyframe.floats keyframe := by
  refine (Takes.restores (takes_seq (takes_seq (takes_seq (takes_map Keyframe.mk
    (takes_optional Easing.toJson Easing.floats ?_
      fun easing _ => ⟨object_ne_null _, easing.restores⟩))
    (takes_optional Easing.toJson Easing.floats ?_
      fun easing _ => ⟨object_ne_null _, easing.restores⟩))
    (takes_required ?_ (restores_uint32 keyframe.time)))
    (takes_required ?_ (restores_floats keyframe.value))) ?_ (by decide)).of_eq ?_
  · simp
  · simp
  · simp
  · simp
  · rw [List.map_append, List.map_append]
    exact ((Json.names_optionalMember "i" _ _).append (Json.names_optionalMember "o" _ _)).append
      (List.Sublist.refl ["t", "s"])
  · rw [List.append_nil, Keyframe.floats]

/-! ## Fixed values and keyframes -/

/-- A way to write and read fixed values that keeps them apart from keyframes. -/
structure FixedValue {α : Type} (decode : Decoder α) (encode : α → Json)
    (floats : α → List Float) : Prop where
  restores : ∀ a, Restores decode (encode a) (floats a) a
  not_keyframes : ∀ a depth, ∃ fault,
    Json.decodeList Keyframe.decode depth (Json.draft (encode a)) = .error fault
  not_objects : ∀ depth members rest, ∃ fault,
    decode depth (.array (.object members none :: rest) none) = .error fault

theorem mapM_error {α : Type} {decode : Draft → Except Json.Fault α} {item : Draft}
    (h : ∃ fault, decode item = .error fault) (rest : List Draft) :
    ∃ fault, (item :: rest).mapM decode = .error fault := by
  obtain ⟨fault, hfault⟩ := h
  refine ⟨fault, ?_⟩
  rw [List.mapM_cons, hfault]
  rfl

theorem decodeList_error {α : Type} {decode : Decoder α} {item : Draft}
    (h : ∀ depth, ∃ fault, decode depth item = .error fault) (depth : Nat) (rest : List Draft)
    (stop : Option Json.Fault) :
    ∃ fault, Json.decodeList decode depth (.array (item :: rest) stop) = .error fault := by
  cases depth with
  | zero => exact ⟨_, rfl⟩
  | succ depth =>
    obtain ⟨fault, hfault⟩ := mapM_error (h depth) rest
    refine ⟨fault, ?_⟩
    rw [Json.decodeList, hfault]
    rfl

theorem decodeExactly_error {α : Type} {decode : Decoder α} {item : Draft}
    (h : ∀ depth, ∃ fault, decode depth item = .error fault) (n depth : Nat) (rest : List Draft)
    (stop : Option Json.Fault) :
    ∃ fault, Json.decodeExactly (n + 1) decode depth (.array (item :: rest) stop) =
      .error fault := by
  cases depth with
  | zero => exact ⟨_, rfl⟩
  | succ depth =>
    obtain ⟨fault, hfault⟩ := mapM_error (h depth) (rest.take n)
    refine ⟨fault, ?_⟩
    rw [Json.decodeExactly, List.take_succ_cons, hfault]
    rfl

theorem decode_ofFloat {α : Type} (reader : Json.RecordReader α) (x : Float) (depth : Nat) :
    ∃ fault, reader.decode depth (Json.draft (.ofFloat x)) = .error fault := by
  rw [Json.ofFloat]
  split
  · cases depth <;> exact ⟨_, rfl⟩
  · cases depth <;> exact ⟨_, rfl⟩

theorem fixedValue_float : FixedValue Json.decodeFloat .ofFloat oneFloat where
  restores := restores_float
  not_keyframes := by
    intro x depth
    rw [Json.ofFloat]
    split
    · cases depth <;> exact ⟨_, rfl⟩
    · cases depth <;> exact ⟨_, rfl⟩
  not_objects := fun _ _ _ => ⟨_, rfl⟩

theorem restores_point (p : Point) : Restores Point.decode p.toJson p.floats p := by
  have hlist : Restores (Json.decodeExactly 2 Json.decodeFloat) p.toJson
      ([p.x, p.y].flatMap oneFloat) [p.x, p.y] :=
    @Json.restores_exactly _ .ofFloat Json.decodeFloat oneFloat [p.x, p.y]
      fun x _ => restores_float x
  refine ⟨?_, hlist.doubles⟩
  intro depth hdepth
  have hreads : Json.decodeExactly 2 Json.decodeFloat depth (Json.draft p.toJson) =
      if p.floats.all Float.isFinite then .ok [p.x, p.y] else .error .mismatch :=
    hlist.reads hdepth
  rw [Point.decode, hreads]
  cases p.floats.all Float.isFinite <;> rfl

theorem fixedValue_point : FixedValue Point.decode Point.toJson Point.floats where
  restores := restores_point
  not_keyframes := fun p depth =>
    decodeList_error (decode_ofFloat Keyframe.reader p.x) depth _ none
  not_objects := by
    intro depth members rest
    obtain ⟨fault, hfault⟩ := @decodeExactly_error _ Json.decodeFloat (.object members none)
      (fun _ => ⟨_, rfl⟩) 1 depth rest none
    exact ⟨fault, by rw [Point.decode, hfault]; rfl⟩

theorem restores_rgba (c : Rgba) : Restores Rgba.decode c.toJson c.floats c := by
  have hlist : Restores (Json.decodeExactly 4 Json.decodeFloat) c.toJson
      ([c.red, c.green, c.blue, c.alpha].flatMap oneFloat) [c.red, c.green, c.blue, c.alpha] :=
    @Json.restores_exactly _ .ofFloat Json.decodeFloat oneFloat
      [c.red, c.green, c.blue, c.alpha] fun x _ => restores_float x
  refine ⟨?_, hlist.doubles⟩
  intro depth hdepth
  have hreads : Json.decodeExactly 4 Json.decodeFloat depth (Json.draft c.toJson) =
      if c.floats.all Float.isFinite then .ok [c.red, c.green, c.blue, c.alpha]
      else .error .mismatch := hlist.reads hdepth
  rw [Rgba.decode, hreads]
  cases c.floats.all Float.isFinite <;> rfl

theorem fixedValue_rgba : FixedValue Rgba.decode Rgba.toJson Rgba.floats where
  restores := restores_rgba
  not_keyframes := fun c depth =>
    decodeList_error (decode_ofFloat Keyframe.reader c.red) depth _ none
  not_objects := by
    intro depth members rest
    obtain ⟨fault, hfault⟩ := @decodeExactly_error _ Json.decodeFloat (.object members none)
      (fun _ => ⟨_, rfl⟩) 3 depth rest none
    exact ⟨fault, by rw [Rgba.decode, hfault]; rfl⟩

theorem restores_points (points : List Point) :
    Restores (Json.decodeList Point.decode) (.ofList Point.toJson points)
      (points.flatMap Point.floats) points :=
  restores_list fun p _ => restores_point p

theorem Bezier.restores (bezier : Bezier) :
    Restores Bezier.decode bezier.toJson bezier.floats bezier := by
  refine (Takes.restores (takes_seq (takes_seq (takes_seq (takes_map Bezier.mk
    (takes_required rfl (restores_points bezier.inTangents)))
    (takes_required rfl (restores_points bezier.outTangents)))
    (takes_required rfl (restores_points bezier.vertices)))
    (takes_required rfl (restores_bool bezier.closed))) ?_ (by decide)).of_eq ?_
  · exact List.Sublist.refl _
  · rw [List.append_nil, Bezier.floats]

theorem settleOutcome_of_none {α : Type} {outcome : Json.Outcome α} (h : outcome.value = none)
    (walked : Option Json.PlacedFault) :
    ∃ fault, Json.settleOutcome outcome walked = .error fault := by
  rw [Json.settleOutcome, h]
  split
  · exact ⟨_, rfl⟩
  · rename_i hnone
    cases hnone
  · exact ⟨_, rfl⟩

theorem fixedValue_bezier : FixedValue Bezier.decode Bezier.toJson Bezier.floats where
  restores := Bezier.restores
  not_keyframes := by
    intro bezier depth
    cases depth <;> exact ⟨_, rfl⟩
  not_objects := by
    intro depth members rest
    -- The object would have to be the list of the first tangents.
    match depth with
    | 0 => exact ⟨_, rfl⟩
    | 1 => exact settleOutcome_of_none rfl _
    | depth + 2 => exact settleOutcome_of_none rfl _

/-! ## Properties -/

section Property

variable {α : Type} {decode : Decoder α} {encode : α → Json} {floats : α → List Float}

theorem decodeEither_fixed (fixed : FixedValue decode encode floats) (a : α) {depth : Nat}
    (hdepth : (encode a).depth ≤ depth) :
    PropertyValue.decodeEither decode depth (Json.draft (encode a)) =
      if (floats a).all Float.isFinite then .ok (.fixed a) else .error .mismatch := by
  obtain ⟨fault, hframes⟩ := fixed.not_keyframes a depth
  simp only [PropertyValue.decodeEither, hframes, (fixed.restores a).reads hdepth]
  cases (floats a).all Float.isFinite <;> rfl

theorem decodeEither_keyframes (fixed : FixedValue decode encode floats) (frames : List Keyframe)
    {depth : Nat} (hdepth : (Json.ofList Keyframe.toJson frames).depth ≤ depth) :
    (PropertyValue.decodeEither decode depth (Json.draft (.ofList Keyframe.toJson frames))).mapError
        (fun _ => Json.Fault.mismatch) =
      if (frames.flatMap Keyframe.floats).all Float.isFinite then .ok (.keyframes frames)
      else .error .mismatch := by
  have hframes := (restores_list fun frame (_ : frame ∈ frames) => frame.restores).reads hdepth
  rw [PropertyValue.decodeEither, hframes]
  cases hsound : (frames.flatMap Keyframe.floats).all Float.isFinite with
  | true => rfl
  | false =>
    -- Some keyframe has a float that is no number, so that there is a keyframe.
    cases frames with
    | nil => cases hsound
    | cons frame rest =>
      obtain ⟨fault, hfault⟩ :=
        fixed.not_objects depth _ (Json.draftItems (rest.map Keyframe.toJson))
      have hfixed : decode depth (Json.draft (.ofList Keyframe.toJson (frame :: rest))) =
          .error fault := hfault
      simp only [Bool.false_eq_true, if_false, hfixed]
      rfl

theorem PropertyValue.restores (fixed : FixedValue decode encode floats)
    (value : PropertyValue α) :
    Restores (PropertyValue.decode decode) (value.toJson encode) (value.floats floats) value where
  reads := by
    intro depth hdepth
    rw [PropertyValue.decode, Json.afterWhole, Json.value_draft _ hdepth]
    cases value with
    | keyframes frames => exact decodeEither_keyframes fixed frames hdepth
    | fixed a =>
      show (PropertyValue.decodeEither decode depth (Json.draft (encode a))).mapError _ = _
      rw [decodeEither_fixed fixed a hdepth, PropertyValue.floats]
      cases (floats a).all Float.isFinite <;> rfl
  doubles := by
    cases value with
    | keyframes frames =>
      exact (restores_list fun frame (_ : frame ∈ frames) => frame.restores).doubles
    | fixed a => exact (fixed.restores a).doubles

theorem Property.restores (fixed : FixedValue decode encode floats) (property : Property α) :
    Restores (Property.decode decode) (property.toJson encode) (property.floats floats)
      property := by
  refine (Takes.restores (takes_seq (takes_seq (takes_map Property.mk
    (takes_required rfl (restores_uint8 property.flag)))
    (takes_required rfl (PropertyValue.restores fixed property.value)))
    (takes_optional_plain Json.ofUInt8 ?_ ofUInt8_ne_null restores_uint8))
    ?_ ?_).of_eq ?_
  · simp
  · rw [List.map_append]
    exact (List.Sublist.refl ["a", "k"]).append (Json.names_optionalMember "ix" _ _)
  · exact (by decide : ["a", "k", "ix"].Nodup)
  · exact List.append_nil _

end Property

theorem Property.restores_point (property : Property Point) :
    Restores (Property.decode Point.decode) (property.toJson Point.toJson)
      (property.floats Point.floats) property :=
  property.restores fixedValue_point

theorem Property.restores_float (property : Property Float) :
    Restores (Property.decode Json.decodeFloat) (property.toJson .ofFloat)
      (property.floats oneFloat) property :=
  property.restores fixedValue_float

/-! ## Plain items -/

theorem Transform.restores (transform : Transform) :
    Restores Transform.decode transform.toJson transform.floats transform := by
  refine Takes.restores (takes_seq (takes_seq (takes_seq (takes_seq (takes_seq (takes_seq
    (takes_map Transform.mk
    (takes_required rfl transform.anchor.restores_point))
    (takes_required rfl transform.position.restores_point))
    (takes_required rfl transform.scale.restores_point))
    (takes_required rfl transform.rotation.restores_float))
    (takes_required rfl transform.opacity.restores_float))
    (takes_required rfl transform.skew.restores_float))
    (takes_required rfl transform.skewAxis.restores_float)) ?_ (by decide)
  exact List.Sublist.refl _

theorem Ellipse.restores (ellipse : Ellipse) :
    Restores Ellipse.reader.decode (.object ellipse.members) ellipse.floats ellipse := by
  refine (Takes.restores (takes_seq (takes_seq (takes_map Ellipse.mk
    (takes_required rfl ellipse.position.restores_point))
    (takes_required rfl ellipse.size.restores_point))
    (takes_required rfl (restores_string ellipse.name))) ?_ (by decide)).of_eq ?_
  · exact List.Sublist.refl _
  · exact List.append_nil _

theorem Curve.restores (curve : Curve) :
    Restores Curve.reader.decode (.object curve.members) (curve.course.floats Bezier.floats)
      curve := by
  refine (Takes.restores (takes_seq (takes_map Curve.mk
    (takes_required rfl (curve.course.restores fixedValue_bezier)))
    (takes_optional_plain Json.string ?_ string_ne_null restores_string))
    ?_ (by decide)).of_eq ?_
  · simp [members]
  · rw [members, List.map_append]
    exact (List.Sublist.refl ["ks"]).append (Json.names_optionalMember "nm" _ _)
  · exact List.append_nil _

theorem StrokeStyle.restores (style : StrokeStyle) :
    Restores StrokeStyle.reader.decode (.object style.members) style.floats style := by
  refine (Takes.restores (takes_seq (takes_seq (takes_seq (takes_seq (takes_seq (takes_seq
    (takes_seq (takes_map StrokeStyle.mk
    (takes_required rfl (style.colour.restores fixedValue_rgba)))
    (takes_required rfl style.opacity.restores_float))
    (takes_required rfl style.width.restores_float))
    (takes_required rfl (restores_uint8 style.lineCap)))
    (takes_required rfl (restores_uint8 style.lineJoin)))
    (takes_required rfl (restores_float style.miterLimit)))
    (takes_required rfl (restores_uint8 style.blendMode)))
    (takes_required rfl (restores_string style.name))) ?_ (by decide)).of_eq ?_
  · exact List.Sublist.refl _
  · simp only [List.append_nil, floats]

theorem Trim.restores (trim : Trim) :
    Restores Trim.reader.decode (.object trim.members) trim.floats trim := by
  refine (Takes.restores (takes_seq (takes_seq (takes_seq (takes_seq (takes_seq (takes_seq
    (takes_map Trim.mk
    (takes_required rfl (restores_string trim.name)))
    (takes_required rfl (restores_uint8 trim.index)))
    (takes_required rfl (restores_bool trim.hidden)))
    (takes_required rfl trim.start.restores_float))
    (takes_required rfl trim.stop.restores_float))
    (takes_required rfl trim.offset.restores_float))
    (takes_required rfl (restores_uint8 trim.mode))) ?_ (by decide)).of_eq ?_
  · exact List.Sublist.refl _
  · simp only [List.append_nil, List.nil_append, floats]

/-! ## Items -/

theorem itemsToJson_eq_map (items : List ShapeItem) :
    itemsToJson items = items.map ShapeItem.toJson := by
  induction items with
  | nil => rfl
  | cons item rest ih => rw [itemsToJson, ih, List.map_cons]

theorem itemsFloats_eq_flatMap (items : List ShapeItem) :
    itemsFloats items = items.flatMap ShapeItem.floats := by
  induction items with
  | nil => rfl
  | cons item rest ih => rw [itemsFloats, ih, List.flatMap_cons]

theorem decode_word (byNumber : Bool) (depth : Nat) (tag : ShapeTag) :
    ShapeTag.decode byNumber depth (.string (.sound tag.word)) = .ok tag := by
  cases tag <;> rfl

theorem takeTag_draftMembers (byNumber : Bool) {depth : Nat} (tag : ShapeTag)
    {members : List (String × Json)} (hnames : "ty" ∉ members.map Prod.fst)
    (hdepth : ∀ member ∈ members, member.2.depth ≤ depth) :
    takeTag byNumber depth (some tag) (Json.draftMembers members) =
      .ok (some tag, Json.draftMembers members) := by
  induction members with
  | nil => rfl
  | cons member rest ih =>
    obtain ⟨name, value⟩ := member
    obtain ⟨hvalue, hrest⟩ := List.forall_mem_cons.mp hdepth
    have hname : ¬name = "ty" := fun h => hnames (h ▸ List.mem_cons_self)
    have hmore := ih (fun h => hnames (List.mem_cons_of_mem name h)) hrest
    rw [Json.draftMembers, Json.draftMember, takeTag]
    simp only [Json.Leaf.sound, bind, Except.bind, if_neg hname, Json.value_draft value hvalue,
      hmore]
    rfl

theorem splitItem_tagged (byNumber : Bool) {depth : Nat} (tag : ShapeTag)
    {members : List (String × Json)} (hnames : "ty" ∉ members.map Prod.fst)
    (hdepth : ∀ member ∈ members, member.2.depth ≤ depth) :
    splitItem byNumber (depth + 1) (Json.draft (tagged tag members)) =
      .ok (tag, Json.draft (.object members)) := by
  have htake := takeTag_draftMembers byNumber tag hnames hdepth
  rw [tagged, Json.draft, Json.draftMembers, Json.draftMember, splitItem, takeTag]
  simp only [Json.Leaf.sound, bind, Except.bind, if_true, Option.isSome_none, Bool.false_eq_true,
    if_false]
  have hword : ShapeTag.decode byNumber depth (Json.draft (.string tag.word)) = .ok tag :=
    decode_word byNumber depth tag
  rw [hword]
  simp only [htake]
  rfl

/-- An item is restored if the fields that belong to its tag are. -/
theorem restores_tagged (byNumber : Bool) {fuel : Nat} {tag : ShapeTag}
    {members : List (String × Json)} {floats : List Float} {item : ShapeItem}
    (hnames : "ty" ∉ members.map Prod.fst)
    (restores : Restores (decodeTagged (decodeItem true fuel) tag) (.object members) floats item) :
    Restores (decodeItem byNumber (fuel + 1)) (tagged tag members) floats item where
  reads := by
    intro depth hdepth
    obtain ⟨inner, rfl, hmembers⟩ := Json.exists_of_depth_object_le hdepth
    obtain ⟨-, hfields⟩ := List.forall_mem_cons.mp hmembers
    simp only [decodeItem, bind, Except.bind, splitItem_tagged byNumber tag hnames hfields,
      restores.reads (Json.depth_object_le.mpr hfields)]
    cases floats.all Float.isFinite <;> rfl
  doubles := by
    intro x hx
    obtain ⟨member, hmem, hnumber⟩ := Json.mem_numbers_object.mp hx
    rcases List.mem_cons.mp hmem with rfl | hmem
    · cases hnumber
    · exact restores.doubles (Json.mem_numbers_object.mpr ⟨member, hmem, hnumber⟩)

theorem tag_not_mem {names known : List String} (h : names.Sublist known)
    (hknown : "ty" ∉ known) : "ty" ∉ names :=
  fun hmem => hknown (h.subset hmem)

theorem names_members_curve (curve : Curve) :
    (curve.members.map Prod.fst).Sublist ["ks", "nm"] := by
  rw [Curve.members, List.map_append]
  exact (List.Sublist.refl ["ks"]).append (Json.names_optionalMember "nm" _ _)

def groupMembers (items : List ShapeItem) (name : Option String) : List (String × Json) :=
  [("it", .array (itemsToJson items))] ++ Json.optionalMember "nm" .string name

theorem names_groupMembers (items : List ShapeItem) (name : Option String) :
    ((groupMembers items name).map Prod.fst).Sublist ["it", "nm"] := by
  rw [groupMembers, List.map_append]
  exact (List.Sublist.refl ["it"]).append (Json.names_optionalMember "nm" _ _)

theorem restores_items {decode : Decoder ShapeItem} {items : List ShapeItem}
    (h : ∀ item ∈ items, Restores decode item.toJson item.floats item) :
    Restores (Json.decodeList decode) (.array (itemsToJson items)) (itemsFloats items) items := by
  rw [itemsToJson_eq_map, itemsFloats_eq_flatMap]
  exact restores_list h

theorem restores_group {decode : Decoder ShapeItem} {items : List ShapeItem}
    (h : ∀ item ∈ items, Restores decode item.toJson item.floats item) (name : Option String) :
    Restores (groupReader decode).decode (.object (groupMembers items name)) (itemsFloats items)
      (.group items name) := by
  refine (Takes.restores (takes_seq (takes_map ShapeItem.group
    (takes_required rfl (restores_items h)))
    (takes_optional_plain Json.string ?_ string_ne_null restores_string))
    (names_groupMembers items name) ?_).of_eq ?_
  · simp [groupMembers]
  · exact (by decide : ["it", "nm"].Nodup)
  · exact List.append_nil _

/-- An item that is not nested deeper than there is fuel is restored. -/
theorem restores_decodeItem (fuel : Nat) :
    ∀ (byNumber : Bool) (item : ShapeItem), item.toJson.depth ≤ fuel →
      Restores (decodeItem byNumber fuel) item.toJson item.floats item := by
  induction fuel with
  | zero =>
    intro byNumber item hdepth
    cases item <;> exact absurd hdepth (Nat.not_succ_le_zero _)
  | succ fuel ih =>
    intro byNumber item hdepth
    cases item with
    | ellipse item =>
      exact restores_tagged byNumber (tag_not_mem (List.Sublist.refl ["p", "s", "nm"]) (by decide))
        (item.restores.map ShapeItem.ellipse)
    | curve item =>
      exact restores_tagged byNumber (tag_not_mem (names_members_curve item) (by decide))
        (item.restores.map ShapeItem.curve)
    | style item =>
      exact restores_tagged byNumber
        (tag_not_mem (List.Sublist.refl ["c", "o", "w", "lc", "lj", "ml", "bm", "nm"]) (by decide))
        (item.restores.map ShapeItem.style)
    | trim item =>
      exact restores_tagged byNumber
        (tag_not_mem (List.Sublist.refl ["nm", "ix", "hd", "s", "e", "o", "m"]) (by decide))
        (item.restores.map ShapeItem.trim)
    | transform item =>
      exact restores_tagged byNumber
        (tag_not_mem (List.Sublist.refl ["a", "p", "s", "r", "o", "sk", "sa"]) (by decide))
        (item.restores.decodeObject.map ShapeItem.transform)
    | group items name =>
      -- Each of its items is two levels further in.
      have hitems : ∀ item ∈ items, item.toJson.depth ≤ fuel := by
        intro item hitem
        have hmembers := Json.depth_object_le.mp hdepth
        obtain ⟨inner, rfl, hinner⟩ := Json.exists_of_depth_array_le
          (hmembers ("it", .array (itemsToJson items)) (List.mem_cons_of_mem _ List.mem_cons_self))
        rw [itemsToJson_eq_map] at hinner
        exact Nat.le_succ_of_le (hinner _ (List.mem_map_of_mem hitem))
      exact restores_tagged byNumber
        (tag_not_mem (names_groupMembers items name) (by decide))
        (restores_group (fun item hitem => ih true item (hitems item hitem)) name)

theorem ShapeItem.restores (item : ShapeItem) :
    Restores ShapeItem.decode item.toJson item.floats item where
  reads := by
    intro depth hdepth
    exact (restores_decodeItem (depth + 1) false item (Nat.le_succ_of_le hdepth)).reads hdepth
  doubles := (restores_decodeItem _ false item (Nat.le_refl _)).doubles

/-! ## Layers and animations -/

theorem Layer.names_sublist (layer : Layer) {members : List (String × Json)}
    (h : layer.toJson = .object members) :
    (members.map Prod.fst).Sublist Layer.reader.names := by
  cases h
  simp only [List.map_append]
  exact (List.Sublist.refl ["nm", "ty"]).append (Json.names_optionalMember "ddd" _ _)
    |>.append (Json.names_optionalMember "ind" _ _)
    |>.append (Json.names_optionalMember "sr" _ _)
    |>.append (List.Sublist.refl ["ip", "op", "st", "ks"])
    |>.append (Json.names_optionalMember "ao" _ _)
    |>.append (Json.names_optionalMember "bm" _ _)
    |>.append (Json.names_optionalMember "shapes" _ _)
    |>.append (Json.names_optionalMember "sc" _ _)
    |>.append (Json.names_optionalMember "sh" _ _)
    |>.append (Json.names_optionalMember "sw" _ _)

/-- A layer is restored, so long as its stretch is a number: a stretch that is none is
written as `null` and reads as absent. -/
theorem Layer.restores (layer : Layer)
    (hstretch : ∀ x, layer.stretch = some x → x.isFinite = true) :
    Restores Layer.decode layer.toJson layer.floats layer := by
  have hnull : ∀ x, layer.stretch = some x → Json.ofFloat x ≠ .null := by
    intro x hx
    rw [Json.ofFloat, Number.FiniteFloat.ofFloat?, dif_pos (hstretch x hx)]
    rintro ⟨⟩
  refine (Takes.restores (takes_seq (takes_seq (takes_seq (takes_seq (takes_seq (takes_seq
    (takes_seq (takes_seq (takes_seq (takes_seq (takes_seq (takes_seq (takes_seq (takes_seq
    (takes_map Layer.mk
    (takes_required ?_ (restores_string layer.name)))
    (takes_required ?_ (restores_uint8 layer.type)))
    (takes_optional_plain Json.ofUInt8 ?_ ofUInt8_ne_null restores_uint8))
    (takes_optional_plain Json.ofUInt32 ?_ ofUInt32_ne_null restores_uint32))
    (takes_optional Json.ofFloat oneFloat ?_ fun x hx => ⟨hnull x hx, restores_float x⟩))
    (takes_required ?_ (restores_uint32 layer.inPoint)))
    (takes_required ?_ (restores_uint32 layer.outPoint)))
    (takes_required ?_ (restores_uint32 layer.startTime)))
    (takes_required ?_ layer.transform.restores))
    (takes_optional_plain Json.ofUInt8 ?_ ofUInt8_ne_null restores_uint8))
    (takes_optional_plain Json.ofUInt8 ?_ ofUInt8_ne_null restores_uint8))
    (takes_optional (fun items => Json.array (itemsToJson items)) itemsFloats ?_
      fun items _ => ⟨array_ne_null _, restores_items fun item _ => item.restores⟩))
    (takes_optional_plain Json.string ?_ string_ne_null restores_string))
    (takes_optional_plain Json.ofUInt32 ?_ ofUInt32_ne_null restores_uint32))
    (takes_optional_plain Json.ofUInt32 ?_ ofUInt32_ne_null restores_uint32))
    ?_ (by decide)).of_eq ?_
  case refine_16 => exact layer.names_sublist rfl
  case refine_17 => simp only [List.append_nil, List.nil_append, Layer.floats]
  all_goals simp

theorem Animation.restores (animation : Animation)
    (hstretch : ∀ layer ∈ animation.layers, ∀ x, layer.stretch = some x → x.isFinite = true) :
    Restores Animation.decode animation.toJson animation.floats animation := by
  have hgenerator : Restores Animation.generatorReader.decode
      (.object [("g", .string animation.generator)]) [] animation.generator :=
    Takes.restores (takes_required rfl (restores_string animation.generator))
      (List.Sublist.refl ["g"]) (by decide)
  have hlayers : Restores (Json.decodeList Layer.decode) (.ofList Layer.toJson animation.layers)
      (animation.layers.flatMap Layer.floats) animation.layers :=
    restores_list fun layer hlayer => layer.restores (hstretch layer hlayer)
  refine (Takes.restores (takes_seq (takes_seq (takes_seq (takes_seq (takes_seq (takes_seq
    (takes_seq (takes_seq (takes_seq (takes_map Animation.mk
    (takes_required rfl (restores_string animation.version)))
    (takes_required rfl (restores_float animation.frameRate)))
    (takes_required rfl (restores_uint32 animation.inPoint)))
    (takes_required rfl (restores_uint32 animation.outPoint)))
    (takes_required rfl (restores_string animation.name)))
    (takes_required rfl (restores_uint8 animation.depth)))
    (takes_required rfl (restores_uint32 animation.height)))
    (takes_required rfl (restores_uint32 animation.width)))
    (takes_required rfl hgenerator))
    (takes_required rfl hlayers)) ?_ (by decide)).of_eq ?_
  · exact List.Sublist.refl _
  · rfl

end Lottie
end AnimatedGlyph
