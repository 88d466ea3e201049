/-
Records that are written in one order.

Every kind of record in an animation writes its members in an order of its own, and leaves some
of them out.  So two records of one kind that say the same are the same already, whatever the
order of members means to the reader (`Orderly`), and the same is true of whole animations.
An animation without infinite or undefined numbers can be taken from its value again, and hence
two such animations with values that say the same are equal (`eq_of_same`).
-/
import AnimatedGlyph.Proofs.MemberOrder
import AnimatedGlyph.Proofs.RoundTrip

namespace AnimatedGlyph
namespace Json

/-! ## Members that agree -/

/-- Two lists of members that say the same, up to the order of members further in. -/
structure Agree (members others : List (String × Json)) : Prop where
  names : ∀ name, (members.lookup name).isSome = (others.lookup name).isSome
  values : ∀ (name : String) (a b : Json), members.lookup name = some a →
    others.lookup name = some b → Same a b

theorem Same.agree_of_nodup {members others : List (String × Json)}
    (h : Same (.object members) (.object others)) (hmembers : (members.map Prod.fst).Nodup)
    (hothers : (others.map Prod.fst).Nodup) : Agree members others := by
  cases h with
  | object hnames hvalues =>
    simp only [valueOf_eq_lookup hmembers, valueOf_eq_lookup hothers] at hnames hvalues
    exact ⟨hnames, hvalues⟩

theorem Same.agree {members others : List (String × Json)} {known : List String}
    (h : Same (.object members) (.object others)) (hknown : known.Nodup)
    (hmembers : (members.map Prod.fst).Sublist known)
    (hothers : (others.map Prod.fst).Sublist known) : Agree members others :=
  h.agree_of_nodup (hknown.sublist hmembers) (hknown.sublist hothers)

/-- A way to write values in which members stand in a fixed order: what says the same is the
same. -/
def Orderly {α : Type} (encode : α → Json) : Prop :=
  ∀ a b, Same (encode a) (encode b) → encode a = encode b

variable {α : Type} {encode : α → Json} {members others : List (String × Json)}

theorem Agree.required (agree : Agree members others) (name : String) (orderly : Orderly encode)
    (a b : α) (ha : members.lookup name = some (encode a))
    (hb : others.lookup name = some (encode b)) : encode a = encode b :=
  orderly a b (agree.values name _ _ ha hb)

theorem Agree.optional (agree : Agree members others) (name : String) (orderly : Orderly encode)
    (a b : Option α) (ha : members.lookup name = a.map encode)
    (hb : others.lookup name = b.map encode) :
    optionalMember name encode a = optionalMember name encode b := by
  have hnames := agree.names name
  rw [ha, hb] at hnames
  cases a with
  | none =>
    cases b with
    | none => rfl
    | some b => cases hnames
  | some a =>
    cases b with
    | none => cases hnames
    | some b => rw [optionalMember, optionalMember, agree.required name orderly a b ha hb]

theorem Agree.tail {name : String} {a b : Json}
    (agree : Agree ((name, a) :: members) ((name, b) :: others))
    (hmembers : name ∉ members.map Prod.fst) (hothers : name ∉ others.map Prod.fst) :
    Agree members others := by
  have hnone := lookup_eq_none_iff_notMem.mpr hmembers
  have hnoneOther := lookup_eq_none_iff_notMem.mpr hothers
  refine ⟨fun other => ?_, fun other x y hx hy => ?_⟩
  · by_cases h : other = name
    · rw [h, hnone, hnoneOther]
    · have hnames := agree.names other
      rwa [lookup_cons_eq, lookup_cons_eq, if_neg h, if_neg h] at hnames
  · by_cases h : other = name
    · rw [h, hnone] at hx
      cases hx
    · refine agree.values other x y ?_ ?_
      · rwa [lookup_cons_eq, if_neg h]
      · rwa [lookup_cons_eq, if_neg h]

/-! ## Leaves and lists -/

theorem Same.eq_of_leaf {v w : Json} (h : Same v w) (hleaf : v.depth = 0) : v = w := by
  cases h with
  | null => rfl
  | bool b => rfl
  | number n => rfl
  | string s => rfl
  | array _ _ => exact absurd hleaf (Nat.succ_ne_zero _)
  | object _ _ => exact absurd hleaf (Nat.succ_ne_zero _)

theorem orderly_of_leaf (h : ∀ a, (encode a).depth = 0) : Orderly encode :=
  fun a _ hsame => hsame.eq_of_leaf (h a)

theorem orderly_string : Orderly .string :=
  orderly_of_leaf fun _ => rfl

theorem orderly_bool : Orderly .bool :=
  orderly_of_leaf fun _ => rfl

theorem orderly_ofUInt8 : Orderly ofUInt8 :=
  orderly_of_leaf fun _ => rfl

theorem orderly_ofUInt32 : Orderly ofUInt32 :=
  orderly_of_leaf fun _ => rfl

theorem orderly_ofFloat : Orderly ofFloat :=
  orderly_of_leaf depth_ofFloat

theorem Same.array_eq {as bs : List Json} (h : Same (.array as) (.array bs))
    (hitems : ∀ a ∈ as, ∀ b ∈ bs, Same a b → a = b) : as = bs := by
  cases h with
  | array hlength hsame =>
    refine List.ext_getElem hlength fun i hi hj => ?_
    exact hitems _ (List.getElem_mem hi) _ (List.getElem_mem hj)
      (hsame i _ _ (List.getElem?_eq_getElem hi) (List.getElem?_eq_getElem hj))

theorem orderly_of_leaves
    (h : ∀ a, ∃ items, encode a = .array items ∧ ∀ item ∈ items, item.depth = 0) :
    Orderly encode := by
  intro a b hsame
  obtain ⟨items, ha, hleaves⟩ := h a
  obtain ⟨others, hb, -⟩ := h b
  rw [ha, hb] at hsame ⊢
  exact congrArg Json.array (hsame.array_eq fun item hitem _ _ heq =>
    heq.eq_of_leaf (hleaves item hitem))

theorem Orderly.list (orderly : Orderly encode) : Orderly (ofList encode) := by
  intro as bs h
  refine congrArg Json.array (h.array_eq fun a ha b hb hsame => ?_)
  obtain ⟨x, _, rfl⟩ := List.mem_map.mp ha
  obtain ⟨y, _, rfl⟩ := List.mem_map.mp hb
  exact orderly x y hsame

end Json

open Json (Agree Orderly orderly_string orderly_bool orderly_ofUInt8 orderly_ofUInt32
  orderly_ofFloat)

attribute [local simp] List.lookup_append List.lookup_cons

theorem Point.orderly : Orderly Point.toJson :=
  Json.orderly_of_leaves fun _ => ⟨_, rfl, by simp [Json.depth_ofFloat]⟩

theorem Rgba.orderly : Orderly Rgba.toJson :=
  Json.orderly_of_leaves fun _ => ⟨_, rfl, by simp [Json.depth_ofFloat]⟩

namespace Lottie

/-! ## Properties -/

theorem Easing.orderly : Orderly Easing.toJson := by
  intro a b h
  have agree := h.agree (by decide) (List.Sublist.refl ["x", "y"]) (List.Sublist.refl _)
  have htime := agree.required "x" orderly_ofFloat.list a.time b.time rfl rfl
  have hvalue := agree.required "y" orderly_ofFloat.list a.value b.value rfl rfl
  rw [toJson, toJson, htime, hvalue]

theorem Keyframe.orderly : Orderly Keyframe.toJson := by
  intro a b h
  have hnames : ∀ frame : Keyframe, ∀ members, frame.toJson = .object members →
      (members.map Prod.fst).Sublist ["i", "o", "t", "s"] := by
    rintro frame _ ⟨⟩
    rw [List.map_append, List.map_append]
    exact ((Json.names_optionalMember "i" _ _).append (Json.names_optionalMember "o" _ _)).append
      (List.Sublist.refl ["t", "s"])
  have agree := h.agree (by decide) (hnames a _ rfl) (hnames b _ rfl)
  have hin := agree.optional "i" Easing.orderly a.easeIn b.easeIn (by simp) (by simp)
  have hout := agree.optional "o" Easing.orderly a.easeOut b.easeOut (by simp) (by simp)
  have htime := agree.required "t" orderly_ofUInt32 a.time b.time (by simp) (by simp)
  have hvalue := agree.required "s" orderly_ofFloat.list a.value b.value (by simp) (by simp)
  rw [toJson, toJson, hin, hout, htime, hvalue]

/-- No list of keyframes says the same as a fixed value. -/
def Apart {α : Type} (encode : α → Json) : Prop :=
  ∀ (frames : List Keyframe) (a : α), ¬Json.Same (.ofList Keyframe.toJson frames) (encode a)

theorem PropertyValue.orderly {α : Type} {encode : α → Json} (orderly : Orderly encode)
    (apart : Apart encode) : Orderly (PropertyValue.toJson encode) := by
  intro a b h
  cases a with
  | keyframes frames =>
    cases b with
    | keyframes others => exact Keyframe.orderly.list frames others h
    | fixed value => exact absurd h (apart frames value)
  | fixed value =>
    cases b with
    | keyframes others => exact absurd h.symm (apart others value)
    | fixed other => exact orderly value other h

theorem Property.orderly {α : Type} {encode : α → Json} (orderly : Orderly encode)
    (apart : Apart encode) : Orderly (Property.toJson encode) := by
  intro a b h
  have hnames : ∀ property : Property α, ∀ members, property.toJson encode = .object members →
      (members.map Prod.fst).Sublist ["a", "k", "ix"] := by
    rintro property _ ⟨⟩
    rw [List.map_append]
    exact (List.Sublist.refl ["a", "k"]).append (Json.names_optionalMember "ix" _ _)
  have agree := h.agree (by decide) (hnames a _ rfl) (hnames b _ rfl)
  have hflag := agree.required "a" orderly_ofUInt8 a.flag b.flag (by simp) (by simp)
  have hvalue := agree.required "k" (PropertyValue.orderly orderly apart) a.value b.value
    (by simp) (by simp)
  have hindex := agree.optional "ix" orderly_ofUInt8 a.index b.index (by simp) (by simp)
  rw [toJson, toJson, hflag, hvalue, hindex]

theorem apart_of_ne_array {α : Type} {encode : α → Json}
    (h : ∀ a items, encode a ≠ .array items) : Apart encode := by
  intro frames a hsame
  generalize hvalue : encode a = value at hsame
  cases hsame with
  | array _ _ => exact h a _ hvalue

theorem apart_of_leaf {α : Type} {encode : α → Json}
    (h : ∀ a, ∃ first rest, encode a = .array (first :: rest) ∧ first.depth = 0) :
    Apart encode := by
  intro frames a hsame
  obtain ⟨first, rest, hvalue, hleaf⟩ := h a
  rw [hvalue] at hsame
  cases frames with
  | nil =>
    cases hsame with
    | array hlength _ => cases hlength
  | cons frame more =>
    cases hsame with
    | array _ hitems =>
      have hfirst := (hitems 0 frame.toJson first rfl rfl).symm.eq_of_leaf hleaf
      rw [hfirst] at hleaf
      cases hleaf

theorem apart_ofFloat : Apart Json.ofFloat := by
  refine apart_of_ne_array fun x items h => ?_
  have hleaf := Json.depth_ofFloat x
  rw [h] at hleaf
  cases hleaf

theorem Property.orderly_float : Orderly (Property.toJson Json.ofFloat) :=
  Property.orderly orderly_ofFloat apart_ofFloat

theorem Property.orderly_point : Orderly (Property.toJson Point.toJson) :=
  Property.orderly Point.orderly (apart_of_leaf fun _ => ⟨_, _, rfl, Json.depth_ofFloat _⟩)

theorem Property.orderly_rgba : Orderly (Property.toJson Rgba.toJson) :=
  Property.orderly Rgba.orderly (apart_of_leaf fun _ => ⟨_, _, rfl, Json.depth_ofFloat _⟩)

/-! ## Shapes -/

theorem Bezier.orderly : Orderly Bezier.toJson := by
  intro a b h
  have agree := h.agree (by decide) (List.Sublist.refl ["i", "o", "v", "c"]) (List.Sublist.refl _)
  have hin := agree.required "i" Point.orderly.list a.inTangents b.inTangents rfl rfl
  have hout := agree.required "o" Point.orderly.list a.outTangents b.outTangents rfl rfl
  have hvertices := agree.required "v" Point.orderly.list a.vertices b.vertices rfl rfl
  have hclosed := agree.required "c" orderly_bool a.closed b.closed rfl rfl
  rw [toJson, toJson, hin, hout, hvertices, hclosed]

theorem Property.orderly_bezier : Orderly (Property.toJson Bezier.toJson) :=
  Property.orderly Bezier.orderly (apart_of_ne_array fun _ _ => nofun)

theorem Transform.members_eq {a b : Transform} (agree : Agree a.members b.members) :
    a.members = b.members := by
  have hanchor := agree.required "a" Property.orderly_point a.anchor b.anchor rfl rfl
  have hposition := agree.required "p" Property.orderly_point a.position b.position rfl rfl
  have hscale := agree.required "s" Property.orderly_point a.scale b.scale rfl rfl
  have hrotation := agree.required "r" Property.orderly_float a.rotation b.rotation rfl rfl
  have hopacity := agree.required "o" Property.orderly_float a.opacity b.opacity rfl rfl
  have hskew := agree.required "sk" Property.orderly_float a.skew b.skew rfl rfl
  have haxis := agree.required "sa" Property.orderly_float a.skewAxis b.skewAxis rfl rfl
  rw [members, members, hanchor, hposition, hscale, hrotation, hopacity, hskew, haxis]

theorem Transform.orderly : Orderly Transform.toJson := by
  intro a b h
  have agree := h.agree (by decide) (List.Sublist.refl ["a", "p", "s", "r", "o", "sk", "sa"])
    (List.Sublist.refl _)
  exact congrArg Json.object (members_eq agree)

theorem Ellipse.members_eq {a b : Ellipse} (agree : Agree a.members b.members) :
    a.members = b.members := by
  have hposition := agree.required "p" Property.orderly_point a.position b.position rfl rfl
  have hsize := agree.required "s" Property.orderly_point a.size b.size rfl rfl
  have hname := agree.required "nm" orderly_string a.name b.name rfl rfl
  rw [members, members, hposition, hsize, hname]

theorem Curve.members_eq {a b : Curve} (agree : Agree a.members b.members) :
    a.members = b.members := by
  have hcourse := agree.required "ks" Property.orderly_bezier a.course b.course rfl rfl
  have hname := agree.optional "nm" orderly_string a.name b.name (by simp [members])
    (by simp [members])
  rw [members, members, hcourse, hname]

theorem StrokeStyle.members_eq {a b : StrokeStyle} (agree : Agree a.members b.members) :
    a.members = b.members := by
  have hcolour := agree.required "c" Property.orderly_rgba a.colour b.colour rfl rfl
  have hopacity := agree.required "o" Property.orderly_float a.opacity b.opacity rfl rfl
  have hwidth := agree.required "w" Property.orderly_float a.width b.width rfl rfl
  have hcap := agree.required "lc" orderly_ofUInt8 a.lineCap b.lineCap rfl rfl
  have hjoin := agree.required "lj" orderly_ofUInt8 a.lineJoin b.lineJoin rfl rfl
  have hmiter := agree.required "ml" orderly_ofFloat a.miterLimit b.miterLimit rfl rfl
  have hblend := agree.required "bm" orderly_ofUInt8 a.blendMode b.blendMode rfl rfl
  have hname := agree.required "nm" orderly_string a.name b.name rfl rfl
  rw [members, members, hcolour, hopacity, hwidth, hcap, hjoin, hmiter, hblend, hname]

theorem Trim.members_eq {a b : Trim} (agree : Agree a.members b.members) :
    a.members = b.members := by
  have hname := agree.required "nm" orderly_string a.name b.name rfl rfl
  have hindex := agree.required "ix" orderly_ofUInt8 a.index b.index rfl rfl
  have hhidden := agree.required "hd" orderly_bool a.hidden b.hidden rfl rfl
  have hstart := agree.required "s" Property.orderly_float a.start b.start rfl rfl
  have hstop := agree.required "e" Property.orderly_float a.stop b.stop rfl rfl
  have hoffset := agree.required "o" Property.orderly_float a.offset b.offset rfl rfl
  have hmode := agree.required "m" orderly_ofUInt8 a.mode b.mode rfl rfl
  rw [members, members, hname, hindex, hhidden, hstart, hstop, hoffset, hmode]

/-! ## Items -/

/-- The members of an item behind its tag. -/
def ShapeItem.fields : ShapeItem → List (String × Json)
  | .ellipse item => item.members
  | .curve item => item.members
  | .style item => item.members
  | .trim item => item.members
  | .transform item => item.members
  | .group items name => groupMembers items name

theorem ShapeItem.toJson_eq (item : ShapeItem) : item.toJson = tagged item.tag item.fields := by
  cases item <;> rfl

/-- The names that an item with a tag can have behind it. -/
def ShapeTag.names : ShapeTag → List String
  | .ellipse => ["p", "s", "nm"]
  | .curve => ["ks", "nm"]
  | .style => ["c", "o", "w", "lc", "lj", "ml", "bm", "nm"]
  | .trim => ["nm", "ix", "hd", "s", "e", "o", "m"]
  | .transform => ["a", "p", "s", "r", "o", "sk", "sa"]
  | .group => ["it", "nm"]

theorem ShapeItem.names_fields (item : ShapeItem) :
    (item.fields.map Prod.fst).Sublist item.tag.names := by
  cases item with
  | curve item => exact names_members_curve item
  | group items name => exact names_groupMembers items name
  | _ => exact List.Sublist.refl _

theorem ShapeTag.names_nodup (tag : ShapeTag) : ("ty" :: tag.names).Nodup := by
  cases tag <;> decide

theorem ShapeTag.word_inj {tag other : ShapeTag} (h : tag.word = other.word) : tag = other := by
  cases tag <;> cases other <;> first | rfl | exact absurd h (by decide)

theorem ShapeItem.agree_of_same {a b : ShapeItem} (h : Json.Same a.toJson b.toJson) :
    a.tag = b.tag ∧ Agree a.fields b.fields := by
  have hnodup : ∀ item : ShapeItem, (("ty" :: item.fields.map Prod.fst)).Nodup := fun item =>
    item.tag.names_nodup.sublist (item.names_fields.cons_cons "ty")
  rw [toJson_eq, toJson_eq] at h
  have agree := h.agree_of_nodup (hnodup a) (hnodup b)
  have hword := agree.required "ty" orderly_string a.tag.word b.tag.word rfl rfl
  have htag := ShapeTag.word_inj (Json.string.inj hword)
  rw [htag] at agree
  exact ⟨htag, agree.tail (List.nodup_cons.mp (hnodup a)).1 (List.nodup_cons.mp (hnodup b)).1⟩

/-- A property of all items that the items of a group pass on to it. -/
@[elab_as_elim]
theorem ShapeItem.inductionOn {P : ShapeItem → Prop} (ellipse : ∀ item, P (.ellipse item))
    (curve : ∀ item, P (.curve item)) (style : ∀ item, P (.style item))
    (trim : ∀ item, P (.trim item)) (transform : ∀ item, P (.transform item))
    (group : ∀ items name, (∀ item ∈ items, P item) → P (.group items name))
    (item : ShapeItem) : P item :=
  @ShapeItem.rec P (fun items => ∀ item ∈ items, P item) ellipse curve style trim transform
    (fun items name ih => group items name ih) nofun
    (fun _ _ hitem hrest => List.forall_mem_cons.mpr ⟨hitem, hrest⟩) item

/-- Lists of items in which what says the same is the same. -/
theorem itemsToJson_eq {items others : List ShapeItem}
    (hitems : ∀ a ∈ items, ∀ b : ShapeItem, Json.Same a.toJson b.toJson → a.toJson = b.toJson)
    (h : Json.Same (.array (itemsToJson items)) (.array (itemsToJson others))) :
    itemsToJson items = itemsToJson others := by
  refine h.array_eq fun x hx y hy hsame => ?_
  rw [itemsToJson_eq_map] at hx hy
  obtain ⟨a, ha, rfl⟩ := List.mem_map.mp hx
  obtain ⟨b, _, rfl⟩ := List.mem_map.mp hy
  exact hitems a ha b hsame

theorem ShapeItem.orderly : Orderly ShapeItem.toJson := by
  intro a
  induction a using ShapeItem.inductionOn with
  | ellipse item =>
    intro b h
    obtain ⟨htag, agree⟩ := agree_of_same h
    cases b with
    | ellipse other => exact congrArg (tagged .ellipse) (Ellipse.members_eq agree)
    | _ => cases htag
  | curve item =>
    intro b h
    obtain ⟨htag, agree⟩ := agree_of_same h
    cases b with
    | curve other => exact congrArg (tagged .curve) (Curve.members_eq agree)
    | _ => cases htag
  | style item =>
    intro b h
    obtain ⟨htag, agree⟩ := agree_of_same h
    cases b with
    | style other => exact congrArg (tagged .style) (StrokeStyle.members_eq agree)
    | _ => cases htag
  | trim item =>
    intro b h
    obtain ⟨htag, agree⟩ := agree_of_same h
    cases b with
    | trim other => exact congrArg (tagged .trim) (Trim.members_eq agree)
    | _ => cases htag
  | transform item =>
    intro b h
    obtain ⟨htag, agree⟩ := agree_of_same h
    cases b with
    | transform other => exact congrArg (tagged .transform) (Transform.members_eq agree)
    | _ => cases htag
  | group items name ih =>
    intro b h
    obtain ⟨htag, agree⟩ := agree_of_same h
    cases b with
    | group others other =>
      have hitems := itemsToJson_eq ih (agree.values "it" _ _ rfl rfl)
      have hname := agree.optional "nm" orderly_string name other (by simp [fields, groupMembers])
        (by simp [fields, groupMembers])
      rw [toJson, toJson, hitems, hname]
    | _ => cases htag

/-! ## Layers and animations -/

theorem orderly_items : Orderly fun items => .array (itemsToJson items) := fun _ _ h =>
  congrArg Json.array (itemsToJson_eq (fun a _ => ShapeItem.orderly a) h)

theorem Layer.orderly : Orderly Layer.toJson := by
  intro a b h
  have agree := h.agree (by decide) (a.names_sublist rfl) (b.names_sublist rfl)
  have hname := agree.required "nm" orderly_string a.name b.name (by simp) (by simp)
  have htype := agree.required "ty" orderly_ofUInt8 a.type b.type (by simp) (by simp)
  have hdepth := agree.optional "ddd" orderly_ofUInt8 a.depth b.depth (by simp) (by simp)
  have hindex := agree.optional "ind" orderly_ofUInt32 a.index b.index (by simp) (by simp)
  have hstretch := agree.optional "sr" orderly_ofFloat a.stretch b.stretch (by simp) (by simp)
  have hin := agree.required "ip" orderly_ofUInt32 a.inPoint b.inPoint (by simp) (by simp)
  have hout := agree.required "op" orderly_ofUInt32 a.outPoint b.outPoint (by simp) (by simp)
  have hstart := agree.required "st" orderly_ofUInt32 a.startTime b.startTime (by simp) (by simp)
  have htransform := agree.required "ks" Transform.orderly a.transform b.transform
    (by simp) (by simp)
  have horient := agree.optional "ao" orderly_ofUInt8 a.autoOrient b.autoOrient (by simp) (by simp)
  have hblend := agree.optional "bm" orderly_ofUInt8 a.blendMode b.blendMode (by simp) (by simp)
  have hshapes := agree.optional "shapes" orderly_items a.shapes b.shapes (by simp) (by simp)
  have hcolour := agree.optional "sc" orderly_string a.solidColour b.solidColour
    (by simp) (by simp)
  have hheight := agree.optional "sh" orderly_ofUInt32 a.solidHeight b.solidHeight
    (by simp) (by simp)
  have hwidth := agree.optional "sw" orderly_ofUInt32 a.solidWidth b.solidWidth (by simp) (by simp)
  rw [toJson, toJson, hname, htype, hdepth, hindex, hstretch, hin, hout, hstart, htransform,
    horient, hblend, hshapes, hcolour, hheight, hwidth]

namespace Animation

theorem orderly_generator : Orderly fun generator => .object [("g", .string generator)] := by
  intro a b h
  have agree := h.agree (by decide) (List.Sublist.refl ["g"]) (List.Sublist.refl _)
  have hgenerator := agree.required "g" orderly_string a b rfl rfl
  exact congrArg (fun value => Json.object [("g", value)]) hgenerator

theorem orderly : Orderly toJson := by
  intro a b h
  have agree := h.agree (by decide) (List.Sublist.refl reader.names) (List.Sublist.refl _)
  have hversion := agree.required "v" orderly_string a.version b.version rfl rfl
  have hrate := agree.required "fr" orderly_ofFloat a.frameRate b.frameRate rfl rfl
  have hin := agree.required "ip" orderly_ofUInt32 a.inPoint b.inPoint rfl rfl
  have hout := agree.required "op" orderly_ofUInt32 a.outPoint b.outPoint rfl rfl
  have hname := agree.required "nm" orderly_string a.name b.name rfl rfl
  have hdepth := agree.required "ddd" orderly_ofUInt8 a.depth b.depth rfl rfl
  have hheight := agree.required "h" orderly_ofUInt32 a.height b.height rfl rfl
  have hwidth := agree.required "w" orderly_ofUInt32 a.width b.width rfl rfl
  have hmeta := agree.required "meta" orderly_generator a.generator b.generator rfl rfl
  have hlayers := agree.required "layers" Layer.orderly.list a.layers b.layers rfl rfl
  rw [toJson, toJson, hversion, hrate, hin, hout, hname, hdepth, hheight, hwidth, hmeta, hlayers]

/-- Animations without infinite or undefined numbers are told apart by their values. -/
theorem toJson_inj {a b : Animation} (ha : ∀ x ∈ a.floats, x.isFinite = true)
    (hb : ∀ x ∈ b.floats, x.isFinite = true) (h : a.toJson = b.toJson) : a = b := by
  have hreads := (restores_of_finite ha).reads (Nat.le_refl _)
  have hother := (restores_of_finite hb).reads (Nat.le_refl _)
  rw [if_pos (List.all_eq_true.mpr ha)] at hreads
  rw [if_pos (List.all_eq_true.mpr hb), ← h, hreads] at hother
  exact Except.ok.inj hother

/-- Animations with values that say the same are equal. -/
theorem eq_of_same {a b : Animation} (ha : ∀ x ∈ a.floats, x.isFinite = true)
    (hb : ∀ x ∈ b.floats, x.isFinite = true) (h : Json.Same a.toJson b.toJson) : a = b :=
  toJson_inj ha hb (orderly a b h)

end Animation
end Lottie
end AnimatedGlyph
