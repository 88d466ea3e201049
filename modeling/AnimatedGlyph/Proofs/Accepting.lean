/-
What typed readers accept.

Whatever a reader takes from a draft, valid or not, its floats are numbers, because no
text stands for anything else, and written again it opens no more arrays and objects than
the reader was allowed to.  `Keeps` says this of a reader and `Yields` of the fields of a
record.  A record gets it from all its fields at once, so `yields_seq` hands on what is
known of a field to the function that takes it, and what remains to be shown is about the
record made of its parts.
-/
import AnimatedGlyph.Proofs.AnimationText
import AnimatedGlyph.Proofs.FiniteFloats

namespace AnimatedGlyph
namespace Json

/-- The value opens no more than so many arrays and objects at once, and the floats are
numbers. -/
structure Sound (depth : Nat) (value : Json) (floats : List Float) : Prop where
  depth_le : value.depth ≤ depth
  finite : ∀ x ∈ floats, x.isFinite = true

/-- What is read with so many levels left is sound for as many. -/
def Keeps {α : Type} (decode : Decoder α) (encode : α → Json) (floats : α → List Float) : Prop :=
  ∀ ⦃depth : Nat⦄ ⦃draft : Draft⦄ ⦃a : α⦄, decode depth draft = .ok a →
    Sound depth (encode a) (floats a)

variable {α β : Type} {decode : Decoder α} {encode : α → Json} {floats : α → List Float}

/-! ## Simple values -/

theorem keeps_string : Keeps decodeString .string fun _ => [] :=
  fun _ _ _ _ => ⟨Nat.zero_le _, nofun⟩

theorem keeps_bool : Keeps decodeBool .bool fun _ => [] :=
  fun _ _ _ _ => ⟨Nat.zero_le _, nofun⟩

theorem keeps_uint8 : Keeps decodeUInt8 .ofUInt8 fun _ => [] :=
  fun _ _ _ _ => ⟨Nat.zero_le _, nofun⟩

theorem keeps_uint32 : Keeps decodeUInt32 .ofUInt32 fun _ => [] :=
  fun _ _ _ _ => ⟨Nat.zero_le _, nofun⟩

theorem isFinite_toDouble (n : JsonNumber) : (toDouble n).isFinite = true := by
  cases n with
  | natural n => exact Number.isFinite_toFloat n
  | negative n => exact Number.isFinite_neg (Number.isFinite_toFloat _)
  | double x => exact x.finite

theorem depth_ofFloat (x : Float) : (ofFloat x).depth = 0 := by
  rw [ofFloat]
  split <;> rfl

theorem keeps_float : Keeps decodeFloat .ofFloat Lottie.oneFloat := by
  intro depth draft x h
  refine ⟨by rw [depth_ofFloat]; exact Nat.zero_le _, ?_⟩
  intro y hy
  rw [List.mem_singleton.mp hy]
  cases draft with
  | number leaf =>
    obtain ⟨value, passed⟩ := leaf
    cases value with
    | error fault => cases h
    | ok n =>
      cases h
      exact isFinite_toDouble n
  | _ => cases h

/-! ## Lists -/

theorem sound_of_mapM {depth : Nat} (keeps : Keeps decode encode floats) {drafts : List Draft} :
    ∀ {items : List α}, drafts.mapM (decode depth) = .ok items →
      ∀ item ∈ items, Sound depth (encode item) (floats item) := by
  induction drafts with
  | nil =>
    intro items h
    cases h
    nofun
  | cons first rest ih =>
    intro items h
    rw [List.mapM_cons] at h
    cases hfirst : decode depth first with
    | error fault =>
      rw [hfirst] at h
      cases h
    | ok a =>
      cases hrest : rest.mapM (decode depth) with
      | error fault =>
        rw [hfirst, hrest] at h
        cases h
      | ok more =>
        rw [hfirst, hrest] at h
        cases h
        exact List.forall_mem_cons.mpr ⟨keeps hfirst, ih hrest⟩

theorem sound_ofList {depth : Nat} {items : List α}
    (h : ∀ item ∈ items, Sound depth (encode item) (floats item)) :
    Sound (depth + 1) (ofList encode items) (items.flatMap floats) where
  depth_le := by
    rw [ofList, depth_array_le]
    intro value hvalue
    obtain ⟨item, hitem, rfl⟩ := List.mem_map.mp hvalue
    exact (h item hitem).depth_le
  finite := by
    intro x hx
    obtain ⟨item, hitem, hmem⟩ := List.mem_flatMap.mp hx
    exact (h item hitem).finite x hmem

theorem of_orFault {a b : α} {stop : Option Fault} (h : orFault a stop = .ok b) : a = b := by
  cases stop with
  | none => exact Except.ok.inj h
  | some fault => cases h

theorem keeps_list (keeps : Keeps decode encode floats) :
    Keeps (decodeList decode) (ofList encode) fun items => items.flatMap floats := by
  intro depth draft items h
  cases draft with
  | array drafts stop =>
    cases depth with
    | zero => cases h
    | succ depth =>
      rw [decodeList] at h
      cases hmap : drafts.mapM (decode depth) with
      | error fault =>
        rw [hmap] at h
        cases h
      | ok values =>
        rw [hmap] at h
        rw [← of_orFault h]
        exact sound_ofList (sound_of_mapM keeps hmap)
  | _ => cases depth <;> cases h

theorem keeps_exactly (n : Nat) (keeps : Keeps decode encode floats) :
    Keeps (decodeExactly n decode) (ofList encode) fun items => items.flatMap floats := by
  intro depth draft items h
  cases draft with
  | array drafts stop =>
    cases depth with
    | zero => cases h
    | succ depth =>
      rw [decodeExactly] at h
      cases hmap : (drafts.take n).mapM (decode depth) with
      | error fault =>
        rw [hmap] at h
        cases h
      | ok values =>
        simp only [hmap, bind, Except.bind] at h
        split at h
        · cases h
        · split at h
          · cases h
          · rw [← of_orFault h]
            exact sound_ofList (sound_of_mapM keeps hmap)
  | _ => cases depth <;> cases h

/-! ## Records -/

/-- What the fields of a record give, if they give something. -/
def Yields {α : Type} (reader : RecordReader α) (holds : Nat → α → Prop) : Prop :=
  ∀ ⦃depth : Nat⦄ ⦃slots : List (Option Slot)⦄ ⦃a : α⦄,
    (reader.read depth slots).value = some a → holds depth a

theorem yields_field {name : String} {decode : Decoder β} {absent : Option β}
    {holds : Nat → β → Prop}
    (hpresent : ∀ ⦃depth draft b⦄, decode depth draft = .ok b → holds depth b)
    (habsent : ∀ depth b, absent = some b → holds depth b) :
    Yields (.field name decode absent) holds := by
  intro depth slots b h
  simp only [RecordReader.field] at h
  split at h
  · rename_i slot rest
    cases hdecode : decode depth slot.draft with
    | ok c =>
      rw [hdecode] at h
      cases h
      exact hpresent hdecode
    | error fault =>
      rw [hdecode] at h
      cases h
  · exact habsent depth b h

theorem yields_required (name : String) (keeps : Keeps decode encode floats) :
    Yields (required name decode) fun depth a => Sound depth (encode a) (floats a) := by
  refine yields_field keeps ?_
  intro depth a h
  cases h

theorem ok_of_decodeOption {depth : Nat} {draft : Draft} {field : Option α}
    (h : decodeOption decode depth draft = .ok field) {a : α} (hfield : field = some a) :
    decode depth draft = .ok a := by
  rw [decodeOption.eq_def] at h
  split at h
  · cases h
    cases hfield
  · cases hdecode : decode depth draft with
    | error fault =>
      rw [hdecode] at h
      cases h
    | ok b =>
      rw [hdecode] at h
      cases h
      cases hfield
      rfl

/-- A member that may be left out is sound if it is there. -/
def FieldSound {α : Type} (encode : α → Json) (floats : α → List Float) (depth : Nat)
    (field : Option α) : Prop :=
  ∀ a, field = some a → Sound depth (encode a) (floats a)

theorem yields_optional (name : String) (keeps : Keeps decode encode floats) :
    Yields (optional name decode) (FieldSound encode floats) := by
  refine yields_field ?_ ?_
  · intro depth draft field h a hfield
    exact keeps (ok_of_decodeOption h hfield)
  · intro depth field h a hfield
    cases h
    cases hfield

theorem yields_pure {a : α} {holds : Nat → α → Prop} (h : ∀ depth, holds depth a) :
    Yields (pure a) holds := by
  intro depth slots b hb
  cases hb
  exact h depth

theorem yields_seq {f : RecordReader (α → β)} {x : RecordReader α}
    {holds : Nat → β → Prop} {field : Nat → α → Prop} (hx : Yields x field)
    (hf : Yields f fun depth g => ∀ a, field depth a → holds depth (g a)) :
    Yields (f <*> x) holds := by
  intro depth slots b h
  have hboth : ((f.read depth (slots.take f.names.length)).value <*>
      (x.read depth (slots.drop f.names.length)).value) = some b := h
  cases hg : (f.read depth (slots.take f.names.length)).value with
  | none =>
    rw [hg] at hboth
    cases hboth
  | some g =>
    cases ha : (x.read depth (slots.drop f.names.length)).value with
    | none =>
      rw [hg, ha] at hboth
      cases hboth
    | some a =>
      rw [hg, ha] at hboth
      cases hboth
      exact hf hg a (hx ha)

theorem yields_map {x : RecordReader α} {f : α → β} {holds : Nat → β → Prop}
    {field : Nat → α → Prop} (hx : Yields x field)
    (h : ∀ depth a, field depth a → holds depth (f a)) : Yields (f <$> x) holds :=
  yields_seq hx (yields_pure h)

theorem value_of_settleOutcome {outcome : Outcome α} {walked : Option PlacedFault} {a : α}
    (h : settleOutcome outcome walked = .ok a) : outcome.value = some a := by
  rw [settleOutcome] at h
  split at h
  · cases h
  · rename_i b _ hvalue
    cases h
    exact hvalue
  · cases h

theorem holds_of_decode {reader : RecordReader α} {holds : Nat → α → Prop}
    (yields : Yields reader holds) {depth : Nat} {draft : Draft} {a : α}
    (h : reader.decode depth draft = .ok a) : ∃ inner, depth = inner + 1 ∧ holds inner a := by
  cases draft with
  | object members stop =>
    cases depth with
    | zero => cases h
    | succ inner => exact ⟨inner, rfl, yields (value_of_settleOutcome h)⟩
  | array items stop =>
    cases depth with
    | zero => cases h
    | succ inner => exact ⟨inner, rfl, yields (value_of_settleOutcome h)⟩
  | _ => cases depth <;> cases h

/-- The values of members open no more than so many arrays and objects at once, and the
floats are numbers. -/
structure MembersSound (depth : Nat) (members : List (String × Json)) (floats : List Float) :
    Prop where
  depth_le : ∀ member ∈ members, member.2.depth ≤ depth
  finite : ∀ x ∈ floats, x.isFinite = true

namespace MembersSound

variable {depth : Nat} {value : Json} {first more : List Float}
  {members others : List (String × Json)}

theorem nil : MembersSound depth [] [] :=
  ⟨nofun, nofun⟩

theorem append (hmembers : MembersSound depth members first)
    (hothers : MembersSound depth others more) :
    MembersSound depth (members ++ others) (first ++ more) where
  depth_le := List.forall_mem_append.mpr ⟨hmembers.depth_le, hothers.depth_le⟩
  finite := List.forall_mem_append.mpr ⟨hmembers.finite, hothers.finite⟩

theorem cons {name : String} (hvalue : Sound depth value first)
    (hmembers : MembersSound depth members more) :
    MembersSound depth ((name, value) :: members) (first ++ more) where
  depth_le := List.forall_mem_cons.mpr ⟨hvalue.depth_le, hmembers.depth_le⟩
  finite := List.forall_mem_append.mpr ⟨hvalue.finite, hmembers.finite⟩

theorem optional {field : Option α} (h : FieldSound encode floats depth field) (name : String) :
    MembersSound depth (optionalMember name encode field) (field.elim [] floats) := by
  cases field with
  | none => exact nil
  | some a =>
    have hfield : MembersSound depth [(name, encode a)] (floats a ++ []) := cons (h a rfl) nil
    rwa [List.append_nil] at hfield

theorem of_eq (h : MembersSound depth members first) (heq : first = more) :
    MembersSound depth members more :=
  heq ▸ h

theorem object (h : MembersSound depth members first) :
    Sound (depth + 1) (.object members) first :=
  ⟨depth_object_le.mpr h.depth_le, h.finite⟩

end MembersSound

theorem keeps_record {reader : RecordReader α} {members : α → List (String × Json)}
    (yields : Yields reader fun depth a => MembersSound depth (members a) (floats a)) :
    Keeps reader.decode (fun a => .object (members a)) floats := by
  intro depth draft a h
  obtain ⟨inner, rfl, hmembers⟩ := holds_of_decode yields h
  exact hmembers.object

end Json

namespace Lottie

open Json (Decoder Draft Keeps Sound MembersSound keeps_record yields_seq yields_map yields_required
  yields_optional keeps_string keeps_bool keeps_uint8 keeps_uint32 keeps_float keeps_list)

/-! ## Parts of animations -/

theorem elim_no_floats {α : Type} (field : Option α) :
    field.elim [] (fun _ => ([] : List Float)) = [] := by
  cases field <;> rfl

theorem keeps_floats :
    Keeps (Json.decodeList Json.decodeFloat) (.ofList .ofFloat) fun xs => xs := by
  intro depth draft xs h
  have hsound : Sound depth (.ofList .ofFloat xs) (xs.flatMap oneFloat) := keeps_list keeps_float h
  rwa [flatMap_oneFloat] at hsound

theorem Easing.keeps : Keeps Easing.reader.decode Easing.toJson Easing.floats := by
  refine keeps_record (yields_seq (yields_required "y" keeps_floats)
    (yields_map (yields_required "x" keeps_floats) ?_))
  intro depth time htime value hvalue
  refine (MembersSound.cons htime (.cons hvalue .nil)).of_eq ?_
  simp only [List.append_nil, floats]

theorem Keyframe.keeps : Keeps Keyframe.decode Keyframe.toJson Keyframe.floats := by
  refine keeps_record (yields_seq (yields_required "s" keeps_floats)
    (yields_seq (yields_required "t" keeps_uint32)
    (yields_seq (yields_optional "o" Easing.keeps)
    (yields_map (yields_optional "i" Easing.keeps) ?_))))
  intro depth easeIn hin easeOut hout time htime value hvalue
  refine ((MembersSound.optional hin "i").append (.optional hout "o") |>.append
    (.cons htime (.cons hvalue .nil))).of_eq ?_
  simp only [List.append_nil, List.nil_append, floats]

theorem keeps_point : Keeps Point.decode Point.toJson Point.floats := by
  intro depth draft p h
  rw [Point.decode] at h
  cases hlist : Json.decodeExactly 2 Json.decodeFloat depth draft with
  | error fault =>
    rw [hlist] at h
    cases h
  | ok xs =>
    have hsound := Json.keeps_exactly 2 keeps_float hlist
    rw [hlist] at h
    rcases xs with _ | ⟨x, _ | ⟨y, _ | ⟨z, rest⟩⟩⟩ <;> cases h
    exact hsound

theorem keeps_rgba : Keeps Rgba.decode Rgba.toJson Rgba.floats := by
  intro depth draft c h
  rw [Rgba.decode] at h
  cases hlist : Json.decodeExactly 4 Json.decodeFloat depth draft with
  | error fault =>
    rw [hlist] at h
    cases h
  | ok xs =>
    have hsound := Json.keeps_exactly 4 keeps_float hlist
    rw [hlist] at h
    rcases xs with _ | ⟨red, _ | ⟨green, _ | ⟨blue, _ | ⟨alpha, _ | ⟨x, rest⟩⟩⟩⟩⟩ <;> cases h
    exact hsound

theorem Bezier.keeps : Keeps Bezier.decode Bezier.toJson Bezier.floats := by
  refine keeps_record (yields_seq (yields_required "c" keeps_bool)
    (yields_seq (yields_required "v" (keeps_list keeps_point))
    (yields_seq (yields_required "o" (keeps_list keeps_point))
    (yields_map (yields_required "i" (keeps_list keeps_point)) ?_))))
  intro depth ins hins outs houts vertices hvertices closed hclosed
  refine (MembersSound.cons hins (.cons houts (.cons hvertices (.cons hclosed .nil)))).of_eq ?_
  simp only [List.append_nil, List.append_assoc, floats]

section Property

variable {α : Type} {decode : Decoder α} {encode : α → Json} {floats : α → List Float}

theorem PropertyValue.keeps (keeps : Keeps decode encode floats) :
    Keeps (PropertyValue.decode decode) (PropertyValue.toJson encode)
      (PropertyValue.floats floats) := by
  intro depth draft value h
  rw [PropertyValue.decode, Json.afterWhole] at h
  cases hwhole : draft.value depth with
  | error fault =>
    rw [hwhole] at h
    cases h
  | ok whole =>
    simp only [hwhole, bind, Except.bind, decodeEither] at h
    cases hframes : Json.decodeList Keyframe.decode depth draft with
    | ok frames =>
      simp only [hframes] at h
      cases h
      exact keeps_list Keyframe.keeps hframes
    | error fault =>
      simp only [hframes] at h
      cases hfixed : decode depth draft with
      | error fault =>
        rw [hfixed] at h
        cases h
      | ok a =>
        rw [hfixed] at h
        cases h
        exact keeps hfixed

theorem Property.keeps (keeps : Keeps decode encode floats) :
    Keeps (Property.decode decode) (Property.toJson encode) (Property.floats floats) := by
  refine keeps_record (yields_seq (yields_optional "ix" keeps_uint8)
    (yields_seq (yields_required "k" (PropertyValue.keeps keeps))
    (yields_map (yields_required "a" keeps_uint8) ?_)))
  intro depth flag hflag value hvalue index hindex
  refine ((MembersSound.cons hflag (.cons hvalue .nil)).append (.optional hindex "ix")).of_eq ?_
  simp only [List.append_nil, List.nil_append, elim_no_floats, Property.floats]

end Property

theorem keeps_pointProperty :
    Keeps (Property.decode Point.decode) (Property.toJson Point.toJson)
      (Property.floats Point.floats) :=
  Property.keeps keeps_point

theorem keeps_floatProperty :
    Keeps (Property.decode Json.decodeFloat) (Property.toJson .ofFloat)
      (Property.floats oneFloat) :=
  Property.keeps keeps_float

/-! ## Items -/

theorem Transform.keeps : Keeps Transform.decode Transform.toJson Transform.floats := by
  refine keeps_record (yields_seq (yields_required "sa" keeps_floatProperty)
    (yields_seq (yields_required "sk" keeps_floatProperty)
    (yields_seq (yields_required "o" keeps_floatProperty)
    (yields_seq (yields_required "r" keeps_floatProperty)
    (yields_seq (yields_required "s" keeps_pointProperty)
    (yields_seq (yields_required "p" keeps_pointProperty)
    (yields_map (yields_required "a" keeps_pointProperty) ?_)))))))
  intro depth anchor ha position hp scale hs rotation hr opacity ho skew hsk axis hsa
  refine (MembersSound.cons ha (.cons hp (.cons hs (.cons hr (.cons ho (.cons hsk
    (.cons hsa .nil))))))).of_eq ?_
  simp only [List.append_nil, List.append_assoc, floats]

theorem Ellipse.keeps :
    Keeps Ellipse.reader.decode (fun item => .object item.members) Ellipse.floats := by
  refine keeps_record (yields_seq (yields_required "nm" keeps_string)
    (yields_seq (yields_required "s" keeps_pointProperty)
    (yields_map (yields_required "p" keeps_pointProperty) ?_)))
  intro depth position hp size hs name hname
  refine (MembersSound.cons hp (.cons hs (.cons hname .nil))).of_eq ?_
  simp only [List.append_nil, floats]

theorem Curve.keeps :
    Keeps Curve.reader.decode (fun item => .object item.members)
      fun item => item.course.floats Bezier.floats := by
  refine keeps_record (yields_seq (yields_optional "nm" keeps_string)
    (yields_map (yields_required "ks" (Property.keeps Bezier.keeps)) ?_))
  intro depth course hcourse name hname
  refine ((MembersSound.cons hcourse .nil).append (.optional hname "nm")).of_eq ?_
  simp only [List.append_nil, elim_no_floats]

theorem StrokeStyle.keeps :
    Keeps StrokeStyle.reader.decode (fun item => .object item.members) StrokeStyle.floats := by
  refine keeps_record (yields_seq (yields_required "nm" keeps_string)
    (yields_seq (yields_required "bm" keeps_uint8)
    (yields_seq (yields_required "ml" keeps_float)
    (yields_seq (yields_required "lj" keeps_uint8)
    (yields_seq (yields_required "lc" keeps_uint8)
    (yields_seq (yields_required "w" keeps_floatProperty)
    (yields_seq (yields_required "o" keeps_floatProperty)
    (yields_map (yields_required "c" (Property.keeps keeps_rgba)) ?_))))))))
  intro depth colour hc opacity ho width hw cap hlc join hlj limit hml mode hbm name hnm
  refine (MembersSound.cons hc (.cons ho (.cons hw (.cons hlc (.cons hlj (.cons hml
    (.cons hbm (.cons hnm .nil)))))))).of_eq ?_
  simp only [List.append_nil, List.nil_append, List.append_assoc, floats, oneFloat]

theorem Trim.keeps : Keeps Trim.reader.decode (fun item => .object item.members) Trim.floats := by
  refine keeps_record (yields_seq (yields_required "m" keeps_uint8)
    (yields_seq (yields_required "o" keeps_floatProperty)
    (yields_seq (yields_required "e" keeps_floatProperty)
    (yields_seq (yields_required "s" keeps_floatProperty)
    (yields_seq (yields_required "hd" keeps_bool)
    (yields_seq (yields_required "ix" keeps_uint8)
    (yields_map (yields_required "nm" keeps_string) ?_)))))))
  intro depth name hnm index hix hidden hhd start hs stop he offset ho mode hm
  refine (MembersSound.cons hnm (.cons hix (.cons hhd (.cons hs (.cons he (.cons ho
    (.cons hm .nil))))))).of_eq ?_
  simp only [List.append_nil, List.nil_append, List.append_assoc, floats]

theorem keeps_items {decode : Decoder ShapeItem}
    (keeps : Keeps decode ShapeItem.toJson ShapeItem.floats) :
    Keeps (Json.decodeList decode) (fun items => .array (itemsToJson items)) itemsFloats := by
  intro depth draft items h
  have hsound : Sound depth (.ofList ShapeItem.toJson items) (items.flatMap ShapeItem.floats) :=
    keeps_list keeps h
  show Sound depth (.array (itemsToJson items)) (itemsFloats items)
  rw [itemsToJson_eq_map, itemsFloats_eq_flatMap]
  exact hsound

/-- The tag in front of the members adds no level. -/
theorem sound_tagged {depth : Nat} {members : List (String × Json)} {floats : List Float}
    (h : Sound depth (.object members) floats) (tag : ShapeTag) :
    Sound depth (tagged tag members) floats := by
  obtain ⟨inner, rfl, hmembers⟩ := Json.exists_of_depth_object_le h.depth_le
  refine ⟨Json.depth_object_le.mpr ?_, h.finite⟩
  exact List.forall_mem_cons.mpr ⟨Nat.zero_le _, hmembers⟩

theorem keeps_group {decode : Decoder ShapeItem}
    (keeps : Keeps decode ShapeItem.toJson ShapeItem.floats) {depth : Nat} {draft : Draft}
    {item : ShapeItem} (h : (groupReader decode).decode depth draft = .ok item) :
    Sound depth item.toJson item.floats := by
  have hyields : Json.Yields (groupReader decode) fun depth item =>
      ∃ items name, item = .group items name ∧
        MembersSound depth (groupMembers items name) (itemsFloats items) := by
    refine yields_seq (yields_optional "nm" keeps_string)
      (yields_map (yields_required "it" (keeps_items keeps)) ?_)
    intro depth items hitems name hname
    refine ⟨items, name, rfl, ?_⟩
    refine ((MembersSound.cons hitems .nil).append (.optional hname "nm")).of_eq ?_
    simp only [List.append_nil, elim_no_floats]
  obtain ⟨inner, rfl, items, name, rfl, hmembers⟩ := Json.holds_of_decode hyields h
  exact sound_tagged hmembers.object .group

theorem ok_of_map {α β : Type} {answer : Except Json.Fault α} {f : α → β} {b : β}
    (h : answer.map f = .ok b) : ∃ a, answer = .ok a ∧ f a = b := by
  cases answer with
  | error fault => cases h
  | ok a => exact ⟨a, rfl, Except.ok.inj h⟩

theorem decode_of_decodeObject {α : Type} {reader : Json.RecordReader α} {depth : Nat}
    {draft : Draft} {a : α} (h : reader.decodeObject depth draft = .ok a) :
    reader.decode depth draft = .ok a := by
  cases draft with
  | array items stop =>
    rw [Json.RecordReader.decodeObject] at h
    split at h <;> cases h
  | _ => exact h

theorem sound_of_decodeTagged {item : Decoder ShapeItem}
    (keeps : Keeps item ShapeItem.toJson ShapeItem.floats) {tag : ShapeTag} {depth : Nat}
    {draft : Draft} {shape : ShapeItem} (h : decodeTagged item tag depth draft = .ok shape) :
    Sound depth shape.toJson shape.floats := by
  cases tag with
  | ellipse =>
    obtain ⟨a, ha, rfl⟩ := ok_of_map h
    exact sound_tagged (Ellipse.keeps ha) .ellipse
  | curve =>
    obtain ⟨a, ha, rfl⟩ := ok_of_map h
    exact sound_tagged (Curve.keeps ha) .curve
  | style =>
    obtain ⟨a, ha, rfl⟩ := ok_of_map h
    exact sound_tagged (StrokeStyle.keeps ha) .style
  | trim =>
    obtain ⟨a, ha, rfl⟩ := ok_of_map h
    exact sound_tagged (Trim.keeps ha) .trim
  | transform =>
    obtain ⟨a, ha, rfl⟩ := ok_of_map h
    exact sound_tagged (Transform.keeps (decode_of_decodeObject ha)) .transform
  | group => exact keeps_group keeps h

theorem keeps_decodeItem (fuel : Nat) :
    ∀ byNumber, Keeps (decodeItem byNumber fuel) ShapeItem.toJson ShapeItem.floats := by
  induction fuel with
  | zero =>
    intro byNumber depth draft item h
    cases h
  | succ fuel ih =>
    intro byNumber depth draft item h
    simp only [decodeItem, bind, Except.bind] at h
    split at h
    · cases h
    · rename_i split _
      obtain ⟨tag, aside⟩ := split
      cases hitem : decodeTagged (decodeItem true fuel) tag depth aside with
      | error fault =>
        simp only [hitem] at h
        cases h
      | ok shape =>
        simp only [hitem] at h
        cases h
        exact sound_of_decodeTagged (ih true) hitem

theorem ShapeItem.keeps : Keeps ShapeItem.decode ShapeItem.toJson ShapeItem.floats :=
  fun depth _ _ h => keeps_decodeItem (depth + 1) false h

/-! ## Layers and animations -/

theorem Layer.keeps : Keeps Layer.decode Layer.toJson Layer.floats := by
  refine keeps_record (yields_seq (yields_optional "sw" keeps_uint32)
    (yields_seq (yields_optional "sh" keeps_uint32)
    (yields_seq (yields_optional "sc" keeps_string)
    (yields_seq (yields_optional "shapes" (keeps_items ShapeItem.keeps))
    (yields_seq (yields_optional "bm" keeps_uint8)
    (yields_seq (yields_optional "ao" keeps_uint8)
    (yields_seq (yields_required "ks" Transform.keeps)
    (yields_seq (yields_required "st" keeps_uint32)
    (yields_seq (yields_required "op" keeps_uint32)
    (yields_seq (yields_required "ip" keeps_uint32)
    (yields_seq (yields_optional "sr" keeps_float)
    (yields_seq (yields_optional "ind" keeps_uint32)
    (yields_seq (yields_optional "ddd" keeps_uint8)
    (yields_seq (yields_required "ty" keeps_uint8)
    (yields_map (yields_required "nm" keeps_string) ?_)))))))))))))))
  intro depth name hnm type hty flag hddd index hind stretch hsr first hip last hop start hst
    transform hks orient hao mode hbm shapes hshapes colour hsc height hsh width hsw
  refine ((MembersSound.cons hnm (.cons hty .nil)).append (.optional hddd "ddd")
    |>.append (.optional hind "ind")
    |>.append (.optional hsr "sr")
    |>.append (.cons hip (.cons hop (.cons hst (.cons hks .nil))))
    |>.append (.optional hao "ao")
    |>.append (.optional hbm "bm")
    |>.append (.optional hshapes "shapes")
    |>.append (.optional hsc "sc")
    |>.append (.optional hsh "sh")
    |>.append (.optional hsw "sw")).of_eq ?_
  simp only [List.append_nil, List.nil_append, elim_no_floats, floats]

theorem Animation.keeps : Keeps Animation.decode Animation.toJson Animation.floats := by
  have keeps_generator : Keeps Animation.generatorReader.decode
      (fun name => .object [("g", .string name)]) fun _ => [] :=
    keeps_record (Json.yields_field
      (fun _ _ _ h => MembersSound.cons (keeps_string h) .nil) nofun)
  refine keeps_record (yields_seq (yields_required "layers" (keeps_list Layer.keeps))
    (yields_seq (yields_required "meta" keeps_generator)
    (yields_seq (yields_required "w" keeps_uint32)
    (yields_seq (yields_required "h" keeps_uint32)
    (yields_seq (yields_required "ddd" keeps_uint8)
    (yields_seq (yields_required "nm" keeps_string)
    (yields_seq (yields_required "op" keeps_uint32)
    (yields_seq (yields_required "ip" keeps_uint32)
    (yields_seq (yields_required "fr" keeps_float)
    (yields_map (yields_required "v" keeps_string) ?_))))))))))
  intro depth version hv rate hfr first hip last hop name hnm flag hddd height hh width hw
    generator hmeta layers hlayers
  refine (MembersSound.cons hv (.cons hfr (.cons hip (.cons hop (.cons hnm (.cons hddd (.cons hh
    (.cons hw (.cons hmeta (.cons hlayers .nil)))))))))).of_eq ?_
  simp only [List.append_nil, List.nil_append, floats, oneFloat, List.cons_append]

end Lottie
end AnimatedGlyph
