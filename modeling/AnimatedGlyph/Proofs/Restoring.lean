/-
Readers that restore what was written.

A typed reader undoes a writer if it takes from the draft of a written value what was
written.  Only doubles stand in the way: one that is no number is written as `null`, and
nothing that asks for a number takes that.  `Restores` says both at once.  The floats of a
value decide whether it is restored or refused, and all doubles in the written value are
among them, so that they also decide whether its text reads back.

There is one lemma for each way to build a reader.  For records `Takes` says the same of
single fields and of several, each looked up by name among all members, so that a record
is restored because its fields are.
-/
import AnimatedGlyph.Proofs.JsonText
import AnimatedGlyph.Proofs.Lookup

namespace AnimatedGlyph
namespace Json

/-! ## Depth -/

mutual
/-- How many arrays and objects are open at once in a value. -/
def depth : Json → Nat
  | .array items => depthOfItems items + 1
  | .object members => depthOfMembers members + 1
  | _ => 0

/-- The greatest depth of items. -/
def depthOfItems : List Json → Nat
  | [] => 0
  | item :: rest => max (depth item) (depthOfItems rest)

def depthOfMember : String × Json → Nat
  | (_, value) => depth value

/-- The greatest depth of members. -/
def depthOfMembers : List (String × Json) → Nat
  | [] => 0
  | member :: rest => max (depthOfMember member) (depthOfMembers rest)
end

theorem depthOfItems_le {items : List Json} {n : Nat} :
    depthOfItems items ≤ n ↔ ∀ item ∈ items, item.depth ≤ n := by
  induction items with
  | nil => exact ⟨fun _ => nofun, fun _ => Nat.zero_le n⟩
  | cons item rest ih => rw [depthOfItems, Nat.max_le, ih, List.forall_mem_cons]

theorem depthOfMembers_le {members : List (String × Json)} {n : Nat} :
    depthOfMembers members ≤ n ↔ ∀ member ∈ members, member.2.depth ≤ n := by
  induction members with
  | nil => exact ⟨fun _ => nofun, fun _ => Nat.zero_le n⟩
  | cons member rest ih =>
    obtain ⟨name, value⟩ := member
    rw [depthOfMembers, depthOfMember, Nat.max_le, ih, List.forall_mem_cons]

theorem depth_array_le {items : List Json} {n : Nat} :
    (array items).depth ≤ n + 1 ↔ ∀ item ∈ items, item.depth ≤ n := by
  rw [depth, Nat.add_le_add_iff_right, depthOfItems_le]

theorem depth_object_le {members : List (String × Json)} {n : Nat} :
    (object members).depth ≤ n + 1 ↔ ∀ member ∈ members, member.2.depth ≤ n := by
  rw [depth, Nat.add_le_add_iff_right, depthOfMembers_le]

theorem exists_of_depth_array_le {items : List Json} {n : Nat} (h : (array items).depth ≤ n) :
    ∃ inner, n = inner + 1 ∧ ∀ item ∈ items, item.depth ≤ inner := by
  cases n with
  | zero => exact absurd h (Nat.not_succ_le_zero _)
  | succ inner => exact ⟨inner, rfl, depth_array_le.mp h⟩

theorem exists_of_depth_object_le {members : List (String × Json)} {n : Nat}
    (h : (object members).depth ≤ n) :
    ∃ inner, n = inner + 1 ∧ ∀ member ∈ members, member.2.depth ≤ inner := by
  cases n with
  | zero => exact absurd h (Nat.not_succ_le_zero _)
  | succ inner => exact ⟨inner, rfl, depth_object_le.mp h⟩

/-! ## Drafts of arrays and objects -/

theorem draftItems_eq_map (items : List Json) : draftItems items = items.map draft := by
  induction items with
  | nil => rfl
  | cons item rest ih => rw [draftItems, ih, List.map_cons]

mutual
/-- A value that may open so many arrays and objects is read whole from its draft. -/
theorem value_draft (value : Json) {n : Nat} (h : value.depth ≤ n) :
    (draft value).value n = .ok value := by
  cases value with
  | null => rfl
  | bool b => rfl
  | number n => rfl
  | string s => rfl
  | array items =>
    obtain ⟨inner, rfl, hitems⟩ := exists_of_depth_array_le h
    rw [draft, Draft.value, valueItems_draftItems items hitems]
    rfl
  | object members =>
    obtain ⟨inner, rfl, hmembers⟩ := exists_of_depth_object_le h
    rw [draft, Draft.value, valueMembers_draftMembers members hmembers]
    rfl

theorem valueItems_draftItems (items : List Json) {n : Nat} (h : ∀ item ∈ items, item.depth ≤ n) :
    valueItems n (draftItems items) = .ok items := by
  cases items with
  | nil => rfl
  | cons item rest =>
    obtain ⟨hitem, hrest⟩ := List.forall_mem_cons.mp h
    rw [draftItems, valueItems, value_draft item hitem, valueItems_draftItems rest hrest]
    rfl

theorem valueMembers_draftMembers (members : List (String × Json)) {n : Nat}
    (h : ∀ member ∈ members, member.2.depth ≤ n) :
    valueMembers n (draftMembers members) = .ok members := by
  cases members with
  | nil => rfl
  | cons member rest =>
    obtain ⟨name, value⟩ := member
    obtain ⟨hvalue, hrest⟩ := List.forall_mem_cons.mp h
    rw [draftMembers, draftMember, valueMembers, valueMember, value_draft value hvalue,
      valueMembers_draftMembers rest hrest]
    rfl
end

/-- A text of a value is read as that value. -/
theorem Spells.ofText {value : Json} {bs gap : List UInt8} (h : Spells value bs) (hgap : Gap gap)
    (hdepth : value.depth ≤ nestingLimit) : ofText Draft.value (bs ++ gap) = .ok value := by
  rw [Json.ofText, h.readText hgap]
  simp only [bind, Except.bind, value_draft value hdepth]
  rfl

theorem ofText_value {value : Json} (hnumbers : value.NumbersReadBack)
    (hdepth : value.depth ≤ nestingLimit) :
    ofText Draft.value (textBytes value.compact) = .ok value := by
  have hread := (spells_bytes hnumbers).ofText gap_nil hdepth
  rwa [List.append_nil] at hread

/-! ## Readers that restore -/

/-- Reading the draft of a value that stands for `a` gives `a` if all its floats are
numbers and refuses it otherwise, and the doubles in the value are among its floats. -/
structure Restores {α : Type} (decode : Decoder α) (value : Json) (floats : List Float) (a : α) :
    Prop where
  reads : ∀ {depth : Nat}, value.depth ≤ depth →
    decode depth (draft value) = if floats.all Float.isFinite then .ok a else .error .mismatch
  doubles : ∀ {x : Number.FiniteFloat}, .double x ∈ value.numbers → x.val ∈ floats

variable {α β : Type} {decode : Decoder α} {value : Json} {floats : List Float} {a : α}

theorem Restores.of_eq (restores : Restores decode value floats a) {others : List Float}
    (h : floats = others) : Restores decode value others a :=
  h ▸ restores

theorem Restores.map (f : α → β) (restores : Restores decode value floats a) :
    Restores (fun depth draft => (decode depth draft).map f) value floats (f a) where
  reads := by
    intro depth hdepth
    rw [restores.reads hdepth]
    cases floats.all Float.isFinite <;> rfl
  doubles := restores.doubles

/-! ### Simple values -/

theorem restores_string (s : String) : Restores decodeString (.string s) [] s :=
  ⟨fun _ => rfl, nofun⟩

theorem restores_bool (b : Bool) : Restores decodeBool (.bool b) [] b :=
  ⟨fun _ => rfl, nofun⟩

theorem decodeNatural_draft {limit depth : Nat} {n : UInt64} (h : n.toNat ≤ limit) :
    decodeNatural limit depth (draft (.ofUInt64 n)) = .ok n.toNat := by
  show (if n.toNat ≤ limit then Except.ok n.toNat else Except.error Fault.mismatch) = _
  rw [if_pos h]

theorem restores_uint8 (n : UInt8) : Restores decodeUInt8 (.ofUInt8 n) [] n where
  reads := by
    intro depth _
    have hn : n.toUInt64.toNat ≤ 255 := by
      rw [UInt8.toNat_toUInt64]
      exact Nat.le_of_lt_succ n.toNat_lt
    rw [decodeUInt8, ofUInt8, decodeNatural_draft hn, UInt8.toNat_toUInt64]
    exact congrArg Except.ok UInt8.ofNat_toNat
  doubles := by
    intro x hx
    cases List.mem_singleton.mp hx

theorem restores_uint32 (n : UInt32) : Restores decodeUInt32 (.ofUInt32 n) [] n where
  reads := by
    intro depth _
    have hn : n.toUInt64.toNat ≤ 4294967295 := by
      rw [UInt32.toNat_toUInt64]
      exact Nat.le_of_lt_succ n.toNat_lt
    rw [decodeUInt32, ofUInt32, decodeNatural_draft hn, UInt32.toNat_toUInt64]
    exact congrArg Except.ok UInt32.ofNat_toNat
  doubles := by
    intro x hx
    cases List.mem_singleton.mp hx

theorem restores_float (x : Float) : Restores decodeFloat (.ofFloat x) [x] x where
  reads := by
    intro depth _
    rw [ofFloat, Number.FiniteFloat.ofFloat?]
    by_cases h : x.isFinite = true
    · simp only [List.all_cons, List.all_nil, h, Bool.and_self, if_true]
      rfl
    · have hfalse : x.isFinite = false := Bool.eq_false_iff.mpr h
      simp only [List.all_cons, hfalse, Bool.false_and, Bool.false_eq_true, if_false]
      rfl
  doubles := by
    intro y hy
    rw [ofFloat, Number.FiniteFloat.ofFloat?] at hy
    by_cases h : x.isFinite = true
    · rw [dif_pos h] at hy
      cases List.mem_singleton.mp hy
      exact List.mem_singleton_self x
    · rw [dif_neg h] at hy
      cases hy

/-! ### Lists -/

theorem mapM_draft {encode : β → Json} {decode : Decoder β} {floats : β → List Float} {n : Nat}
    {items : List β} (hdepth : ∀ item ∈ items, (encode item).depth ≤ n)
    (h : ∀ item ∈ items, Restores decode (encode item) (floats item) item) :
    ((items.map encode).map draft).mapM (decode n) =
      if (items.flatMap floats).all Float.isFinite then .ok items else .error .mismatch := by
  induction items with
  | nil => rfl
  | cons item rest ih =>
    obtain ⟨hitem, hrest⟩ := List.forall_mem_cons.mp h
    obtain ⟨hdepthItem, hdepthRest⟩ := List.forall_mem_cons.mp hdepth
    have hfirst := hitem.reads hdepthItem
    have hmore := ih hdepthRest hrest
    rw [List.map_cons, List.map_cons, List.mapM_cons, hfirst, hmore, List.flatMap_cons,
      List.all_append]
    cases (floats item).all Float.isFinite with
    | false => rfl
    | true =>
      rw [Bool.true_and, if_pos rfl]
      cases (rest.flatMap floats).all Float.isFinite <;> rfl

theorem doubles_ofList {encode : β → Json} {decode : Decoder β} {floats : β → List Float}
    {items : List β} (h : ∀ item ∈ items, Restores decode (encode item) (floats item) item)
    {x : Number.FiniteFloat} (hx : .double x ∈ (ofList encode items).numbers) :
    x.val ∈ items.flatMap floats := by
  obtain ⟨_, hmem, hnumber⟩ := mem_numbers_array.mp hx
  obtain ⟨item, hitem, rfl⟩ := List.mem_map.mp hmem
  exact List.mem_flatMap.mpr ⟨item, hitem, (h item hitem).doubles hnumber⟩

theorem restores_list {encode : β → Json} {decode : Decoder β} {floats : β → List Float}
    {items : List β} (h : ∀ item ∈ items, Restores decode (encode item) (floats item) item) :
    Restores (decodeList decode) (.ofList encode items) (items.flatMap floats) items where
  reads := by
    intro depth hdepth
    obtain ⟨inner, rfl, hitems⟩ := exists_of_depth_array_le hdepth
    have hmap := mapM_draft (fun item hitem => hitems _ (List.mem_map_of_mem hitem)) h
    rw [ofList, draft, draftItems_eq_map, decodeList, hmap]
    cases (items.flatMap floats).all Float.isFinite <;> rfl
  doubles := doubles_ofList h

theorem restores_exactly {encode : β → Json} {decode : Decoder β} {floats : β → List Float}
    {items : List β} (h : ∀ item ∈ items, Restores decode (encode item) (floats item) item) :
    Restores (decodeExactly items.length decode) (.ofList encode items) (items.flatMap floats)
      items where
  reads := by
    intro depth hdepth
    obtain ⟨inner, rfl, hitems⟩ := exists_of_depth_array_le hdepth
    have hlength : ((items.map encode).map draft).length = items.length := by
      rw [List.length_map, List.length_map]
    have hmap := mapM_draft (fun item hitem => hitems _ (List.mem_map_of_mem hitem)) h
    rw [ofList, draft, draftItems_eq_map, decodeExactly,
      List.take_of_length_le (Nat.le_of_eq hlength), hmap]
    cases (items.flatMap floats).all Float.isFinite with
    | false => rfl
    | true =>
      simp only [if_true, hlength, Nat.lt_irrefl, if_false]
      rfl
  doubles := doubles_ofList h

/-! ### Members by name -/

theorem says_sound (name other : String) : Leaf.says (.sound other) name = (name == other) :=
  Bool.beq_comm

theorem slotOf_draftMembers (name : String) (members : List (String × Json)) (place : Nat) :
    (slotOf name place (draftMembers members)).map Slot.draft =
      (members.lookup name).map draft := by
  induction members generalizing place with
  | nil => rfl
  | cons member rest ih =>
    obtain ⟨other, value⟩ := member
    rw [draftMembers, draftMember, slotOf, says_sound, List.lookup_cons]
    by_cases hname : (name == other) = true
    · rw [if_pos hname, hname]
      rfl
    · rw [if_neg hname, ih, Bool.eq_false_iff.mpr hname]

@[simp]
theorem lookup_optionalMember {encode : α → Json} (name other : String) (field : Option α) :
    (optionalMember other encode field).lookup name =
      if name == other then field.map encode else none := by
  cases field with
  | none => cases name == other <;> rfl
  | some a =>
    rw [optionalMember, List.lookup_cons]
    cases name == other <;> rfl

theorem names_optionalMember (name : String) (encode : α → Json) (field : Option α) :
    ((optionalMember name encode field).map Prod.fst).Sublist [name] := by
  cases field with
  | none => exact List.nil_sublist _
  | some a => exact List.Sublist.refl _

/-- Nothing is wrong with the members of a record, each of which is a field of it, if no
field is given twice. -/
theorem walkMembers_draftMembers (names : List String) {members : List (String × Json)}
    (hknown : ∀ name ∈ members.map Prod.fst, name ∈ names) :
    ∀ (met : List String) (place : Nat), (members.map Prod.fst).Nodup →
      (∀ name ∈ members.map Prod.fst, name ∉ met) →
        walkMembers names met none place (draftMembers members) = none := by
  induction members with
  | nil => intro met place _ _; rfl
  | cons member rest ih =>
    obtain ⟨name, value⟩ := member
    intro met place hnodup hfresh
    obtain ⟨hknownName, hknownRest⟩ := List.forall_mem_cons.mp hknown
    obtain ⟨hfreshName, hfreshRest⟩ := List.forall_mem_cons.mp hfresh
    obtain ⟨hname, hrest⟩ := List.nodup_cons.mp hnodup
    have hmet : ¬met.contains name = true := fun h => hfreshName (List.contains_iff_mem.mp h)
    have hmore : ∀ other ∈ rest.map Prod.fst, other ∉ name :: met := by
      intro other hother hmem
      rcases List.mem_cons.mp hmem with rfl | hmem
      · exact hname hother
      · exact hfreshRest other hother hmem
    rw [draftMembers, draftMember, walkMembers]
    simp only [Leaf.sound, if_neg hmet, if_pos (List.contains_iff_mem.mpr hknownName)]
    exact ih hknownRest (name :: met) (place + 1) hrest hmore

/-! ### Fields of records -/

/-- The outcome is the record `a` if its fields are sound, and else a mismatch. -/
def Outcome.Settles (outcome : Outcome α) (sound : Bool) (a : α) : Prop :=
  if sound then outcome = ⟨none, some a⟩ else ∃ place, outcome.fault = some (place, .mismatch)

/-- The earlier of two mismatches is one. -/
theorem Outcome.Settles.both {f : Outcome (α → β)} {x : Outcome α} {first second : Bool}
    {g : α → β} (hf : f.Settles first g) (hx : x.Settles second a) :
    Outcome.Settles ⟨earlier f.fault x.fault, f.value <*> x.value⟩ (first && second) (g a) := by
  cases first with
  | true =>
    have hf : f = ⟨none, some g⟩ := hf
    rw [hf]
    cases second with
    | true =>
      have hx : x = ⟨none, some a⟩ := hx
      rw [hx]
      rfl
    | false => exact hx
  | false =>
    obtain ⟨place, hplace⟩ := hf
    cases second with
    | true =>
      have hx : x = ⟨none, some a⟩ := hx
      rw [hx]
      exact ⟨place, by rw [hplace]; rfl⟩
    | false =>
      obtain ⟨other, hother⟩ := hx
      by_cases hlt : other < place
      · exact ⟨other, by simp only [hplace, hother, earlier, if_pos hlt]⟩
      · exact ⟨place, by simp only [hplace, hother, earlier, if_neg hlt]⟩

/-- The fields of a reader stand among members of a record, and reading them there gives
`a` or, if one of its floats is no number, a mismatch. -/
structure Takes {α : Type} (reader : RecordReader α) (members : List (String × Json))
    (floats : List Float) (a : α) : Prop where
  reads : ∀ {depth : Nat}, (∀ member ∈ members, member.2.depth ≤ depth) →
    (reader.read depth (reader.names.map fun name => slotOf name 0 (draftMembers members))).Settles
      (floats.all Float.isFinite) a
  doubles : ∀ name ∈ reader.names, ∀ value, members.lookup name = some value →
    ∀ {x : Number.FiniteFloat}, .double x ∈ value.numbers → x.val ∈ floats

variable {members : List (String × Json)} {more : List Float}

theorem slot_of_lookup {name : String} (h : members.lookup name = some value) :
    ∃ place, slotOf name 0 (draftMembers members) = some ⟨place, draft value⟩ := by
  have hslot := slotOf_draftMembers name members 0
  rw [h] at hslot
  obtain ⟨⟨place, _⟩, hplace, hdraft⟩ := Option.map_eq_some_iff.mp hslot
  cases hdraft
  exact ⟨place, hplace⟩

theorem slot_of_lookup_none {name : String} (h : members.lookup name = none) :
    slotOf name 0 (draftMembers members) = none := by
  have hslot := slotOf_draftMembers name members 0
  rw [h] at hslot
  exact Option.map_eq_none_iff.mp hslot

theorem takes_field {name : String} {absent : Option α} (h : members.lookup name = some value)
    (restores : Restores decode value floats a) :
    Takes (.field name decode absent) members floats a where
  reads := by
    intro depth hdepth
    obtain ⟨place, hslot⟩ := slot_of_lookup h
    have hread := restores.reads (hdepth _ (mem_of_lookup h))
    simp only [RecordReader.field, List.map_cons, hslot, hread, Outcome.Settles]
    cases floats.all Float.isFinite with
    | true => rfl
    | false => exact ⟨place, rfl⟩
  doubles := by
    intro other hother found hfound x hx
    rw [List.mem_singleton.mp hother, h] at hfound
    cases hfound
    exact restores.doubles hx

theorem takes_absent {name : String} (h : members.lookup name = none) :
    Takes (.field name decode (some a)) members [] a where
  reads := by
    intro depth _
    simp only [RecordReader.field, List.map_cons, slot_of_lookup_none h]
    rfl
  doubles := by
    intro other hother found hfound
    rw [List.mem_singleton.mp hother, h] at hfound
    cases hfound

theorem takes_required {name : String} (h : members.lookup name = some value)
    (restores : Restores decode value floats a) : Takes (required name decode) members floats a :=
  takes_field h restores

theorem restores_option (restores : Restores decode value floats a) (h : value ≠ .null) :
    Restores (decodeOption decode) value floats (some a) where
  reads := by
    intro depth hdepth
    have hnull : draft value ≠ .null := by
      cases value <;> first | exact absurd rfl h | nofun
    have hoption : decodeOption decode depth (draft value) =
        (decode depth (draft value)).map some := by
      rw [decodeOption]
      exact hnull
    rw [hoption, restores.reads hdepth]
    cases floats.all Float.isFinite <;> rfl
  doubles := restores.doubles

theorem ofUInt8_ne_null (n : UInt8) : ofUInt8 n ≠ .null := by
  rintro ⟨⟩

theorem ofUInt32_ne_null (n : UInt32) : ofUInt32 n ≠ .null := by
  rintro ⟨⟩

theorem string_ne_null (s : String) : string s ≠ .null := by
  rintro ⟨⟩

theorem array_ne_null (items : List Json) : array items ≠ .null := by
  rintro ⟨⟩

theorem object_ne_null (members : List (String × Json)) : object members ≠ .null := by
  rintro ⟨⟩

theorem takes_optional {name : String} {decode : Decoder β} {field : Option β} (encode : β → Json)
    (floats : β → List Float) (h : members.lookup name = field.map encode)
    (restores : ∀ b, field = some b →
      encode b ≠ .null ∧ Restores decode (encode b) (floats b) b) :
    Takes (optional name decode) members (field.elim [] floats) field := by
  cases field with
  | none => exact takes_absent h
  | some b =>
    obtain ⟨hnull, hb⟩ := restores b rfl
    exact takes_field h (restores_option hb hnull)

/-- Most optional fields hold no floats. -/
theorem takes_optional_plain {name : String} {decode : Decoder β} {field : Option β}
    (encode : β → Json) (h : members.lookup name = field.map encode)
    (hnull : ∀ b, encode b ≠ .null) (restores : ∀ b, Restores decode (encode b) [] b) :
    Takes (optional name decode) members [] field := by
  have htakes := takes_optional encode (fun _ => []) h fun b _ => ⟨hnull b, restores b⟩
  cases field <;> exact htakes

theorem takes_pure (a : α) : Takes (pure a : RecordReader α) members [] a :=
  ⟨fun _ => rfl, nofun⟩

theorem takes_seq {f : RecordReader (α → β)} {x : RecordReader α} {g : α → β}
    (hf : Takes f members floats g) (hx : Takes x members more a) :
    Takes (f <*> x) members (floats ++ more) (g a) where
  reads := by
    intro depth hdepth
    have hboth := (hf.reads hdepth).both (hx.reads hdepth)
    show (RecordReader.read (RecordReader.both f x) depth
      ((RecordReader.both f x).names.map fun name => slotOf name 0 (draftMembers members))).Settles
        ((floats ++ more).all Float.isFinite) (g a)
    have hlength : (f.names.map fun name => slotOf name 0 (draftMembers members)).length =
        f.names.length := List.length_map _
    simp only [RecordReader.both, List.map_append, List.take_left' hlength,
      List.drop_left' hlength, List.all_append]
    exact hboth
  doubles := by
    intro name hname value hvalue y hy
    rcases List.mem_append.mp hname with hname | hname
    · exact List.mem_append_left more (hf.doubles name hname value hvalue hy)
    · exact List.mem_append_right floats (hx.doubles name hname value hvalue hy)

theorem takes_map {x : RecordReader α} (f : α → β) (hx : Takes x members floats a) :
    Takes (f <$> x) members floats (f a) :=
  takes_seq (takes_pure f) hx

/-- A record is restored if its fields are taken and it has no members besides them. -/
theorem Takes.restores {reader : RecordReader α} (takes : Takes reader members floats a)
    (hnames : (members.map Prod.fst).Sublist reader.names) (hnodup : reader.names.Nodup) :
    Restores reader.decode (.object members) floats a where
  reads := by
    intro depth hdepth
    obtain ⟨inner, rfl, hmembers⟩ := exists_of_depth_object_le hdepth
    have hsettles := takes.reads hmembers
    have hwalk := walkMembers_draftMembers reader.names (fun name hname => hnames.subset hname) [] 0
      (hnames.nodup hnodup) (fun _ _ => List.not_mem_nil)
    rw [draft, RecordReader.decode]
    simp only [hwalk]
    cases hsound : floats.all Float.isFinite with
    | true =>
      rw [hsound] at hsettles
      have hsettles : _ = (⟨none, some a⟩ : Outcome α) := hsettles
      rw [hsettles]
      rfl
    | false =>
      rw [hsound] at hsettles
      obtain ⟨place, hfault⟩ := hsettles
      rw [settleOutcome, hfault]
      rfl
  doubles := by
    intro x hx
    obtain ⟨member, hmem, hnumber⟩ := mem_numbers_object.mp hx
    have hname := hnames.subset (List.mem_map_of_mem hmem)
    exact takes.doubles member.1 hname member.2 (lookup_of_mem (hnames.nodup hnodup) hmem) hnumber

theorem Restores.decodeObject {reader : RecordReader α}
    (restores : Restores reader.decode (.object members) floats a) :
    Restores reader.decodeObject (.object members) floats a :=
  ⟨restores.reads, restores.doubles⟩

end Json
end AnimatedGlyph
