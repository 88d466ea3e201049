/-
Values up to the order of their members.

What an object says is which value each of its names has, and where a name is given twice the
last value counts.  Two values are the same in this sense if they have the same shape and their
objects say the same at every depth (`Same`).  Settling a value puts the members of its objects
in ascending order and keeps what they say, and ascending members are determined by what they
say.  Hence values are the same if and only if they settle to one value (`settle_eq_iff`).
-/
import Mathlib.Data.List.Induction
import Mathlib.Data.List.Nodup
import AnimatedGlyph.Proofs.Restoring

namespace AnimatedGlyph
namespace Json

/-! ## What members say -/

theorem lookup_cons_eq (member : String × Json) (rest : List (String × Json)) (name : String) :
    (member :: rest).lookup name = if name = member.1 then some member.2 else rest.lookup name := by
  rw [List.lookup_cons]
  by_cases h : name = member.1
  · rw [if_pos h, beq_iff_eq.mpr h]
  · rw [if_neg h, beq_eq_false_iff_ne.mpr h]

/-- The value of a name, the last that it was given. -/
def valueOf (members : List (String × Json)) (name : String) : Option Json :=
  members.reverse.lookup name

theorem valueOf_concat (members : List (String × Json)) (member : String × Json) (name : String) :
    valueOf (members ++ [member]) name =
      if name = member.1 then some member.2 else valueOf members name := by
  rw [valueOf, List.reverse_append, List.reverse_singleton, List.singleton_append, lookup_cons_eq,
    valueOf]

theorem mem_of_valueOf {members : List (String × Json)} {name : String} {value : Json}
    (h : valueOf members name = some value) : (name, value) ∈ members :=
  List.mem_reverse.mp (mem_of_lookup h)

theorem valueOf_eq_lookup {members : List (String × Json)}
    (distinct : (members.map Prod.fst).Nodup) (name : String) :
    valueOf members name = members.lookup name := by
  have hreverse : (members.reverse.map Prod.fst).Nodup := by
    rwa [List.map_reverse, List.nodup_reverse]
  refine Option.ext fun value => ?_
  rw [valueOf, lookup_eq_some_iff_mem hreverse, lookup_eq_some_iff_mem distinct,
    List.mem_reverse]

theorem settleMember_eq (member : String × Json) :
    settleMember member = (member.1, settle member.2) := by
  obtain ⟨name, value⟩ := member
  rfl

theorem valueOf_map_settleMember (members : List (String × Json)) (name : String) :
    valueOf (members.map settleMember) name = (valueOf members name).map settle := by
  rw [valueOf, valueOf, ← List.map_reverse]
  induction members.reverse with
  | nil => rfl
  | cons member rest ih =>
    rw [List.map_cons, settleMember_eq, lookup_cons_eq, lookup_cons_eq, ih]
    split <;> rfl

theorem settleItems_eq_map (items : List Json) : settleItems items = items.map settle := by
  induction items with
  | nil => rfl
  | cons item rest ih => rw [settleItems, ih, List.map_cons]

theorem settleMembers_eq_map (members : List (String × Json)) :
    settleMembers members = members.map settleMember := by
  induction members with
  | nil => rfl
  | cons member rest ih => rw [settleMembers, ih, List.map_cons]

/-! ## Members in order -/

/-- The members stand in strictly ascending order of their names. -/
def Ascending (members : List (String × Json)) : Prop :=
  members.Pairwise fun member later => member.1 < later.1

theorem Ascending.nodup {members : List (String × Json)} (h : Ascending members) :
    (members.map Prod.fst).Nodup := by
  refine List.pairwise_map.mpr (h.imp fun {member later} hlt heq => ?_)
  rw [heq] at hlt
  exact String.lt_irrefl _ hlt

theorem lookup_putMember (name : String) (value : Json) (members : List (String × Json))
    (other : String) :
    (putMember name value members).lookup other =
      if other = name then some value else members.lookup other := by
  induction members with
  | nil => rw [putMember, lookup_cons_eq]
  | cons member rest ih =>
    obtain ⟨next, old⟩ := member
    rw [putMember]
    split
    · rw [lookup_cons_eq]
    · split
      · rename_i heq
        rw [lookup_cons_eq, lookup_cons_eq, ← heq]
        split <;> rfl
      · rename_i hne
        rw [lookup_cons_eq, lookup_cons_eq, ih]
        by_cases h : other = next
        · subst h
          rw [if_pos rfl, if_pos rfl, if_neg (Ne.symm hne)]
        · rw [if_neg h, if_neg h]

theorem name_lt_of_not {name other : String} (hlt : ¬name < other) (hne : ¬name = other) :
    other < name :=
  Decidable.by_contra fun h =>
    hne (String.le_antisymm (String.not_lt.mp h) (String.not_lt.mp hlt))

theorem mem_putMember {name : String} {value : Json} {members : List (String × Json)}
    {member : String × Json} (h : member ∈ putMember name value members) :
    member = (name, value) ∨ member ∈ members := by
  induction members with
  | nil => exact .inl (List.mem_singleton.mp h)
  | cons first rest ih =>
    obtain ⟨next, old⟩ := first
    rw [putMember] at h
    split at h
    · exact List.mem_cons.mp h
    · split at h
      · exact (List.mem_cons.mp h).imp_right (List.mem_cons_of_mem _)
      · rcases List.mem_cons.mp h with rfl | h
        · exact .inr List.mem_cons_self
        · exact (ih h).imp_right (List.mem_cons_of_mem _)

theorem ascending_putMember (name : String) (value : Json) {members : List (String × Json)}
    (h : Ascending members) : Ascending (putMember name value members) := by
  induction members with
  | nil => exact List.pairwise_singleton _ _
  | cons first rest ih =>
    obtain ⟨next, old⟩ := first
    obtain ⟨hfirst, hrest⟩ := List.pairwise_cons.mp h
    rw [putMember]
    split
    · rename_i hlt
      refine List.pairwise_cons.mpr ⟨List.forall_mem_cons.mpr ⟨hlt, fun member hmember => ?_⟩, h⟩
      exact String.lt_trans hlt (hfirst member hmember)
    · split
      · rename_i heq
        exact List.pairwise_cons.mpr ⟨fun member hmember => heq ▸ hfirst member hmember, hrest⟩
      · rename_i hlt hne
        refine List.pairwise_cons.mpr ⟨fun member hmember => ?_, ih hrest⟩
        rcases mem_putMember hmember with rfl | hmember
        · exact name_lt_of_not hlt hne
        · exact hfirst member hmember

/-- Ascending members are determined by what they say. -/
theorem Ascending.eq_of_lookup {members others : List (String × Json)} (h : Ascending members)
    (hothers : Ascending others) (hsame : ∀ name, members.lookup name = others.lookup name) :
    members = others := by
  have hperm : members.Perm others := by
    refine (List.perm_ext_iff_of_nodup h.nodup.of_map hothers.nodup.of_map).mpr fun member => ?_
    obtain ⟨name, value⟩ := member
    rw [← lookup_eq_some_iff_mem h.nodup, hsame, lookup_eq_some_iff_mem hothers.nodup]
  exact hperm.eq_of_pairwise (fun _ _ _ _ hlt hgt => absurd hgt (String.lt_asymm hlt)) h hothers

theorem orderMembers_concat (members : List (String × Json)) (member : String × Json) :
    orderMembers (members ++ [member]) = putMember member.1 member.2 (orderMembers members) := by
  rw [orderMembers, List.foldl_append]
  rfl

theorem ascending_orderMembers (members : List (String × Json)) :
    Ascending (orderMembers members) := by
  induction members using List.reverseRecOn with
  | nil => exact .nil
  | append_singleton rest member ih =>
    rw [orderMembers_concat]
    exact ascending_putMember _ _ ih

theorem lookup_orderMembers (members : List (String × Json)) (name : String) :
    (orderMembers members).lookup name = valueOf members name := by
  induction members using List.reverseRecOn with
  | nil => rfl
  | append_singleton rest member ih =>
    rw [orderMembers_concat, lookup_putMember, ih, valueOf_concat]

theorem mem_of_mem_orderMembers {members : List (String × Json)} {member : String × Json}
    (h : member ∈ orderMembers members) : member ∈ members := by
  obtain ⟨name, value⟩ := member
  have hlookup := lookup_of_mem (ascending_orderMembers members).nodup h
  rw [lookup_orderMembers] at hlookup
  exact mem_of_valueOf hlookup

/-- Ordered members say the same as before, and nothing else matters to them. -/
theorem orderMembers_eq_iff {members others : List (String × Json)} :
    orderMembers members = orderMembers others ↔
      ∀ name, valueOf members name = valueOf others name := by
  constructor
  · intro h name
    rw [← lookup_orderMembers, h, lookup_orderMembers]
  · intro h
    have ascending := ascending_orderMembers members
    refine ascending.eq_of_lookup (ascending_orderMembers others) fun name => ?_
    rw [lookup_orderMembers, lookup_orderMembers, h]

theorem Ascending.orderMembers_eq {members : List (String × Json)} (h : Ascending members) :
    orderMembers members = members := by
  refine (ascending_orderMembers members).eq_of_lookup h fun name => ?_
  rw [lookup_orderMembers, valueOf_eq_lookup h.nodup]

theorem settle_object (members : List (String × Json)) :
    settle (.object members) = .object (orderMembers (members.map settleMember)) := by
  rw [settle, settleMembers_eq_map]

theorem settle_array (items : List Json) : settle (.array items) = .array (items.map settle) := by
  rw [settle, settleItems_eq_map]

/-- Each member of a settled object is one of the object, its value settled. -/
theorem exists_of_mem_settled {members : List (String × Json)} {member : String × Json}
    (h : member ∈ orderMembers (members.map settleMember)) :
    ∃ given ∈ members, member = (given.1, settle given.2) := by
  obtain ⟨given, hgiven, rfl⟩ := List.mem_map.mp (mem_of_mem_orderMembers h)
  exact ⟨given, hgiven, settleMember_eq given⟩

/-! ## The same value -/

/-- Values that are equal but for the order of members, at every depth. -/
inductive Same : Json → Json → Prop
  | null : Same .null .null
  | bool (b : Bool) : Same (.bool b) (.bool b)
  | number (n : JsonNumber) : Same (.number n) (.number n)
  | string (s : String) : Same (.string s) (.string s)
  | array {items others : List Json} : items.length = others.length →
      (∀ (i : Nat) (a b : Json), items[i]? = some a → others[i]? = some b → Same a b) →
      Same (.array items) (.array others)
  | object {members others : List (String × Json)} :
      (∀ name, (valueOf members name).isSome = (valueOf others name).isSome) →
      (∀ (name : String) (a b : Json), valueOf members name = some a →
        valueOf others name = some b → Same a b) →
      Same (.object members) (.object others)

theorem Same.settle_eq {v w : Json} (h : Same v w) : settle v = settle w := by
  induction h with
  | null => rfl
  | bool b => rfl
  | number n => rfl
  | string s => rfl
  | @array items others hlength _ ih =>
    rw [settle_array, settle_array]
    refine congrArg Json.array (List.ext_getElem (by simpa using hlength) fun i hi hj => ?_)
    rw [List.getElem_map, List.getElem_map]
    exact ih i _ _ (List.getElem?_eq_getElem _) (List.getElem?_eq_getElem _)
  | @object members others hnames _ ih =>
    rw [settle_object, settle_object]
    refine congrArg Json.object (orderMembers_eq_iff.mpr fun name => ?_)
    rw [valueOf_map_settleMember, valueOf_map_settleMember]
    have hname := hnames name
    have hvalue := ih name
    cases hmember : valueOf members name with
    | none =>
      rw [hmember] at hname
      rw [Option.isSome_eq_false_iff.mp hname.symm |> Option.isNone_iff_eq_none.mp]
    | some a =>
      rw [hmember] at hname
      obtain ⟨b, hb⟩ := Option.isSome_iff_exists.mp hname.symm
      rw [hb, Option.map_some, Option.map_some, hvalue a b hmember hb]

theorem same_of_settle_eq {v w : Json} (h : settle v = settle w) : Same v w := by
  induction v using inductionOn generalizing w with
  | null =>
    cases w with
    | null => exact .null
    | _ => cases h
  | bool b =>
    cases w with
    | bool c =>
      cases h
      exact .bool b
    | _ => cases h
  | number n =>
    cases w with
    | number m =>
      cases h
      exact .number n
    | _ => cases h
  | string s =>
    cases w with
    | string t =>
      cases h
      exact .string s
    | _ => cases h
  | array items ih =>
    cases w with
    | array others =>
      rw [settle_array, settle_array] at h
      have hitems : items.map settle = others.map settle := Json.array.inj h
      refine .array (by simpa using congrArg List.length hitems) fun i a b ha hb => ?_
      have hitem := congrArg (fun list => list[i]?) hitems
      simp only [List.getElem?_map, ha, hb, Option.map_some, Option.some.injEq] at hitem
      exact ih a (List.mem_of_getElem? ha) hitem
    | _ => cases h
  | object members ih =>
    cases w with
    | object others =>
      rw [settle_object, settle_object] at h
      have hmembers : ∀ name, (valueOf members name).map settle =
          (valueOf others name).map settle := by
        intro name
        rw [← valueOf_map_settleMember, ← valueOf_map_settleMember]
        exact orderMembers_eq_iff.mp (Json.object.inj h) name
      refine .object (fun name => ?_) fun name a b ha hb => ?_
      · simpa using congrArg Option.isSome (hmembers name)
      · have hvalue := hmembers name
        rw [ha, hb] at hvalue
        exact ih _ (mem_of_valueOf ha) (Option.some.inj hvalue)
    | _ => cases h

/-- Values are the same if and only if they settle to one value. -/
theorem settle_eq_iff {v w : Json} : settle v = settle w ↔ Same v w :=
  ⟨same_of_settle_eq, Same.settle_eq⟩

theorem Same.refl (value : Json) : Same value value :=
  settle_eq_iff.mp rfl

theorem Same.symm {v w : Json} (h : Same v w) : Same w v :=
  settle_eq_iff.mp h.settle_eq.symm

theorem Same.trans {u v w : Json} (h : Same u v) (hnext : Same v w) : Same u w :=
  settle_eq_iff.mp (h.settle_eq.trans hnext.settle_eq)

/-! ## Settled values -/

/-- A settled value is settled already. -/
theorem settle_settle (value : Json) : settle (settle value) = settle value := by
  induction value using inductionOn with
  | null => rfl
  | bool b => rfl
  | number n => rfl
  | string s => rfl
  | array items ih =>
    rw [settle_array, settle_array, List.map_map]
    exact congrArg Json.array (List.map_congr_left ih)
  | object members ih =>
    rw [settle_object, settle_object]
    have hmembers : (orderMembers (members.map settleMember)).map settleMember =
        orderMembers (members.map settleMember) := by
      refine (List.map_congr_left fun member hmember => ?_).trans (List.map_id _)
      obtain ⟨given, hgiven, rfl⟩ := exists_of_mem_settled hmember
      rw [settleMember_eq, ih given hgiven]
      rfl
    rw [hmembers, (ascending_orderMembers _).orderMembers_eq]

theorem same_settle (value : Json) : Same (settle value) value :=
  settle_eq_iff.mp (settle_settle value)

theorem depth_settle_le {value : Json} {n : Nat} (h : value.depth ≤ n) :
    (settle value).depth ≤ n := by
  induction value using inductionOn generalizing n with
  | null => exact h
  | bool b => exact h
  | number m => exact h
  | string s => exact h
  | array items ih =>
    obtain ⟨inner, rfl, hitems⟩ := exists_of_depth_array_le h
    rw [settle_array, depth_array_le]
    exact List.forall_mem_map.mpr fun item hitem => ih item hitem (hitems item hitem)
  | object members ih =>
    obtain ⟨inner, rfl, hmembers⟩ := exists_of_depth_object_le h
    rw [settle_object, depth_object_le]
    intro member hmember
    obtain ⟨given, hgiven, rfl⟩ := exists_of_mem_settled hmember
    exact ih given hgiven (hmembers given hgiven)

theorem mem_numbers_of_settle {value : Json} {n : JsonNumber} (h : n ∈ (settle value).numbers) :
    n ∈ value.numbers := by
  induction value using inductionOn with
  | null => exact h
  | bool b => exact h
  | number m => exact h
  | string s => exact h
  | array items ih =>
    rw [settle_array, mem_numbers_array] at h
    obtain ⟨settled, hsettled, hn⟩ := h
    obtain ⟨item, hitem, rfl⟩ := List.mem_map.mp hsettled
    exact mem_numbers_array.mpr ⟨item, hitem, ih item hitem hn⟩
  | object members ih =>
    rw [settle_object, mem_numbers_object] at h
    obtain ⟨member, hmember, hn⟩ := h
    obtain ⟨given, hgiven, rfl⟩ := exists_of_mem_settled hmember
    exact mem_numbers_object.mpr ⟨given, hgiven, ih given hgiven hn⟩

end Json
end AnimatedGlyph
