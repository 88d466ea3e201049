/-
Canonical texts are a normal form.

The canonical text of a value is the compact text of the value with the members of its objects
in order (`Ordered`).  There is one such value for all that are the same up to the order of
members, and the compact text of a value determines it.  So canonical texts are equal exactly
if the values are the same, and reading one gives the value in order.  For documents more is
true: they write their members in a fixed order, so that the canonical texts of two documents
are equal exactly if they are the same animation.
-/
import AnimatedGlyph.Proofs.ByteOrder
import AnimatedGlyph.Proofs.CompactText
import AnimatedGlyph.Proofs.FixedOrder
import AnimatedGlyph.Proofs.OutsideStrings

namespace AnimatedGlyph
namespace Json

/-! ## Values in order -/

/-- At every depth the names of an object stand in strictly ascending order of their bytes. -/
inductive Ordered : Json → Prop
  | null : Ordered .null
  | bool (b : Bool) : Ordered (.bool b)
  | number (n : JsonNumber) : Ordered (.number n)
  | string (s : String) : Ordered (.string s)
  | array {items : List Json} : (∀ item ∈ items, Ordered item) → Ordered (.array items)
  | object {members : List (String × Json)} :
      members.Pairwise (fun member later => textBytes member.1 < textBytes later.1) →
      (∀ member ∈ members, Ordered member.2) → Ordered (.object members)

theorem ordered_settle (value : Json) : Ordered (settle value) := by
  induction value using inductionOn with
  | null => exact .null
  | bool b => exact .bool b
  | number n => exact .number n
  | string s => exact .string s
  | array items ih =>
    rw [settle_array]
    exact .array (List.forall_mem_map.mpr ih)
  | object members ih =>
    rw [settle_object]
    refine .object ((ascending_orderMembers _).imp textBytes_lt) fun member hmember => ?_
    obtain ⟨given, hgiven, rfl⟩ := exists_of_mem_settled hmember
    exact ih given hgiven

/-- Names in order of their bytes are in order. -/
theorem lt_of_textBytes_lt {s t : String} (h : textBytes s < textBytes t) : s < t := by
  by_contra hnot
  by_cases heq : s = t
  · subst heq
    exact List.lt_irrefl _ h
  · exact List.lt_asymm h (textBytes_lt (name_lt_of_not hnot heq))

/-- A value in order is settled already. -/
theorem Ordered.settle_eq {value : Json} (h : Ordered value) : settle value = value := by
  induction h with
  | null => rfl
  | bool b => rfl
  | number n => rfl
  | string s => rfl
  | @array items _ ih =>
    rw [settle_array]
    exact congrArg Json.array ((List.map_congr_left ih).trans (List.map_id _))
  | @object members hascending _ ih =>
    have hmembers : members.map settleMember = members := by
      refine (List.map_congr_left fun member hmember => ?_).trans (List.map_id _)
      rw [settleMember_eq, ih member hmember]
      rfl
    have ascending : Ascending members := hascending.imp lt_of_textBytes_lt
    rw [settle_object, hmembers, ascending.orderMembers_eq]

/-- Values in order that are the same are equal. -/
theorem Ordered.eq_of_same {v w : Json} (hv : Ordered v) (hw : Ordered w) (h : Same v w) :
    v = w := by
  rw [← hv.settle_eq, ← hw.settle_eq, h.settle_eq]

/-! ## Canonical texts -/

theorem canonical_eq_iff {v w : Json} : v.canonical = w.canonical ↔ Same v w := by
  rw [canonical, canonical, compact_inj, settle_eq_iff]

theorem NumbersReadBack.settle {value : Json} (h : value.NumbersReadBack) :
    (Json.settle value).NumbersReadBack := fun n hn => h n (mem_numbers_of_settle hn)

theorem ofText_canonical {value : Json} (hnumbers : value.NumbersReadBack)
    (hdepth : value.depth ≤ nestingLimit) :
    ofText Draft.value (textBytes value.canonical) = .ok (settle value) :=
  ofText_value hnumbers.settle (depth_settle_le hdepth)

theorem canonical_settle (value : Json) : (settle value).canonical = value.canonical := by
  rw [canonical, canonical, settle_settle]

end Json

open Json (Same Ordered outside)

/-- The canonical text of a value is the compact text of the one value in order that is the same
as it.  Values have equal canonical texts if and only if they are the same.  A document has a hash
if it has a Lottie form, and documents hash equal bytes if and only if the values of these are the
same. -/
theorem canonical_normal_form :
    (∀ v w : Json, v.canonical = w.canonical ↔ Same v w) ∧
      (∀ v : Json, ∃ u : Json, Ordered u ∧ Same u v ∧ (∀ other, Ordered other → Same other v →
          other = u) ∧ v.canonical = u.compact ∧ u.canonical = v.canonical ∧
            (∀ c ∈ outside v.canonical, Text.isBlank c = false) ∧
              (v.NumbersReadBack → v.depth ≤ Json.nestingLimit →
                Json.ofText Json.Draft.value (textBytes v.canonical) = .ok u)) ∧
        ∀ d e : AnimationDocument, d.hash.isSome = d.toLottie.isSome ∧
          ∀ a b, d.toLottie = some a → e.toLottie = some b →
            d.hash = some (Digest.sha256Hex (textBytes a.toJson.canonical)) ∧
              (textBytes a.toJson.canonical = textBytes b.toJson.canonical ↔
                Same a.toJson b.toJson) ∧
                ((∀ x ∈ a.floats, x.isFinite = true) → (∀ x ∈ b.floats, x.isFinite = true) →
                  (Same a.toJson b.toJson ↔ a = b)) := by
  refine ⟨fun v w => Json.canonical_eq_iff, fun v => ?_, fun d e => ⟨?_, fun a b hd _ =>
    ⟨?_, ?_, fun ha hb => ?_⟩⟩⟩
  · have hordered := Json.ordered_settle v
    have hsame := Json.same_settle v
    refine ⟨v.settle, hordered, hsame, fun other hother hsameOther => ?_, rfl,
      Json.canonical_settle v, (Json.solid_compact v.settle).solid, Json.ofText_canonical⟩
    exact hother.eq_of_same hordered (hsameOther.trans hsame.symm)
  · rw [AnimationDocument.hash, AnimationDocument.toJson, Option.isSome_map, Option.isSome_map]
  · rw [AnimationDocument.hash, AnimationDocument.toJson, hd]
    rfl
  · rw [← Json.canonical_eq_iff]
    exact ⟨Json.textBytes_inj, congrArg textBytes⟩
  · refine ⟨Lottie.Animation.eq_of_same ha hb, fun heq => ?_⟩
    rw [heq]
    exact Same.refl _

instance (value : Json) : Decidable value.NumbersReadBack :=
  inferInstanceAs (Decidable (∀ n ∈ value.numbers, n.ReadsBack))

/-- A half, and zeros of both signs, among members in descending order. -/
def descending : Json :=
  .object [("z", .ofFloat 0.5), ("é", .array [.object [("b", .null), ("a", .ofFloat (-0.0))]]),
    ("e", .ofFloat 0.0)]

/-- The same value in order. -/
def ascending : Json :=
  .object [("e", .ofFloat 0.0), ("z", .ofFloat 0.5),
    ("é", .array [.object [("a", .ofFloat (-0.0)), ("b", .null)]])]

/-- An animation of one background. -/
def plainDocument (colour : String) : AnimationDocument where
  version := "5.5.2"
  frameRate := 60.0
  totalFrames := 180
  name := "01"
  height := 512
  width := 512
  generator := "sketch"
  layers := [⟨"ground", ⟨0, 180⟩, .background ⟨colour, 512, 512⟩⟩]

theorem canonical_normal_form_of_descending :
    Same descending ascending ∧ descending.NumbersReadBack ∧
      descending.depth ≤ Json.nestingLimit ∧
        (∃ u, Json.ofText Json.Draft.value (textBytes descending.canonical) = .ok u ∧
          Ordered u ∧ Same u descending) ∧
          ∃ black white, (plainDocument "#000000").toLottie = some black ∧
            (plainDocument "#ffffff").toLottie = some white ∧
              (∀ x ∈ black.floats, x.isFinite = true) ∧ ¬Same black.toJson white.toJson := by
  obtain ⟨htexts, hreads, hhashes⟩ := canonical_normal_form
  have hnumbers : descending.NumbersReadBack := by decide +kernel
  have hdepth : descending.depth ≤ Json.nestingLimit := by decide +kernel
  have hsame : Same descending ascending := (htexts _ _).mp (by decide +kernel)
  obtain ⟨u, hordered, hu, -, -, -, -, hread⟩ := hreads descending
  have hplain : ∀ colour, (plainDocument colour).toLottie = some ((plainDocument colour).animationOf
      [.solid "ground" 0 180 colour 512 512]) := fun _ => rfl
  have hblack : ∀ x ∈ ((plainDocument "#000000").animationOf
      [.solid "ground" 0 180 "#000000" 512 512]).floats, x.isFinite = true := by
    decide +kernel
  have hwhite : ∀ x ∈ ((plainDocument "#ffffff").animationOf
      [.solid "ground" 0 180 "#ffffff" 512 512]).floats, x.isFinite = true := by
    decide +kernel
  have hequal := ((hhashes _ _).2 _ _ (hplain "#000000") (hplain "#ffffff")).2.2 hblack hwhite
  refine ⟨hsame, hnumbers, hdepth, ⟨u, hread hnumbers hdepth, hordered, hu⟩, _, _, hplain _,
    hplain _, hblack, fun h => ?_⟩
  exact absurd (congrArg (fun animation => animation.layers.map Lottie.Layer.solidColour)
    (hequal.mp h)) (by decide +kernel)

end AnimatedGlyph
