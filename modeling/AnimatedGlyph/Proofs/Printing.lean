/-
What is printed.

The values that are printed have no numbers but counts, so that all of them read back, and are
nested only a few levels deep.  A reader of any JSON value therefore finds in what is printed the
value that was meant, with the members of its objects in order (`Output.Prints`), whether it stands
on one line or on several.  The members of a manifest hold the parts of its sticker.
-/
import AnimatedGlyph.Command.Run
import AnimatedGlyph.Proofs.NormalForm
import AnimatedGlyph.Proofs.PrettyText

namespace AnimatedGlyph
namespace Json

/-! ## Plain values -/

/-- The numbers of the value read back, and it is nested at most so deep. -/
structure Plain (n : Nat) (value : Json) : Prop where
  numbers : value.NumbersReadBack
  depth_le : value.depth ≤ n

theorem plain_bool (n : Nat) (b : Bool) : Plain n (.bool b) :=
  ⟨nofun, Nat.zero_le n⟩

theorem plain_string (n : Nat) (s : String) : Plain n (.string s) :=
  ⟨nofun, Nat.zero_le n⟩

theorem plain_ofCount (n count : Nat) : Plain n (.ofCount count) := by
  refine ⟨fun number hnumber => ?_, Nat.zero_le n⟩
  rw [List.mem_singleton.mp hnumber]
  exact readsBack_natural _

theorem plain_array {n : Nat} {items : List Json} (h : ∀ item ∈ items, Plain n item) :
    Plain (n + 1) (.array items) := by
  refine ⟨fun number hnumber => ?_, depth_array_le.mpr fun item hitem => (h item hitem).depth_le⟩
  obtain ⟨item, hitem, hn⟩ := mem_numbers_array.mp hnumber
  exact (h item hitem).numbers number hn

theorem plain_ofList {α : Type} {n : Nat} {encode : α → Json} (items : List α)
    (h : ∀ a, Plain n (encode a)) : Plain (n + 1) (.ofList encode items) :=
  plain_array (List.forall_mem_map.mpr fun a _ => h a)

theorem plain_object {n : Nat} {members : List (String × Json)}
    (h : ∀ value ∈ members.map Prod.snd, Plain n value) : Plain (n + 1) (.object members) := by
  have hmembers : ∀ member ∈ members, Plain n member.2 :=
    fun member hmember => h _ (List.mem_map_of_mem hmember)
  refine ⟨fun number hnumber => ?_,
    depth_object_le.mpr fun member hmember => (hmembers member hmember).depth_le⟩
  obtain ⟨member, hmember, hn⟩ := mem_numbers_object.mp hnumber
  exact (hmembers member hmember).numbers number hn

/-- The object has this value under the name. -/
def Says (value : Json) (name : String) (held : Json) : Prop :=
  ∃ members, value = .object members ∧ members.lookup name = some held

end Json

open Json (Plain plain_bool plain_string plain_ofCount plain_ofList plain_object)

/-! ## Reports and manifests -/

theorem plain_glyph (n : Nat) (glyph : ResolvedGlyph) : Plain (n + 1) glyph.toJson := by
  refine plain_object ?_
  simp only [List.map_cons, List.map_nil, List.forall_mem_cons, GlyphCode.toJson, plain_string,
    true_and]
  exact nofun

theorem plain_violation (n : Nat) (violation : Violation) : Plain (n + 2) violation.toJson := by
  refine plain_object ?_
  simp only [List.map_cons, List.map_nil, List.forall_mem_cons, plain_string, true_and]
  exact ⟨plain_ofList _ (plain_string n), nofun⟩

theorem plain_lineReport (n : Nat) (line : LineReport) : Plain (n + 4) line.toJson := by
  refine plain_object ?_
  simp only [List.map_cons, List.map_nil, List.forall_mem_cons, plain_ofCount, true_and]
  exact ⟨plain_ofList _ (plain_glyph _), plain_ofList _ (plain_violation n), nofun⟩

theorem plain_report (n : Nat) (report : Report) : Plain (n + 6) report.toJson := by
  refine plain_object ?_
  simp only [List.map_cons, List.map_nil, List.forall_mem_cons, plain_bool, true_and]
  exact ⟨plain_ofList _ (plain_lineReport n), plain_ofList _ (plain_violation _), nofun⟩

theorem plain_manifest (n : Nat) (sticker : Sticker) : Plain (n + 7) sticker.toJson := by
  refine plain_object ?_
  simp only [List.map_cons, List.map_nil, List.forall_mem_cons, plain_string, plain_ofCount,
    plain_report, true_and]
  exact nofun

/-- The members of a manifest hold the parts of a sticker, and its payload as text. -/
structure Sticker.Manifest (sticker : Sticker) (manifest : Json) : Prop where
  id : manifest.Says "id" (.string sticker.stamp.id)
  engineVersion : manifest.Says "engine_version" (.string sticker.engineVersion)
  createdAt : manifest.Says "created_at" (.string sticker.stamp.createdAt)
  cacheKey : manifest.Says "cache_key" (.string sticker.cacheKey)
  documentHash : manifest.Says "document_hash" (.string sticker.documentHash)
  mediaType : manifest.Says "media_type" (.string sticker.mediaType)
  size : manifest.Says "size_bytes" (.ofCount sticker.payload.length)
  validation : manifest.Says "validation" sticker.validation.toJson
  data : manifest.Says "data_base64" (.string (Bytes.base64 sticker.payload))

theorem Sticker.manifest_toJson (sticker : Sticker) : sticker.Manifest sticker.toJson where
  id := ⟨_, rfl, rfl⟩
  engineVersion := ⟨_, rfl, rfl⟩
  createdAt := ⟨_, rfl, rfl⟩
  cacheKey := ⟨_, rfl, rfl⟩
  documentHash := ⟨_, rfl, rfl⟩
  mediaType := ⟨_, rfl, rfl⟩
  size := ⟨_, rfl, rfl⟩
  validation := ⟨_, rfl, rfl⟩
  data := ⟨_, rfl, rfl⟩

namespace Command

/-! ## Output -/

/-- A text in either layout is read as the value with its members in order. -/
theorem ofText_layOut (form : TextForm) {value : Json} (h : Plain Json.nestingLimit value) :
    Json.ofText Json.Draft.value (textBytes (form.layOut value)) = .ok value.settle := by
  have hnumbers := h.numbers.settle
  have hdepth := Json.depth_settle_le h.depth_le
  have hnewline : textBytes "\n" = [10] := textBytes_ofList ['\n']
  have hgap : Json.Gap [10] := List.forall_mem_singleton.mpr (by decide)
  cases form with
  | compact =>
    rw [TextForm.layOut, textBytes_append, hnewline]
    exact (Json.spells_bytes hnumbers).ofText hgap hdepth
  | pretty =>
    rw [TextForm.layOut, textBytes_append, hnewline]
    exact (Json.spells_prettyAt hnumbers).ofText hgap hdepth

namespace Output

/-- The text that is printed reads as the value, with the members of its objects in order. -/
def Prints (output : Output) (value : Json) : Prop :=
  ∃ printed, Json.ofText Json.Draft.value (textBytes output.text) = .ok printed ∧
    Json.Ordered printed ∧ Json.Same printed value

theorem prints_of_value {value : Json} {n : Nat} (h : Plain n value) (hn : n ≤ Json.nestingLimit)
    (form : TextForm) (status : UInt8) : Prints ⟨some value, form, status⟩ value :=
  ⟨value.settle, ofText_layOut form ⟨h.numbers, Nat.le_trans h.depth_le hn⟩,
    Json.ordered_settle value, Json.same_settle value⟩

theorem prints_glyphs (table : GlyphTable) :
    Prints ⟨some (.ofList glyphEntry table.toList), .pretty, succeeded⟩
      (.ofList glyphEntry table.toList) := by
  refine prints_of_value (plain_ofList _ fun entry => ?_) (by decide : 2 ≤ _) _ _
  exact plain_object (List.forall_mem_cons.mpr ⟨plain_string 0 entry.1,
    List.forall_mem_singleton.mpr (plain_string 0 _)⟩)

theorem prints_report (report : Report) (form : TextForm) (status : UInt8) :
    Prints ⟨some report.toJson, form, status⟩ report.toJson :=
  prints_of_value (plain_report 0 report) (by decide) form status

theorem prints_loadFailure (message : String) :
    (loadFailure message).Prints (.object [("error", .string message)]) := by
  refine prints_of_value (plain_object ?_) (by decide : 1 ≤ _) _ _
  exact List.forall_mem_singleton.mpr (plain_string 0 message)

theorem prints_noSticker (message : String) (status : UInt8) :
    (noSticker message status).Prints
      (.object [("success", .bool false), ("error", .string message)]) := by
  refine prints_of_value (plain_object ?_) (by decide : 1 ≤ _) _ _
  exact List.forall_mem_cons.mpr ⟨plain_bool 0 false,
    List.forall_mem_singleton.mpr (plain_string 0 message)⟩

theorem prints_sticker (sticker : Sticker) :
    Prints
      ⟨some (.object [("success", .bool true), ("sticker", sticker.toJson)]), .pretty, succeeded⟩
      (.object [("success", .bool true), ("sticker", sticker.toJson)]) := by
  refine prints_of_value (plain_object ?_) (by decide : 8 ≤ _) _ _
  exact List.forall_mem_cons.mpr ⟨plain_bool 7 true,
    List.forall_mem_singleton.mpr (plain_manifest 0 sticker)⟩

theorem prints_saved (path : String) (size : Nat) :
    (ofSaving path size none).Prints (.object [("success", .bool true), ("path", .string path),
      ("sizeBytes", .ofCount size)]) := by
  refine prints_of_value (plain_object ?_) (by decide : 1 ≤ _) _ _
  exact List.forall_mem_cons.mpr ⟨plain_bool 0 true, List.forall_mem_cons.mpr
    ⟨plain_string 0 path, List.forall_mem_singleton.mpr (plain_ofCount 0 size)⟩⟩

end Output
end Command
end AnimatedGlyph
