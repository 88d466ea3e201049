/-
Merging a dictionary in any order of its entries.

The names of a dictionary are distinct as it writes them, and a table knows them by shorter forms,
in which two of them can be one name.  `GlyphTable.merge_inOrder` says what the order of the
entries decides then: not whether a dictionary is accepted and not the count, but which code such a
name has afterwards, and any of the codes it was given can be that one.
-/
import Mathlib.Data.List.Dedup
import AnimatedGlyph.Proofs.Merging

namespace AnimatedGlyph
namespace GlyphDictionary
variable {dictionary : GlyphDictionary}

/-! ## Orders of entries -/

/-- An order in which the entries of a dictionary can come. -/
structure Order (dictionary : GlyphDictionary) where
  /-- The entries in that order. -/
  glyphs : List (String × String)
  perm : glyphs.Perm dictionary.glyphs

/-- The order in which a dictionary lists its entries. -/
def ownOrder (dictionary : GlyphDictionary) : dictionary.Order :=
  ⟨dictionary.glyphs, .refl _⟩

/-- A dictionary with its entries in some order. -/
def inOrder (dictionary : GlyphDictionary) (order : dictionary.Order) : GlyphDictionary :=
  { dictionary with
    glyphs := order.glyphs
    distinct := (order.perm.map Prod.fst).nodup_iff.mpr dictionary.distinct }

/-- A dictionary gives a code to a name of a table. -/
def Gives (dictionary : GlyphDictionary) (name : String) (code : GlyphCode) : Prop :=
  ∃ entry ∈ dictionary.glyphs, tableName entry.1 = name ∧ GlyphCode.parse entry.2 = .ok code

/-- A dictionary gives no name of a table two codes. -/
def Consistent (dictionary : GlyphDictionary) : Prop :=
  ∀ name code other, dictionary.Gives name code → dictionary.Gives name other → code = other

section
variable (order : dictionary.Order)

theorem fault_inOrder {cause : DictionaryError} :
    (dictionary.inOrder order).Fault cause ↔ dictionary.Fault cause := by
  constructor
  · intro fault
    cases fault with
    | engine refused => exact .engine refused
    | name mem bad => exact .name (order.perm.mem_iff.mp mem) bad
    | code mem bad => exact .code (order.perm.mem_iff.mp mem) bad
  · intro fault
    cases fault with
    | engine refused => exact .engine refused
    | name mem bad => exact .name (order.perm.mem_iff.mpr mem) bad
    | code mem bad => exact .code (order.perm.mem_iff.mpr mem) bad

theorem sound_inOrder : (dictionary.inOrder order).Sound ↔ dictionary.Sound :=
  forall_congr' fun _ => not_congr (fault_inOrder order)

theorem writes_inOrder : (dictionary.inOrder order).writes.Perm dictionary.writes :=
  order.perm.filterMap writeOf?

end

theorem mem_writes_iff (name : String) (code : GlyphCode) :
    (name, code) ∈ dictionary.writes ↔ dictionary.Gives name code := by
  rw [writes, List.mem_filterMap]
  refine exists_congr fun entry => and_congr_right fun _ => ?_
  rw [writeOf?]
  cases GlyphCode.parse entry.2 with
  | error cause =>
    constructor
    · intro h
      cases h
    · rintro ⟨-, h⟩
      cases h
  | ok read =>
    constructor
    · intro h
      obtain ⟨rfl, rfl⟩ := Prod.mk.inj (Option.some.inj h)
      exact ⟨rfl, rfl⟩
    · rintro ⟨rfl, h⟩
      obtain rfl := Except.ok.inj h
      rfl

/-- Any entry can come last. -/
theorem exists_order_last {entry : String × String} (h : entry ∈ dictionary.glyphs) :
    ∃ order : dictionary.Order, ∃ front, order.glyphs = front ++ [entry] :=
  ⟨⟨dictionary.glyphs.erase entry ++ [entry],
    List.perm_append_comm.trans (List.perm_cons_erase h).symm⟩, _, rfl⟩

end GlyphDictionary

namespace GlyphTable

/-! ## Orders of writes -/

theorem ext_get? {table other : GlyphTable} (h : ∀ name, table.get? name = other.get? name) :
    table = other := by
  cases table
  cases other
  exact congrArg GlyphTable.mk (Std.ExtTreeMap.ext_getElem? h)

/-- Two writes can change places if they do not give one name two codes. -/
theorem insert_comm (table : GlyphTable) {a b : String × GlyphCode} (h : a.1 = b.1 → a.2 = b.2) :
    (table.insert a.1 a.2).insert b.1 b.2 = (table.insert b.1 b.2).insert a.1 a.2 := by
  refine ext_get? fun name => ?_
  simp only [get?_insert]
  by_cases ha : a.1 = name
  · by_cases hb : b.1 = name
    · simp only [if_pos ha, if_pos hb, h (ha.trans hb.symm)]
    · simp only [if_pos ha, if_neg hb]
  · simp only [if_neg ha]

theorem insertAll_perm {writes more : List (String × GlyphCode)} (order : writes.Perm more)
    (h : ∀ a ∈ writes, ∀ b ∈ writes, a.1 = b.1 → a.2 = b.2) (table : GlyphTable) :
    table.insertAll writes = table.insertAll more :=
  order.foldl_eq' (fun a ha b hb table => insert_comm table (h a ha b hb)) table

theorem mem_of_get?_insertAll {writes : List (String × GlyphCode)} {table : GlyphTable}
    {name : String} {code : GlyphCode} (h : (table.insertAll writes).get? name = some code) :
    (name, code) ∈ writes ∨ name ∉ writes.map Prod.fst ∧ table.get? name = some code := by
  rw [get?_insertAll] at h
  cases hlast : writes.reverse.lookup name with
  | some last =>
    rw [hlast] at h
    obtain rfl : last = code := Option.some.inj h
    exact .inl (List.mem_reverse.mp (mem_of_lookup hlast))
  | none =>
    rw [hlast] at h
    rw [lookup_eq_none_iff_notMem, List.map_reverse, List.mem_reverse] at hlast
    exact .inr ⟨hlast, h⟩

theorem get?_insertAll_last (writes : List (String × GlyphCode)) (last : String × GlyphCode)
    (table : GlyphTable) : (table.insertAll (writes ++ [last])).get? last.1 = some last.2 := by
  rw [insertAll_append]
  show ((table.insertAll writes).insert last.1 last.2).get? last.1 = some last.2
  rw [get?_insert, if_pos rfl]

/-! ## Merging in any order -/

section
variable {dictionary : GlyphDictionary} (sound : dictionary.Sound) (table : GlyphTable)
include sound

/-- A dictionary without a fault is merged in every order of its entries. -/
theorem merge_inOrder_of_sound (order : dictionary.Order) :
    table.merge (dictionary.inOrder order) =
      (.ok dictionary.glyphs.length, table.insertAll (dictionary.inOrder order).writes) := by
  rcases merge_cases (dictionary.inOrder order) table with ⟨-, hmerge⟩ | ⟨cause, fault, -⟩
  · rw [hmerge]
    show (Except.ok order.glyphs.length, _) = _
    rw [order.perm.length_eq]
  · exact absurd ((GlyphDictionary.fault_inOrder order).mp fault) (sound cause)

/-- What a name can have after a merge, in one order of the entries or another. -/
theorem get?_merge_inOrder_iff (name : String) (code : GlyphCode) :
    (∃ order : dictionary.Order,
        (table.merge (dictionary.inOrder order)).2.get? name = some code) ↔
      dictionary.Gives name code ∨
        name ∉ dictionary.tableNames ∧ table.get? name = some code := by
  constructor
  · rintro ⟨order, h⟩
    rw [merge_inOrder_of_sound sound table order] at h
    have hwrites := GlyphDictionary.writes_inOrder order
    rcases mem_of_get?_insertAll h with hmem | ⟨habsent, hkept⟩
    · exact .inl ((GlyphDictionary.mem_writes_iff name code).mp (hwrites.mem_iff.mp hmem))
    · refine .inr ⟨?_, hkept⟩
      rwa [(hwrites.map Prod.fst).mem_iff, sound.map_fst_writes] at habsent
  · rintro (⟨entry, hmem, rfl, hcode⟩ | ⟨habsent, hkept⟩)
    · -- In the order in which the entry comes last its code stays.
      obtain ⟨order, front, hglyphs⟩ := GlyphDictionary.exists_order_last hmem
      have hlast : (dictionary.inOrder order).writes =
          front.filterMap GlyphDictionary.writeOf? ++
            [(GlyphDictionary.tableName entry.1, code)] := by
        show order.glyphs.filterMap GlyphDictionary.writeOf? = _
        rw [hglyphs, List.filterMap_append, List.filterMap_cons, GlyphDictionary.writeOf?, hcode]
        rfl
      refine ⟨order, ?_⟩
      rw [merge_inOrder_of_sound sound table order, hlast]
      exact get?_insertAll_last _ (_, code) table
    · refine ⟨dictionary.ownOrder, ?_⟩
      rw [merge_inOrder_of_sound sound table]
      refine (get?_insertAll_of_absent ?_ table).trans hkept
      show name ∉ dictionary.writes.map Prod.fst
      rwa [sound.map_fst_writes]

/-- The order of the entries counts exactly if a name is given two codes. -/
theorem merge_inOrder_eq_iff :
    (∀ order : dictionary.Order,
        table.merge (dictionary.inOrder order) = table.merge dictionary) ↔
      dictionary.Consistent := by
  have hmerge := merge_inOrder_of_sound sound table
  constructor
  · intro h name code other hcode hother
    obtain ⟨order, hfirst⟩ := (get?_merge_inOrder_iff sound table name code).mpr (.inl hcode)
    obtain ⟨reorder, hsecond⟩ :=
      (get?_merge_inOrder_iff sound table name other).mpr (.inl hother)
    rw [h order] at hfirst
    rw [h reorder] at hsecond
    exact Option.some.inj (hfirst.symm.trans hsecond)
  · intro consistent order
    have hsame : ∀ a ∈ dictionary.writes, ∀ b ∈ dictionary.writes, a.1 = b.1 → a.2 = b.2 := by
      intro a ha b hb hname
      refine consistent a.1 a.2 b.2 ((GlyphDictionary.mem_writes_iff _ _).mp ha) ?_
      rw [hname]
      exact (GlyphDictionary.mem_writes_iff _ _).mp hb
    have hwrites := GlyphDictionary.writes_inOrder order
    calc table.merge (dictionary.inOrder order)
      _ = (.ok dictionary.glyphs.length, table.insertAll (dictionary.inOrder order).writes) :=
        hmerge order
      _ = (.ok dictionary.glyphs.length, table.insertAll dictionary.writes) := by
        rw [insertAll_perm hwrites.symm hsame table]
      _ = table.merge dictionary := (hmerge dictionary.ownOrder).symm

end

theorem length_eq_length_dedup_iff (names : List String) :
    names.length = names.dedup.length ↔ names.Nodup := by
  constructor
  · intro h
    have hsame : names.dedup = names := (List.dedup_sublist names).eq_of_length h.symm
    rw [← hsame]
    exact List.nodup_dedup names
  · intro h
    rw [h.dedup]

/-- What the order of the entries of a dictionary can decide.  A dictionary with a fault is refused
in every order, and the table stays as it was.  One without is accepted in every order with the
same count, of the names as they are written.  A name can have any code it was given afterwards,
and no other one. -/
theorem merge_inOrder (table : GlyphTable) (dictionary : GlyphDictionary) :
    (¬dictionary.Sound ∧ ∀ order : dictionary.Order,
        ∃ cause, dictionary.Fault cause ∧
          table.merge (dictionary.inOrder order) = (.error cause, table)) ∨
      dictionary.Sound ∧
        (∀ order : dictionary.Order,
          (table.merge (dictionary.inOrder order)).1 = .ok dictionary.glyphs.length) ∧
        (dictionary.glyphs.length = dictionary.tableNames.dedup.length ↔
          dictionary.tableNames.Nodup) ∧
        (∀ name code, (∃ order : dictionary.Order,
            (table.merge (dictionary.inOrder order)).2.get? name = some code) ↔
          dictionary.Gives name code ∨
            name ∉ dictionary.tableNames ∧ table.get? name = some code) ∧
        ((∀ order : dictionary.Order,
            table.merge (dictionary.inOrder order) = table.merge dictionary) ↔
          dictionary.Consistent) := by
  by_cases sound : dictionary.Sound
  · refine .inr ⟨sound, fun order => ?_, ?_, get?_merge_inOrder_iff sound table,
      merge_inOrder_eq_iff sound table⟩
    · rw [merge_inOrder_of_sound sound table order]
    · have hlength : dictionary.tableNames.length = dictionary.glyphs.length := List.length_map _
      rw [← hlength]
      exact length_eq_length_dedup_iff _
  · refine .inl ⟨sound, fun order => ?_⟩
    rcases merge_cases (dictionary.inOrder order) table with ⟨hsound, -⟩ | ⟨cause, fault, hmerge⟩
    · exact absurd ((GlyphDictionary.sound_inOrder order).mp hsound) sound
    · exact ⟨cause, (GlyphDictionary.fault_inOrder order).mp fault, hmerge⟩

/-- Two spellings of a name are counted as two names, and the order of the entries decides which
code the name has. -/
theorem spelling_written_last_stays :
    let dictionary : GlyphDictionary :=
      ⟨"1.0.0", "1.0.0", [("Wave", "049"), ("wave", "05")], by decide⟩
    let order : dictionary.Order := ⟨[("wave", "05"), ("Wave", "049")], .swap _ _ []⟩
    let merged := empty.merge dictionary
    let reordered := empty.merge (dictionary.inOrder order)
    dictionary.tableNames.dedup.length = 1 ∧ merged.1 = .ok 2 ∧ reordered.1 = .ok 2 ∧
      merged.2.get? "wave" ≠ reordered.2.get? "wave" := by
  intro dictionary order merged reordered
  have hmerged : merged.2.get? "wave" = (GlyphCode.parse "05").toOption := by decide +kernel
  have hreordered : reordered.2.get? "wave" = (GlyphCode.parse "049").toOption := by
    decide +kernel
  have hcodes : (GlyphCode.parse "05").toOption ≠ (GlyphCode.parse "049").toOption := by
    decide +kernel
  refine ⟨by decide +kernel, by decide +kernel, by decide +kernel, ?_⟩
  rw [hmerged, hreordered]
  exact hcodes

end GlyphTable
end AnimatedGlyph
