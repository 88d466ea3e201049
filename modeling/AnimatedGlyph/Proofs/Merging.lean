/-
Merging a dictionary.

A dictionary has a fault when the engine is too old for it, when a name of it cannot be a token,
and when a text of it is no code.  `GlyphTable.merge_cases` says what follows: without a fault
all entries are written, one after the other, and with one the table stays as it was and the
answer is a fault.  Nothing is assumed of the order in which a dictionary lists its entries.

Of several writes of a name the last one counts: what a table answers after some writes is found
by a search from the last one back.
-/
import AnimatedGlyph.Glyph.Table
import AnimatedGlyph.Proofs.Lookup

namespace AnimatedGlyph

/-! ## Faults -/

/-- Reading a list of items goes through to its end or stops at an item that is refused. -/
theorem mapM_ok_or_error {α β ε : Type} {f : α → Except ε β} {g : α → Option β}
    (hg : ∀ item made, f item = .ok made → g item = some made) (items : List α) :
    ((∀ item ∈ items, ∃ made, f item = .ok made) ∧
        items.mapM f = .ok (items.filterMap g)) ∨
      ∃ cause, (∃ item ∈ items, f item = .error cause) ∧ items.mapM f = .error cause := by
  induction items with
  | nil => exact .inl ⟨nofun, rfl⟩
  | cons item rest ih =>
    rw [List.mapM_cons]
    cases hitem : f item with
    | error cause => exact .inr ⟨cause, ⟨item, List.mem_cons_self, hitem⟩, rfl⟩
    | ok made =>
      rcases ih with ⟨hrest, hmap⟩ | ⟨cause, ⟨other, hmem, hother⟩, hmap⟩
      · refine .inl ⟨List.forall_mem_cons.mpr ⟨⟨made, hitem⟩, hrest⟩, ?_⟩
        rw [hmap, List.filterMap_cons_some (hg item made hitem)]
        rfl
      · refine .inr ⟨cause, ⟨other, List.mem_cons_of_mem _ hmem, hother⟩, ?_⟩
        rw [hmap]
        rfl

namespace GlyphDictionary

/-- The name is empty or holds a blank or a comma. -/
def Unnameable (name : String) : Prop :=
  name = "" ∨ ∃ c ∈ name.toList, Text.isBlank c = true ∨ c = ','

/-- What is wrong with a dictionary. -/
inductive Fault (dictionary : GlyphDictionary) : DictionaryError → Prop
  /-- The engine may not use it. -/
  | engine {cause : DictionaryError} (refused : dictionary.checkEngine = .error cause) :
    Fault dictionary cause
  /-- A name cannot be a token. -/
  | name {entry : String × String} (mem : entry ∈ dictionary.glyphs)
    (bad : Unnameable (tableName entry.1)) : Fault dictionary (.badName (tableName entry.1))
  /-- A text is no code. -/
  | code {entry : String × String} {cause : CodeError} (mem : entry ∈ dictionary.glyphs)
    (bad : GlyphCode.parse entry.2 = .error cause) : Fault dictionary (.badCode cause)

/-- Nothing is wrong with the dictionary. -/
def Sound (dictionary : GlyphDictionary) : Prop :=
  ∀ cause, ¬dictionary.Fault cause

/-- The names of the entries as a table knows them. -/
def tableNames (dictionary : GlyphDictionary) : List String :=
  dictionary.glyphs.map fun entry => tableName entry.1

/-- The name and code that an entry gives to a table. -/
def writeOf? (entry : String × String) : Option (String × GlyphCode) :=
  (GlyphCode.parse entry.2).toOption.map fun code => (tableName entry.1, code)

/-- The names and codes that a dictionary gives to a table. -/
def writes (dictionary : GlyphDictionary) : List (String × GlyphCode) :=
  dictionary.glyphs.filterMap writeOf?

theorem unnameable_iff (name : String) :
    (name.isEmpty || name.toList.any dividesNames) = true ↔ Unnameable name := by
  simp only [Unnameable, Bool.or_eq_true, String.isEmpty_iff, List.any_eq_true, dividesNames,
    beq_iff_eq]

theorem readEntry_of_bad {entry : String × String} (h : Unnameable (tableName entry.1)) :
    readEntry entry = .error (.badName (tableName entry.1)) := by
  rw [readEntry]
  exact if_pos ((unnameable_iff _).mpr h)

theorem readEntry_of_good {entry : String × String} (h : ¬Unnameable (tableName entry.1)) :
    readEntry entry = ((GlyphCode.parse entry.2).mapError .badCode).map
      fun code => (tableName entry.1, code) := by
  rw [readEntry]
  exact if_neg (mt (unnameable_iff _).mp h)

theorem of_readEntry_ok {entry : String × String} {write : String × GlyphCode}
    (h : readEntry entry = .ok write) :
    ¬Unnameable (tableName entry.1) ∧ GlyphCode.parse entry.2 = .ok write.2 ∧
      writeOf? entry = some write := by
  by_cases hname : Unnameable (tableName entry.1)
  · rw [readEntry_of_bad hname] at h
    cases h
  · rw [readEntry_of_good hname] at h
    cases hcode : GlyphCode.parse entry.2 with
    | error cause =>
      rw [hcode] at h
      cases h
    | ok code =>
      rw [hcode] at h
      obtain rfl : (tableName entry.1, code) = write := Except.ok.inj h
      exact ⟨hname, rfl, by rw [writeOf?, hcode]; rfl⟩

theorem fault_of_readEntry {dictionary : GlyphDictionary} {entry : String × String}
    {cause : DictionaryError} (hmem : entry ∈ dictionary.glyphs)
    (h : readEntry entry = .error cause) : dictionary.Fault cause := by
  by_cases hname : Unnameable (tableName entry.1)
  · rw [readEntry_of_bad hname] at h
    cases h
    exact .name hmem hname
  · rw [readEntry_of_good hname] at h
    cases hcode : GlyphCode.parse entry.2 with
    | ok code =>
      rw [hcode] at h
      cases h
    | error cause =>
      rw [hcode] at h
      cases h
      exact .code hmem hcode

/-- What the checks of a dictionary find. -/
theorem checks_cases (dictionary : GlyphDictionary) :
    (dictionary.Sound ∧ dictionary.checkEngine = .ok () ∧
        dictionary.entries = .ok dictionary.writes) ∨
      ∃ cause, dictionary.Fault cause ∧ (dictionary.checkEngine = .error cause ∨
        dictionary.checkEngine = .ok () ∧ dictionary.entries = .error cause) := by
  cases hengine : dictionary.checkEngine with
  | error cause => exact .inr ⟨cause, .engine hengine, .inl rfl⟩
  | ok _ =>
    rcases mapM_ok_or_error (fun _ _ h => (of_readEntry_ok h).2.2) dictionary.glyphs with
      ⟨hread, hentries⟩ | ⟨cause, ⟨entry, hmem, hentry⟩, hentries⟩
    · refine .inl ⟨fun cause hfault => ?_, rfl, hentries⟩
      cases hfault with
      | engine refused => cases hengine.symm.trans refused
      | name mem bad =>
        obtain ⟨write, hwrite⟩ := hread _ mem
        exact (of_readEntry_ok hwrite).1 bad
      | code mem bad =>
        obtain ⟨write, hwrite⟩ := hread _ mem
        cases (of_readEntry_ok hwrite).2.1.symm.trans bad
    · exact .inr ⟨cause, fault_of_readEntry hmem hentry, .inr ⟨rfl, hentries⟩⟩

namespace Sound
variable {dictionary : GlyphDictionary} (sound : dictionary.Sound)
include sound

theorem parse {entry : String × String} (hmem : entry ∈ dictionary.glyphs) :
    ∃ code, GlyphCode.parse entry.2 = .ok code := by
  cases hcode : GlyphCode.parse entry.2 with
  | ok code => exact ⟨code, rfl⟩
  | error cause => exact absurd (.code hmem hcode) (sound _)

theorem writeOf?_eq {entry : String × String} (hmem : entry ∈ dictionary.glyphs) :
    ∃ code, GlyphCode.parse entry.2 = .ok code ∧
      writeOf? entry = some (tableName entry.1, code) := by
  obtain ⟨code, hcode⟩ := sound.parse hmem
  exact ⟨code, hcode, by rw [writeOf?, hcode]; rfl⟩

theorem length_writes : dictionary.writes.length = dictionary.glyphs.length := by
  refine List.filterMap_length_eq_length.mpr fun entry hmem => ?_
  obtain ⟨code, -, hwrite⟩ := sound.writeOf?_eq hmem
  rw [hwrite]
  rfl

theorem map_fst_writes : dictionary.writes.map Prod.fst = dictionary.tableNames := by
  rw [writes, List.map_filterMap, tableNames, ← List.filterMap_eq_map']
  refine List.filterMap_congr fun entry hmem => ?_
  obtain ⟨code, -, hwrite⟩ := sound.writeOf?_eq hmem
  rw [hwrite]
  rfl

end Sound
end GlyphDictionary

/-! ## Writes -/

namespace GlyphTable

theorem get?_insert (table : GlyphTable) (entry : String × GlyphCode) (name : String) :
    (table.insert entry.1 entry.2).get? name =
      if entry.1 = name then some entry.2 else table.get? name := by
  rw [get?, insert, Std.ExtTreeMap.getElem?_insert]
  simp only [Std.compare_eq_iff_eq]
  rfl

theorem insertAll_append (table : GlyphTable) (writes more : List (String × GlyphCode)) :
    table.insertAll (writes ++ more) = (table.insertAll writes).insertAll more :=
  List.foldl_append

/-- The last write of a name counts, and a name without one keeps its code. -/
theorem get?_insertAll (writes : List (String × GlyphCode)) (name : String) :
    ∀ table : GlyphTable, (table.insertAll writes).get? name =
      (writes.reverse.lookup name).or (table.get? name) := by
  induction writes with
  | nil => intro table; rfl
  | cons entry rest ih =>
    intro table
    have hfirst : (table.insert entry.1 entry.2).get? name =
        ([entry].lookup name).or (table.get? name) := by
      rw [get?_insert, List.lookup_cons]
      by_cases h : entry.1 = name
      · rw [if_pos h, beq_iff_eq.mpr h.symm]
        rfl
      · rw [if_neg h, beq_eq_false_iff_ne.mpr (Ne.symm h)]
        rfl
    show ((table.insert entry.1 entry.2).insertAll rest).get? name = _
    rw [ih, hfirst, List.reverse_cons, List.lookup_append, Option.or_assoc]

theorem get?_insertAll_of_absent {writes : List (String × GlyphCode)} {name : String}
    (h : name ∉ writes.map Prod.fst) (table : GlyphTable) :
    (table.insertAll writes).get? name = table.get? name := by
  have hnone : writes.reverse.lookup name = none := by
    rwa [lookup_eq_none_iff_notMem, List.map_reverse, List.mem_reverse]
  rw [get?_insertAll, hnone]
  rfl

/-! ## Merging -/

section
variable {α β : Type} {work : Work α} {table after : GlyphTable}

theorem run_bind_ok {answer : α} (h : work.run.run table = (.ok answer, after))
    (next : α → Work β) : (work >>= next).run.run table = (next answer).run.run after := by
  rw [ExceptT.run_bind, StateT.run_bind, h]
  rfl

theorem run_bind_error {cause : DictionaryError} (h : work.run.run table = (.error cause, after))
    (next : α → Work β) : (work >>= next).run.run table = (.error cause, after) := by
  rw [ExceptT.run_bind, StateT.run_bind, h]
  rfl

theorem run_ofExcept (answer : Except DictionaryError α) (table : GlyphTable) :
    (MonadExcept.ofExcept answer : Work α).run.run table = (answer, table) := by
  cases answer <;> rfl

end

theorem run_write (writes : List (String × GlyphCode)) : ∀ table : GlyphTable,
    (forM writes write : Work PUnit).run.run table = (.ok (), table.insertAll writes) := by
  induction writes with
  | nil => intro table; rfl
  | cons entry rest ih =>
    intro table
    have hfirst : (write entry).run.run table = (.ok (), table.insert entry.1 entry.2) := rfl
    rw [List.forM_cons, run_bind_ok hfirst]
    exact ih _

/-- Merging looks at the engine first and at the entries then, and nothing is written until all of
them have been read. -/
theorem merge_eq (dictionary : GlyphDictionary) (table : GlyphTable) :
    table.merge dictionary =
      match dictionary.checkEngine, dictionary.entries with
      | .error cause, _ => (.error cause, table)
      | .ok _, .error cause => (.error cause, table)
      | .ok _, .ok entries => (.ok entries.length, table.insertAll entries) := by
  have hengine := run_ofExcept dictionary.checkEngine table
  have hentries := run_ofExcept dictionary.entries table
  rw [merge, mergeWork]
  cases hchecked : dictionary.checkEngine with
  | error cause =>
    rw [hchecked] at hengine
    exact run_bind_error hengine _
  | ok _ =>
    rw [hchecked] at hengine
    rw [run_bind_ok hengine]
    cases hread : dictionary.entries with
    | error cause =>
      rw [hread] at hentries
      exact run_bind_error hentries _
    | ok entries =>
      rw [hread] at hentries
      rw [run_bind_ok hentries, run_bind_ok (run_write _ table)]
      rfl

/-- A dictionary without a fault is written whole, and one with a fault is refused for a fault
and not written at all. -/
theorem merge_cases (dictionary : GlyphDictionary) (table : GlyphTable) :
    (dictionary.Sound ∧ table.merge dictionary =
        (.ok dictionary.glyphs.length, table.insertAll dictionary.writes)) ∨
      ∃ cause, dictionary.Fault cause ∧ table.merge dictionary = (.error cause, table) := by
  rcases dictionary.checks_cases with ⟨sound, hchecked, hread⟩ | ⟨cause, hfault, hchecks⟩
  · refine .inl ⟨sound, ?_⟩
    rw [merge_eq, hchecked, hread, ← sound.length_writes]
  · refine .inr ⟨cause, hfault, ?_⟩
    rcases hchecks with hchecked | ⟨hchecked, hread⟩
    · rw [merge_eq, hchecked]
    · rw [merge_eq, hchecked, hread]

end GlyphTable
end AnimatedGlyph
