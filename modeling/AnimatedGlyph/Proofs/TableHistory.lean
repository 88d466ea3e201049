/-
What a table holds after any number of changes.

A step that is accepted writes names, and a step that is refused writes none.  The file is about
`GlyphTable.run_keeps_last_writes`: at every point of a run the table is what the accepted writes
make of the empty one, a load being the built-in writes and those of its dictionary.

`GlyphTable.step_effect` says what one step does, and `GlyphTable.step_insertAll` how it goes on
from the writes before it.
-/
import AnimatedGlyph.Glyph.Table
import AnimatedGlyph.Proofs.CodeText
import AnimatedGlyph.Proofs.Merging

namespace AnimatedGlyph

/-! ## Steps by themselves -/

namespace GlyphDictionary

/-- From one table to the other, the names of a dictionary take its codes and all others keep
the codes they had. -/
structure Extends (dictionary : GlyphDictionary) (before after : GlyphTable) : Prop where
  own : ∀ entry ∈ dictionary.glyphs, ∃ code, GlyphCode.parse entry.2 = .ok code ∧
    after.get? (tableName entry.1) = some code
  others : ∀ name ∉ dictionary.tableNames, after.get? name = before.get? name

theorem Sound.extends {dictionary : GlyphDictionary} (sound : dictionary.Sound)
    (distinct : dictionary.tableNames.Nodup) (table : GlyphTable) :
    dictionary.Extends table (table.insertAll dictionary.writes) where
  own entry hmem := by
    obtain ⟨code, hcode, hwrite⟩ := sound.writeOf?_eq hmem
    have hmem : (tableName entry.1, code) ∈ dictionary.writes.reverse :=
      List.mem_reverse.mpr (List.mem_filterMap.mpr ⟨entry, hmem, hwrite⟩)
    have hdistinct : (dictionary.writes.reverse.map Prod.fst).Nodup := by
      rwa [List.map_reverse, List.Perm.nodup_iff (List.reverse_perm _), sound.map_fst_writes]
    refine ⟨code, hcode, ?_⟩
    rw [GlyphTable.get?_insertAll, lookup_of_mem hdistinct hmem]
    rfl
  others name habsent := by
    rw [← sound.map_fst_writes] at habsent
    exact GlyphTable.get?_insertAll_of_absent habsent table

end GlyphDictionary

/-- The names and codes of the built-in glyphs. -/
def GlyphTable.builtinWrites : List (String × GlyphCode) :=
  builtinGlyphs.filterMap fun entry =>
    (GlyphCode.parse entry.2).toOption.map fun code => (Text.lowercase entry.1, code)

namespace TableStep

/-- The dictionary that a step brings, if it brings one that can be read. -/
def dictionary? : TableStep → Option GlyphDictionary
  | .register _ _ => none
  | .merge dictionary => some dictionary
  | .load path view =>
    let read : Except (LoadError DictionaryError) GlyphDictionary :=
      view.load GlyphDictionary.decode path
    read.toOption

/-- What a step does to a table, and its answer. -/
inductive Effect (before after : GlyphTable) : TableStep → StepAnswer → Prop
  /-- The name in lower case has the code. -/
  | registered {name : String} {code : GlyphCode}
    (own : after.get? (Text.lowercase name) = some code)
    (others : ∀ other ≠ Text.lowercase name, after.get? other = before.get? other) :
    Effect before after (.register name code) (.ok none)
  /-- The dictionary is written over the table, and its names are counted. -/
  | merged {dictionary : GlyphDictionary} (sound : dictionary.Sound)
    (written : dictionary.Extends before after) :
    Effect before after (.merge dictionary) (.ok (some dictionary.glyphs.length))
  /-- The dictionary is refused. -/
  | mergeRefused {dictionary : GlyphDictionary} {cause : DictionaryError}
    (fault : dictionary.Fault cause) (same : after = before) :
    Effect before after (.merge dictionary) (.error (.refused cause))
  /-- The dictionary in the file is written over the built-in glyphs. -/
  | loaded {path : String} {view : FileView} {dictionary : GlyphDictionary}
    (read : (TableStep.load path view).dictionary? = some dictionary) (sound : dictionary.Sound)
    (written : dictionary.Extends .builtin after) :
    Effect before after (.load path view) (.ok none)
  /-- There is no file. -/
  | notFound {path : String} {view : FileView} (absent : view.exists = false)
    (same : after = before) :
    Effect before after (.load path view) (.error (.refused (.notFound path)))
  /-- There is no dictionary in the file. -/
  | notRead {path : String} {view : FileView} {error : LoadError DictionaryError}
    (found : view.exists = true) (read : view.load GlyphDictionary.decode path = .error error)
    (same : after = before) : Effect before after (.load path view) (.error error)
  /-- The dictionary in the file is refused. -/
  | loadRefused {path : String} {view : FileView} {dictionary : GlyphDictionary}
    {cause : DictionaryError} (read : (TableStep.load path view).dictionary? = some dictionary)
    (fault : dictionary.Fault cause) (same : after = before) :
    Effect before after (.load path view) (.error (.refused cause))

/-- The writes after a step that is accepted, from those before it. -/
def writes (before : List (String × GlyphCode)) : TableStep → List (String × GlyphCode)
  | .register name code => before ++ [(Text.lowercase name, code)]
  | .merge dictionary => before ++ dictionary.writes
  | .load path view => GlyphTable.builtinWrites ++
    (TableStep.load path view).dictionary?.elim [] GlyphDictionary.writes

end TableStep

namespace GlyphTable

theorem builtin_eq : builtin = empty.insertAll builtinWrites := by
  rw [builtin, insertAll, builtinWrites, List.foldl_filterMap]
  congr 1
  funext table entry
  cases GlyphCode.parse entry.2 <;> rfl

/-- What loading a file comes to. -/
theorem load_cases (path : String) (view : FileView) :
    (∃ dictionary, (TableStep.load path view).dictionary? = some dictionary ∧ dictionary.Sound ∧
        load path view = .ok (builtin.insertAll dictionary.writes)) ∨
      ∃ error, load path view = .error error ∧
        ∀ table, TableStep.Effect table table (.load path view) (.error error) := by
  rw [load]
  cases hexists : view.exists with
  | false => exact .inr ⟨_, rfl, fun table => .notFound hexists rfl⟩
  | true =>
    rw [if_pos rfl]
    cases hread : view.load GlyphDictionary.decode path with
    | error error => exact .inr ⟨error, rfl, fun table => .notRead hexists hread rfl⟩
    | ok dictionary =>
      -- From here on the load is the merge of the dictionary into the built-in table.
      have hdictionary : (TableStep.load path view).dictionary? = some dictionary := by
        rw [TableStep.dictionary?, hread]
        rfl
      rcases merge_cases dictionary builtin with ⟨sound, hmerge⟩ | ⟨cause, hfault, hmerge⟩
      · refine .inl ⟨dictionary, hdictionary, sound, ?_⟩
        show (do
          let _ ← (builtin.merge dictionary).1.mapError LoadError.refused
          return (builtin.merge dictionary).2) = _
        rw [hmerge]
        rfl
      · refine .inr ⟨.refused cause, ?_, fun table => .loadRefused hdictionary hfault rfl⟩
        show (do
          let _ ← (builtin.merge dictionary).1.mapError LoadError.refused
          return (builtin.merge dictionary).2) = _
        rw [hmerge]
        rfl

/-- What one step does. -/
theorem step_effect (table : GlyphTable) {step : TableStep}
    (distinct : ∀ dictionary ∈ step.dictionary?, dictionary.tableNames.Nodup) :
    step.Effect table (table.step step).2 (table.step step).1 := by
  cases step with
  | register name code =>
    have hget := get?_insert table (Text.lowercase name, code)
    exact .registered ((hget _).trans (if_pos rfl)) fun other hother =>
      (hget other).trans (if_neg hother.symm)
  | merge dictionary =>
    rw [step]
    rcases merge_cases dictionary table with ⟨sound, hmerge⟩ | ⟨cause, hfault, hmerge⟩
    · rw [hmerge]
      exact .merged sound (sound.extends (distinct dictionary rfl) table)
    · rw [hmerge]
      exact .mergeRefused hfault rfl
  | load path view =>
    rw [step]
    rcases load_cases path view with ⟨dictionary, hread, sound, hload⟩ | ⟨error, hload, heffect⟩
    · rw [hload]
      exact .loaded hread sound (sound.extends (distinct dictionary hread) builtin)
    · rw [hload]
      exact heffect table

/-- How the writes go on in one step. -/
theorem step_insertAll (writes : List (String × GlyphCode)) (step : TableStep) :
    ((empty.insertAll writes).step step).2 = empty.insertAll
      (if ((empty.insertAll writes).step step).1.isOk then step.writes writes else writes) := by
  cases step with
  | register name code => exact (insertAll_append empty writes [(Text.lowercase name, code)]).symm
  | merge dictionary =>
    rw [GlyphTable.step]
    rcases merge_cases dictionary (empty.insertAll writes) with ⟨-, hmerge⟩ | ⟨cause, -, hmerge⟩
    · rw [hmerge]
      exact (insertAll_append _ _ _).symm
    · rw [hmerge]
      rfl
  | load path view =>
    rw [GlyphTable.step]
    rcases load_cases path view with ⟨dictionary, hread, sound, hload⟩ | ⟨error, hload, -⟩
    · rw [hload]
      show builtin.insertAll dictionary.writes =
        empty.insertAll ((TableStep.load path view).writes writes)
      rw [TableStep.writes, hread, Option.elim_some, insertAll_append, ← builtin_eq]
    · rw [hload]
      rfl

/-! ## Runs -/

theorem run_cons (table : GlyphTable) (step : TableStep) (rest : List TableStep) :
    table.run (step :: rest) = ((table.step step).1 :: ((table.step step).2.run rest).1,
      ((table.step step).2.run rest).2) := rfl

theorem length_run (steps : List TableStep) : ∀ table : GlyphTable,
    (table.run steps).1.length = steps.length := by
  induction steps with
  | nil => intro table; rfl
  | cons step rest ih =>
    intro table
    rw [run_cons, List.length_cons, List.length_cons, ih]

theorem take_run (steps : List TableStep) : ∀ (table : GlyphTable) (k : Nat),
    (table.run (steps.take k)).1 = (table.run steps).1.take k := by
  induction steps with
  | nil =>
    intro table k
    rw [List.take_nil, run, List.take_nil]
  | cons step rest ih =>
    intro table k
    cases k with
    | zero => rfl
    | succ k => rw [List.take_succ_cons, run_cons, run_cons, List.take_succ_cons, ih]

/-- The step at a place of a run is taken on the table that the steps before it leave. -/
theorem step_run (steps : List TableStep) : ∀ (table : GlyphTable) (k : Nat) {step : TableStep}
    {answer : StepAnswer}, steps[k]? = some step → (table.run steps).1[k]? = some answer →
      (table.run (steps.take k)).2.step step =
        (answer, (table.run (steps.take (k + 1))).2) := by
  induction steps with
  | nil => exact fun _ _ => nofun
  | cons first rest ih =>
    intro table k step answer hstep hanswer
    cases k with
    | zero =>
      cases hstep
      cases hanswer
      rfl
    | succ k => exact ih (table.step first).2 k hstep hanswer

/-- The writes that stand in a table after steps with their answers. -/
def history (first : List (String × GlyphCode)) (taken : List (TableStep × StepAnswer)) :
    List (String × GlyphCode) :=
  taken.foldl (fun writes (step, answer) =>
    if answer.isOk then step.writes writes else writes) first

theorem run_insertAll (steps : List TableStep) : ∀ first : List (String × GlyphCode),
    ((empty.insertAll first).run steps).2 = empty.insertAll
      (history first (steps.zip ((empty.insertAll first).run steps).1)) := by
  induction steps with
  | nil => intro first; rfl
  | cons step rest ih =>
    intro first
    rw [run_cons, List.zip_cons_cons]
    show (((empty.insertAll first).step step).2.run rest).2 = _
    rw [step_insertAll]
    exact ih _

/-! ## Lists of entries -/

/-- The list of a table: its entries in ascending order of the names, each with a code that
can be read back. -/
structure Listed (table : GlyphTable) : Prop where
  ascending : table.toList.Pairwise fun entry later => entry.1 < later.1
  mem_iff : ∀ name code, (name, code) ∈ table.toList ↔ table.get? name = some code
  length : table.toList.length = table.size
  wellFormed : ∀ entry ∈ table.toList, GlyphCode.parse entry.2.text = .ok entry.2

theorem perm_toList (table : GlyphTable) : table.toList.Perm table.codes.toList :=
  List.mergeSort_perm _ _

/-- Sorting by name leaves the entries in ascending order, since no two of them share a name. -/
theorem ascending_toList (table : GlyphTable) :
    table.toList.Pairwise fun entry later => entry.1 < later.1 := by
  have hsorted : table.toList.Pairwise fun entry later =>
      decide (entry.1 ≤ later.1) = true := by
    refine List.pairwise_mergeSort ?_ ?_ _
    · intro a b c hab hbc
      exact decide_eq_true (String.le_trans (of_decide_eq_true hab) (of_decide_eq_true hbc))
    · intro a b
      rw [Bool.or_eq_true, decide_eq_true_eq, decide_eq_true_eq]
      exact String.le_total a.1 b.1
  have hdistinct : table.toList.Pairwise fun entry later => entry.1 ≠ later.1 := by
    refine table.perm_toList.pairwise_iff (fun h => h.symm) |>.mpr ?_
    refine List.Pairwise.imp (fun hne heq => hne ?_)
      (Std.ExtTreeMap.distinct_keys_toList (t := table.codes))
    exact Std.LawfulEqCmp.compare_eq_iff_eq.mpr heq
  refine (hsorted.and hdistinct).imp fun h => ?_
  by_contra hnot
  exact h.2 (String.le_antisymm (of_decide_eq_true h.1) (String.not_lt.mp hnot))

theorem listed (table : GlyphTable) : table.Listed where
  ascending := table.ascending_toList
  mem_iff _ _ := table.perm_toList.mem_iff.trans Std.ExtTreeMap.mem_toList_iff_getElem?_eq_some
  length := table.perm_toList.length_eq.trans Std.ExtTreeMap.length_toList
  wellFormed entry _ := entry.2.parse_text

/-- At every point of a run the table is what the writes of the accepted steps make of the empty
one, in their order and since the last load, and so a name has the code that it was given last.
Every entry is listed once and in order.  Each step does what it is meant to do, and one that is
refused changes nothing. -/
theorem run_keeps_last_writes {start : GlyphTable} {first : List (String × GlyphCode)}
    (begins : start = .empty ∧ first = [] ∨ start = .builtin ∧ first = builtinWrites)
    {steps : List TableStep} (distinct : ∀ step ∈ steps, ∀ dictionary ∈ step.dictionary?,
      dictionary.tableNames.Nodup) :
    let answers := (start.run steps).1
    let table (k : Nat) := (start.run (steps.take k)).2
    answers.length = steps.length ∧
      (∀ k, let writes := history first ((steps.take k).zip (answers.take k))
        table k = empty.insertAll writes ∧
          ∀ name, (table k).get? name = writes.reverse.lookup name) ∧
      (∀ k, (table k).Listed) ∧
      ∀ (k : Nat) step answer, steps[k]? = some step → answers[k]? = some answer →
        step.Effect (table k) (table (k + 1)) answer := by
  -- Either start is made by writes, and the run goes on from these.
  have hstart : start = empty.insertAll first := by
    rcases begins with ⟨rfl, rfl⟩ | ⟨rfl, rfl⟩
    · rfl
    · exact builtin_eq
  intro answers table
  refine ⟨length_run steps start, ?_, fun k => listed _, ?_⟩
  · intro k writes
    have htable : table k = empty.insertAll writes := by
      have hrun := run_insertAll (steps.take k) first
      rwa [← hstart, take_run] at hrun
    refine ⟨htable, fun name => ?_⟩
    rw [htable, get?_insertAll]
    exact Option.or_none
  · intro k step answer hstep hanswer
    have hrun := step_run steps start k hstep hanswer
    have heffect := step_effect (table k) (distinct step (List.mem_of_getElem? hstep))
    rwa [hrun] at heffect

/-- A name is registered, a dictionary gives it another code, the next dictionary is refused for
its second entry, and a file takes the place of all that. -/
theorem run_keeps_last_writes_of_refused_merge :
    let file : List UInt8 := ("\x7b\"version\":\"1.0.0\",\"glyphs\":" ++
      "\x7b\" Wave\":\"01A\",\"sea\":\"56\"\x7d\x7d").toUTF8.toList
    let steps : List TableStep :=
      [.register "Sky" ⟨[0, 1], by decide, by decide, trivial⟩,
        .merge ⟨"1.0.0", "1.0.0", [("sea", "0A"), (" SKY ", "56")], by decide⟩,
        .merge ⟨"1.0.0", "1.0.0", [("sky", "12"), ("land", "0z")], by decide⟩,
        .load "words.json" (.ok file)]
    let table (k : Nat) := (empty.run (steps.take k)).2
    (∀ step ∈ steps, ∀ dictionary ∈ step.dictionary?, dictionary.tableNames.Nodup) ∧
      (empty.run steps).1.length = 4 ∧
      ((table 3).get? "sky").map GlyphCode.text = some "56" ∧
      ((table 4).get? "wave").map GlyphCode.text = some "01a" ∧ (table 4).Listed := by
  intro file steps table
  have distinct : ∀ step ∈ steps, ∀ dictionary ∈ step.dictionary?,
      dictionary.tableNames.Nodup := by decide +kernel
  obtain ⟨hlength, hwrites, hlisted, -⟩ :=
    run_keeps_last_writes (.inl ⟨rfl, rfl⟩) distinct
  refine ⟨distinct, hlength, ?_, ?_, hlisted 4⟩
  · rw [(hwrites 3).2 "sky"]
    decide +kernel
  · rw [(hwrites 4).2 "wave"]
    decide +kernel

end GlyphTable
end AnimatedGlyph
