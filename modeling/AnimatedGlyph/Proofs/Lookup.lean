/-
Entries by name.

The entries of a list have names, and a search finds the first of a name.  Where the names are
distinct it finds exactly what is in the list.
-/
import Mathlib.Data.List.Basic

namespace AnimatedGlyph
variable {β : Type} {entries : List (String × β)} {name : String} {value : β}

theorem lookup_eq_none_iff_notMem : entries.lookup name = none ↔ name ∉ entries.map Prod.fst := by
  rw [List.lookup_eq_none_iff]
  constructor
  · intro h hmem
    obtain ⟨entry, hentry, rfl⟩ := List.mem_map.mp hmem
    exact bne_iff_ne.mp (h entry hentry) rfl
  · intro h entry hentry
    refine bne_iff_ne.mpr ?_
    rintro rfl
    exact h (List.mem_map_of_mem hentry)

theorem mem_of_lookup (h : entries.lookup name = some value) : (name, value) ∈ entries := by
  obtain ⟨front, back, hsplit, -⟩ := List.lookup_eq_some_iff.mp h
  rw [hsplit]
  exact List.mem_append_right front List.mem_cons_self

theorem exists_lookup (h : name ∈ entries.map Prod.fst) :
    ∃ value, entries.lookup name = some value :=
  Option.ne_none_iff_exists'.mp fun hnone => lookup_eq_none_iff_notMem.mp hnone h

/-- An entry is found by its name if no other one has that name. -/
theorem lookup_of_mem (distinct : (entries.map Prod.fst).Nodup) (h : (name, value) ∈ entries) :
    entries.lookup name = some value := by
  induction entries with
  | nil => cases h
  | cons entry rest ih =>
    obtain ⟨hfresh, hrest⟩ := List.nodup_cons.mp distinct
    rw [List.lookup_cons]
    rcases List.mem_cons.mp h with rfl | h
    · rw [beq_self_eq_true]
    · have hother : name ≠ entry.1 := by
        rintro rfl
        exact hfresh (List.mem_map.mpr ⟨_, h, rfl⟩)
      rw [beq_eq_false_iff_ne.mpr hother]
      exact ih hrest h

theorem lookup_eq_some_iff_mem (distinct : (entries.map Prod.fst).Nodup) :
    entries.lookup name = some value ↔ (name, value) ∈ entries :=
  ⟨mem_of_lookup, lookup_of_mem distinct⟩

end AnimatedGlyph
