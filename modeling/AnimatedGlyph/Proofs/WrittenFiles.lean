/-
Files that are written.

A path leads through the directory part by part, and only at its last part does it matter which
files there are.  So a path at which a file may be written leads to that file once it is there: the
file is found again by its path, with the whole content and nothing else, and all other files stay
as they were (`Directory.wrote_of_write`).
-/
import AnimatedGlyph.Files.Directory

namespace AnimatedGlyph

/-- The name in the directory that a place is, whether or not a file has it. -/
def Place.name? : Place → Option String
  | .file name | .free name => some name
  | _ => none

namespace Directory
variable {directory changed : Directory} {path name : String} {content : List UInt8}

/-- A file was written at a path: it has the content and all other files are as before. -/
structure Wrote (directory : Directory) (path : String) (content : List UInt8)
    (changed : Directory) : Prop where
  found : changed.view path = .ok content
  others : ∃ name, changed.locate path = .file name ∧
    ∀ other ≠ name, changed.content? other = directory.content? other

theorem content?_put_self (directory : Directory) (name : String) (content : List UInt8) :
    (directory.put name content).content? name = some content := by
  rw [content?, put, List.lookup_cons, beq_self_eq_true]

theorem content?_put_of_ne {other : String} (h : other ≠ name) :
    (directory.put name content).content? other = directory.content? other := by
  rw [content?, put, List.lookup_cons, beq_eq_false_iff_ne.mpr h, content?]
  induction directory.files with
  | nil => rfl
  | cons file rest ih =>
    by_cases hfile : file.1 = name
    · have hother : (other == file.1) = false := beq_eq_false_iff_ne.mpr (hfile ▸ h)
      rw [List.filter_cons_of_neg (by simpa using hfile), List.lookup_cons, hother]
      exact ih
    · rw [List.filter_cons_of_pos (by simpa using hfile), List.lookup_cons, List.lookup_cons]
      cases other == file.1
      · exact ih
      · rfl

theorem foldl_follow_nowhere (fault : FileFault) (parts : List String) :
    parts.foldl directory.follow (.nowhere fault) = .nowhere fault := by
  induction parts with
  | nil => rfl
  | cons part rest ih => exact ih

/-- No path comes back to the directory from outside. -/
theorem name?_foldl_outside (parts : List String) :
    (parts.foldl directory.follow .outside).name? = none := by
  induction parts with
  | nil => rfl
  | cons part rest ih =>
    rw [List.foldl_cons, follow]
    split
    · exact ih
    · split
      · rw [foldl_follow_nowhere]
        rfl
      · rw [foldl_follow_nowhere]
        rfl

/-- Nothing comes after a name. -/
theorem name?_foldl_name {place : Place} {own : String} (hplace : place.name? = some own)
    {parts : List String} (h : (parts.foldl directory.follow place).name? = some name) :
    parts = [] ∧ own = name := by
  cases parts with
  | nil => exact ⟨rfl, Option.some.inj (hplace.symm.trans h)⟩
  | cons part rest =>
    have hnowhere : ∃ fault, directory.follow place part = .nowhere fault := by
      cases place with
      | file own => exact ⟨_, rfl⟩
      | free own => exact ⟨_, rfl⟩
      | inside => cases hplace
      | outside => cases hplace
      | nowhere fault => cases hplace
    obtain ⟨fault, hfault⟩ := hnowhere
    rw [List.foldl_cons, hfault, foldl_follow_nowhere] at h
    cases h

/-- Where a path led to a name, it leads to a file once there is one of that name. -/
theorem foldl_follow_put {parts : List String}
    (h : (parts.foldl directory.follow .inside).name? = some name) :
    parts.foldl (directory.put name content).follow .inside = .file name := by
  induction parts with
  | nil => cases h
  | cons part rest ih =>
    rw [List.foldl_cons, follow] at h ⊢
    split at h
    · rename_i hidle
      rw [if_pos hidle]
      exact ih h
    · rename_i hidle
      rw [if_neg hidle]
      split at h
      · rw [name?_foldl_outside] at h
        cases h
      · rename_i hup
        rw [if_neg hup]
        split at h
        · rw [foldl_follow_nowhere] at h
          cases h
        · rename_i hshort
          -- Only here do the directories differ, and only in whether the name is a file yet.
          have hname : rest = [] ∧ part = name := by
            split at h
            · exact name?_foldl_name rfl h
            · exact name?_foldl_name rfl h
          obtain ⟨rfl, rfl⟩ := hname
          rw [if_neg hshort, content?_put_self]
          rfl

theorem locate_put (content : List UInt8) (h : (directory.locate path).name? = some name) :
    (directory.put name content).locate path = .file name := by
  rw [locate] at h ⊢
  split at h
  · cases h
  · rename_i hempty
    rw [if_neg hempty]
    split at h
    · cases h
    · rename_i hshort
      rw [if_neg hshort]
      simp only [followAll] at h ⊢
      split at h
      · rw [name?_foldl_outside] at h
        cases h
      · rename_i hrelative
        rw [if_neg hrelative]
        exact foldl_follow_put h

theorem wrote_of_write (h : directory.write path content = .ok changed) :
    directory.Wrote path content changed := by
  have hput : ∃ name, (directory.locate path).name? = some name ∧
      changed = directory.put name content := by
    rw [write] at h
    split at h
    · cases h
    · split at h
      · cases h
      · cases h
      · rename_i name hplace
        exact ⟨name, by rw [hplace]; rfl, (Except.ok.inj h).symm⟩
      · rename_i name hplace
        exact ⟨name, by rw [hplace]; rfl, (Except.ok.inj h).symm⟩
      · cases h
  obtain ⟨name, hplace, rfl⟩ := hput
  have hfile := locate_put content hplace
  refine ⟨?_, name, hfile, fun other => content?_put_of_ne⟩
  simp only [view, hfile, content?_put_self]

end Directory
end AnimatedGlyph
