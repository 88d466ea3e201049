/-
Which dictionaries an engine accepts.

`Precedes` is the precedence of versions: their numbers decide first, then a pre-release comes
before its release, and pre-releases are compared identifier by identifier.  Build identifiers have
no part in it.  The order of versions refines precedence, and `compare_eq_lt_iff` says how far: it
lets build identifiers decide between versions of which neither precedes the other.

The check of a dictionary goes by that order.  `GlyphTable.merge_gate` says what this comes to: a
dictionary is refused for the engine it asks for before any of its entries counts, and one that
asks for a build of the very version of the engine is among those refused.
-/
import AnimatedGlyph.Proofs.Merging
import AnimatedGlyph.Proofs.VersionText

namespace AnimatedGlyph
namespace SemanticVersion

/-! ## Precedence -/

/-- An identifier comes before another one: numbers by value and before words, words by their
characters. -/
inductive IdentifierPrecedes (a b : String) : Prop
  | numbers (left : isNumeric a = true) (right : isNumeric b = true)
    (less : numberOf a.toList < numberOf b.toList)
  | number (left : isNumeric a = true) (right : isNumeric b = false)
  | words (left : isNumeric a = false) (right : isNumeric b = false) (less : a < b)

/-- A pre-release comes before another one or before the release, of which there are no
identifiers. -/
def PreReleasePrecedes (a b : List String) : Prop :=
  a ≠ [] ∧ (b = [] ∨ List.Lex IdentifierPrecedes a b)

/-- A version has a lower precedence than another one. -/
inductive Precedes (a b : SemanticVersion) : Prop
  | major (less : a.major < b.major)
  | minor (major : a.major = b.major) (less : a.minor < b.minor)
  | patch (major : a.major = b.major) (minor : a.minor = b.minor) (less : a.patch < b.patch)
  | preRelease (major : a.major = b.major) (minor : a.minor = b.minor) (patch : a.patch = b.patch)
    (less : PreReleasePrecedes a.preRelease b.preRelease)

/-! ## Orders of identifiers -/

theorem hasLeadingZero_of_plain {identifier : String} (h : IsIdentifier identifier)
    (plain : HasPlainNumber identifier) (hnumeric : isNumeric identifier = true) :
    hasLeadingZero identifier.toList = false := by
  have haccepted := (isPreReleaseIdentifier_iff h).mpr plain
  rw [isNumeric] at hnumeric
  rwa [isPreReleaseIdentifier, hnumeric, Bool.true_and, Bool.not_eq_true'] at haccepted

/-- A numeric identifier is the text of its number. -/
theorem toList_of_isNumeric {identifier : String} (h : IsIdentifier identifier)
    (plain : HasPlainNumber identifier) (hnumeric : isNumeric identifier = true) :
    identifier.toList = Nat.toDigits 10 (numberOf identifier.toList) :=
  (toDigits_numberOf (mt String.toList_eq_nil_iff.mp h.1) (List.all_eq_true.mp hnumeric)
    (hasLeadingZero_of_plain h plain hnumeric)).symm

theorem compareIdentifiers_swap (a b : String) :
    compareIdentifiers b a = (compareIdentifiers a b).swap := by
  rw [compareIdentifiers, compareIdentifiers]
  cases isNumeric a <;> cases isNumeric b
  · exact Std.OrientedOrd.eq_swap
  · rfl
  · rfl
  · rw [Ordering.swap_then, ← Std.OrientedOrd.eq_swap, ← Std.OrientedOrd.eq_swap]

theorem compareLists_swap : ∀ a b : List String, compareLists b a = (compareLists a b).swap
  | [], [] => rfl
  | [], _ :: _ => rfl
  | _ :: _, [] => rfl
  | a :: as, b :: bs => by
    rw [compareLists, compareLists, Ordering.swap_then, ← compareIdentifiers_swap,
      ← compareLists_swap as bs]

theorem comparePreReleases_swap : ∀ a b : List String,
    comparePreReleases b a = (comparePreReleases a b).swap
  | [], [] => rfl
  | [], _ :: _ => rfl
  | _ :: _, [] => rfl
  | a :: as, b :: bs => compareLists_swap (a :: as) (b :: bs)

section
variable {a b : String} (ha : IsIdentifier a ∧ HasPlainNumber a)
  (hb : IsIdentifier b ∧ HasPlainNumber b)
include ha hb

theorem eq_of_numberOf_eq (hnumeric : isNumeric a = true) (hother : isNumeric b = true)
    (h : numberOf a.toList = numberOf b.toList) : a = b := by
  rw [← String.toList_inj, toList_of_isNumeric ha.1 ha.2 hnumeric,
    toList_of_isNumeric hb.1 hb.2 hother, h]

theorem compareIdentifiers_eq_eq_iff : compareIdentifiers a b = .eq ↔ a = b := by
  constructor
  · intro h
    rw [compareIdentifiers] at h
    split at h
    · rename_i hnumeric hother
      exact eq_of_numberOf_eq ha hb hnumeric hother
        (Nat.compare_eq_eq.mp (Ordering.then_eq_eq.mp h).1)
    · cases h
    · cases h
    · exact Std.compare_eq_iff_eq.mp h
  · rintro rfl
    have hnumber : Ord.compare (numberOf a.toList) (numberOf a.toList) = .eq :=
      Nat.compare_eq_eq.mpr rfl
    have hlength : Ord.compare a.length a.length = .eq := Nat.compare_eq_eq.mpr rfl
    rw [compareIdentifiers]
    cases isNumeric a
    · exact Std.compare_eq_iff_eq.mpr rfl
    · exact Ordering.then_eq_eq.mpr ⟨hnumber, hlength⟩

theorem compareIdentifiers_eq_lt_iff : compareIdentifiers a b = .lt ↔ IdentifierPrecedes a b := by
  constructor
  · intro h
    rw [compareIdentifiers] at h
    split at h
    · rename_i hnumeric hother
      refine .numbers hnumeric hother ?_
      rcases Ordering.then_eq_lt.mp h with hless | ⟨hsame, hshorter⟩
      · exact Nat.compare_eq_lt.mp hless
      · -- Without zeros in front the same number is the same text.
        obtain rfl := eq_of_numberOf_eq ha hb hnumeric hother (Nat.compare_eq_eq.mp hsame)
        exact absurd (Nat.compare_eq_lt.mp hshorter) (Nat.lt_irrefl _)
    · rename_i hnumeric hother
      exact .number hnumeric hother
    · cases h
    · rename_i hword hother
      exact .words hword hother (compareOfLessAndEq_eq_lt.mp h)
  · intro h
    rw [compareIdentifiers]
    cases h with
    | numbers left right less =>
      rw [left, right]
      exact Ordering.then_eq_lt.mpr (.inl (Nat.compare_eq_lt.mpr less))
    | number left right => rw [left, right]
    | words left right less =>
      rw [left, right]
      exact compareOfLessAndEq_eq_lt.mpr less

end

theorem compareLists_eq_lt_iff : ∀ {a b : List String},
    (∀ identifier ∈ a, IsIdentifier identifier ∧ HasPlainNumber identifier) →
    (∀ identifier ∈ b, IsIdentifier identifier ∧ HasPlainNumber identifier) →
      (compareLists a b = .lt ↔ List.Lex IdentifierPrecedes a b) := by
  intro a
  induction a with
  | nil =>
    intro b _ _
    cases b with
    | nil => exact ⟨nofun, nofun⟩
    | cons second more => exact ⟨fun _ => .nil, fun _ => rfl⟩
  | cons first rest ih =>
    intro b hleft hright
    cases b with
    | nil => exact ⟨nofun, nofun⟩
    | cons second more =>
      obtain ⟨hfirst, hrest⟩ := List.forall_mem_cons.mp hleft
      obtain ⟨hsecond, hmore⟩ := List.forall_mem_cons.mp hright
      rw [compareLists, Ordering.then_eq_lt, compareIdentifiers_eq_lt_iff hfirst hsecond,
        compareIdentifiers_eq_eq_iff hfirst hsecond, ih hrest hmore]
      constructor
      · rintro (hless | ⟨rfl, hlater⟩)
        · exact .rel hless
        · exact .cons hlater
      · intro h
        cases h with
        | rel hless => exact .inl hless
        | cons hlater => exact .inr ⟨rfl, hlater⟩

theorem comparePreReleases_eq_lt_iff {a b : List String}
    (ha : ∀ identifier ∈ a, IsIdentifier identifier ∧ HasPlainNumber identifier)
    (hb : ∀ identifier ∈ b, IsIdentifier identifier ∧ HasPlainNumber identifier) :
    comparePreReleases a b = .lt ↔ PreReleasePrecedes a b := by
  cases a with
  | nil => cases b <;> exact ⟨nofun, fun h => absurd rfl h.1⟩
  | cons first rest =>
    cases b with
    | nil => exact ⟨fun _ => ⟨nofun, .inl rfl⟩, fun _ => rfl⟩
    | cons second more =>
      rw [comparePreReleases, compareLists_eq_lt_iff ha hb]
      exact ⟨fun h => ⟨nofun, .inr h⟩, fun h => h.2.resolve_left nofun⟩

/-! ## Versions -/

/-- The order of versions as far as it goes by precedence. -/
def precedence (a b : SemanticVersion) : Ordering :=
  (Ord.compare a.major b.major).then <|
    (Ord.compare a.minor b.minor).then <|
      (Ord.compare a.patch b.patch).then (comparePreReleases a.preRelease b.preRelease)

theorem compare_eq (a b : SemanticVersion) :
    a.compare b = (a.precedence b).then (compareLists a.build b.build) := by
  rw [compare, precedence, Ordering.then_assoc, Ordering.then_assoc, Ordering.then_assoc]

theorem precedence_swap (a b : SemanticVersion) : b.precedence a = (a.precedence b).swap := by
  simp only [precedence, Ordering.swap_then, ← comparePreReleases_swap, Nat.compare_swap]

section
variable {a b : SemanticVersion} (ha : a.WellFormed) (hb : b.WellFormed)
include ha hb

theorem precedence_eq_lt_iff : a.precedence b = .lt ↔ a.Precedes b := by
  rw [precedence, Ordering.then_eq_lt, Ordering.then_eq_lt, Ordering.then_eq_lt,
    comparePreReleases_eq_lt_iff ha.preRelease hb.preRelease]
  simp only [Nat.compare_eq_lt, Nat.compare_eq_eq]
  constructor
  · rintro (hmajor | ⟨major, hminor | ⟨minor, hpatch | ⟨patch, hpre⟩⟩⟩)
    · exact .major hmajor
    · exact .minor major hminor
    · exact .patch major minor hpatch
    · exact .preRelease major minor patch hpre
  · intro h
    cases h with
    | major less => exact .inl less
    | minor major less => exact .inr ⟨major, .inl less⟩
    | patch major minor less => exact .inr ⟨major, .inr ⟨minor, .inl less⟩⟩
    | preRelease major minor patch less => exact .inr ⟨major, .inr ⟨minor, .inr ⟨patch, less⟩⟩⟩

theorem precedence_eq_eq_iff : a.precedence b = .eq ↔ ¬a.Precedes b ∧ ¬b.Precedes a := by
  rw [← precedence_eq_lt_iff ha hb, ← precedence_eq_lt_iff hb ha, precedence_swap a b,
    Ordering.swap_eq_lt]
  cases a.precedence b <;> decide

/-- The order of versions is precedence, and where neither version precedes the other the build
identifiers decide. -/
theorem compare_eq_lt_iff :
    a.compare b = .lt ↔
      a.Precedes b ∨ ¬b.Precedes a ∧ compareLists a.build b.build = .lt := by
  rw [compare_eq, Ordering.then_eq_lt, precedence_eq_lt_iff ha hb, precedence_eq_eq_iff ha hb]
  constructor
  · rintro (hless | ⟨⟨-, hnot⟩, hbuild⟩)
    · exact .inl hless
    · exact .inr ⟨hnot, hbuild⟩
  · rintro (hless | ⟨hnot, hbuild⟩)
    · exact .inl hless
    · by_cases hless : a.Precedes b
      · exact .inl hless
      · exact .inr ⟨⟨hless, hnot⟩, hbuild⟩

end
end SemanticVersion

/-! ## The check of a dictionary -/

namespace GlyphDictionary

/-- The text asks for the version of an engine: it is the text of the version, whose numbers are
words of 64 bits. -/
structure AsksFor (asked : String) (minimum : SemanticVersion) : Prop where
  wellFormed : minimum.WellFormed
  fits : minimum.Fits
  text : minimum.text = asked

/-- The version of the engine does not precede what is asked for, and if neither precedes the
other no build is asked for. -/
def Admits (minimum : SemanticVersion) : Prop :=
  ¬Engine.version.Precedes minimum ∧ (minimum.Precedes Engine.version ∨ minimum.build = [])

theorem asksFor_iff {asked : String} {minimum : SemanticVersion} :
    AsksFor asked minimum ↔ SemanticVersion.parse? asked = some minimum := by
  rw [SemanticVersion.parse?_eq_some_iff]
  exact ⟨fun ⟨wellFormed, fits, text⟩ => ⟨wellFormed, fits, text⟩,
    fun ⟨wellFormed, fits, text⟩ => ⟨wellFormed, fits, text⟩⟩

theorem compareLists_nil_eq_lt_iff (build : List String) :
    SemanticVersion.compareLists [] build = .lt ↔ build ≠ [] := by
  cases build with
  | nil => exact ⟨nofun, fun h => absurd rfl h⟩
  | cons identifier more => exact ⟨fun _ => nofun, fun _ => rfl⟩

theorem compare_version_eq_lt_iff {minimum : SemanticVersion} (h : minimum.WellFormed) :
    Engine.version.compare minimum = .lt ↔ ¬Admits minimum := by
  have hengine : Engine.version.WellFormed := ⟨nofun, nofun⟩
  have hbuild : Engine.version.build = [] := rfl
  rw [SemanticVersion.compare_eq_lt_iff hengine h, hbuild, compareLists_nil_eq_lt_iff, Admits]
  tauto

/-- The engine is a release, and a release precedes no version with its numbers. -/
theorem not_precedes_of_same {minimum : SemanticVersion}
    (major : minimum.major = Engine.version.major) (minor : minimum.minor = Engine.version.minor)
    (patch : minimum.patch = Engine.version.patch) : ¬Engine.version.Precedes minimum := by
  intro h
  cases h with
  | major less => exact absurd less (Nat.not_lt.mpr (Nat.le_of_eq major))
  | minor _ less => exact absurd less (Nat.not_lt.mpr (Nat.le_of_eq minor))
  | patch _ _ less => exact absurd less (Nat.not_lt.mpr (Nat.le_of_eq patch))
  | preRelease _ _ _ less => exact less.1 rfl

/-- What the check of the engine finds goes by the version that is asked for. -/
theorem checkEngine_cases (dictionary : GlyphDictionary) :
    ((¬∃ minimum, AsksFor dictionary.engineMinVersion minimum) ∧
        dictionary.checkEngine = .error .unreadableVersion) ∨
      ∃ minimum, AsksFor dictionary.engineMinVersion minimum ∧
        (¬Admits minimum ∧ dictionary.checkEngine =
            .error (.newerEngine dictionary.version dictionary.engineMinVersion) ∨
          Admits minimum ∧ dictionary.checkEngine = .ok ()) := by
  rw [checkEngine]
  cases hread : SemanticVersion.parse? dictionary.engineMinVersion with
  | none =>
    refine .inl ⟨?_, rfl⟩
    rintro ⟨minimum, hasked⟩
    cases hread.symm.trans (asksFor_iff.mp hasked)
  | some minimum =>
    have hasked := asksFor_iff.mpr hread
    have horder := compare_version_eq_lt_iff hasked.wellFormed
    refine .inr ⟨minimum, hasked, ?_⟩
    by_cases hadmits : Admits minimum
    · exact .inr ⟨hadmits, if_neg fun h => horder.mp h hadmits⟩
    · exact .inl ⟨hadmits, if_pos (horder.mpr hadmits)⟩

theorem AsksFor.unique {asked : String} {minimum other : SemanticVersion}
    (h : AsksFor asked minimum) (hother : AsksFor asked other) : minimum = other :=
  Option.some.inj ((asksFor_iff.mp h).symm.trans (asksFor_iff.mp hother))

end GlyphDictionary

namespace GlyphTable

open GlyphDictionary

/-- A dictionary passes the check of the engine exactly if it asks for a version that the engine
admits, and then it is up to the entries.  If it asks for no version or for one that the engine
does not admit it is refused for that, whatever its entries are, and the table stays as it was. -/
theorem merge_gate (table : GlyphTable) (dictionary : GlyphDictionary) :
    let asked := dictionary.engineMinVersion
    (dictionary.checkEngine = .ok () ↔ ∃ minimum, AsksFor asked minimum ∧ Admits minimum) ∧
      ((∃ minimum, AsksFor asked minimum ∧ Admits minimum) →
        table.merge dictionary =
          match dictionary.entries with
          | .ok entries => (.ok entries.length, table.insertAll entries)
          | .error cause => (.error cause, table)) ∧
      ((¬∃ minimum, AsksFor asked minimum) →
        table.merge dictionary = (.error .unreadableVersion, table)) ∧
      ((∃ minimum, AsksFor asked minimum ∧ ¬Admits minimum) →
        table.merge dictionary = (.error (.newerEngine dictionary.version asked), table)) := by
  intro asked
  have hmerge := merge_eq dictionary table
  rcases dictionary.checkEngine_cases with ⟨hnone, hchecked⟩ |
    ⟨minimum, hasked, ⟨hrefused, hchecked⟩ | ⟨hadmits, hchecked⟩⟩ <;> rw [hchecked] at hmerge ⊢
  · have hnot : ¬∃ minimum, AsksFor asked minimum ∧ Admits minimum :=
      fun ⟨minimum, h, _⟩ => hnone ⟨minimum, h⟩
    exact ⟨⟨nofun, fun h => absurd h hnot⟩, fun h => absurd h hnot, fun _ => hmerge,
      fun ⟨minimum, h, _⟩ => absurd ⟨minimum, h⟩ hnone⟩
  · have hnot : ¬∃ minimum, AsksFor asked minimum ∧ Admits minimum :=
      fun ⟨other, h, hadmits⟩ => hrefused (hasked.unique h ▸ hadmits)
    exact ⟨⟨nofun, fun h => absurd h hnot⟩, fun h => absurd h hnot,
      fun h => absurd ⟨minimum, hasked⟩ h, fun _ => hmerge⟩
  · refine ⟨⟨fun _ => ⟨minimum, hasked, hadmits⟩, fun _ => rfl⟩, fun _ => ?_,
      fun h => absurd ⟨minimum, hasked⟩ h,
      fun ⟨other, h, hrefused⟩ => absurd (hasked.unique h ▸ hadmits) hrefused⟩
    rw [hmerge]
    cases dictionary.entries <;> rfl

/-- A release candidate comes before its release, whatever its build is. -/
theorem merge_gate_of_candidate :
    let dictionary : GlyphDictionary :=
      ⟨"1.0.0", "1.0.0-rc.1+b", [("wave", "049")], by decide⟩
    let minimum : SemanticVersion := ⟨1, 0, 0, ["rc", "1"], ["b"]⟩
    AsksFor "1.0.0-rc.1+b" minimum ∧ Admits minimum ∧
      dictionary.checkEngine = .ok () ∧ (builtin.merge dictionary).1 = .ok 1 := by
  intro dictionary minimum
  have hasked : AsksFor "1.0.0-rc.1+b" minimum := asksFor_iff.mpr (by decide +kernel)
  have hadmits : Admits minimum :=
    ⟨not_precedes_of_same rfl rfl rfl, .inl (.preRelease rfl rfl rfl ⟨nofun, .inl rfl⟩)⟩
  obtain ⟨hpasses, hentries, -, -⟩ := merge_gate builtin dictionary
  refine ⟨hasked, hadmits, hpasses.mpr ⟨minimum, hasked, hadmits⟩, ?_⟩
  rw [hentries ⟨minimum, hasked, hadmits⟩]
  decide +kernel

/-- No version precedes another one with its numbers and without a pre-release, but a build of the
engine's own version is refused. -/
theorem own_build_is_refused :
    let dictionary : GlyphDictionary :=
      ⟨"1.0.0", "1.0.0+nightly", [("wave", "049")], by decide⟩
    let minimum : SemanticVersion := ⟨1, 0, 0, [], ["nightly"]⟩
    AsksFor dictionary.engineMinVersion minimum ∧ ¬Engine.version.Precedes minimum ∧
      builtin.merge dictionary = (.error (.newerEngine "1.0.0" "1.0.0+nightly"), builtin) := by
  intro dictionary minimum
  have hasked : AsksFor dictionary.engineMinVersion minimum := asksFor_iff.mpr (by decide +kernel)
  have hchecked : dictionary.checkEngine = .error (.newerEngine "1.0.0" "1.0.0+nightly") := by
    decide +kernel
  refine ⟨hasked, not_precedes_of_same rfl rfl rfl, ?_⟩
  rw [merge_eq, hchecked]

end GlyphTable
end AnimatedGlyph
