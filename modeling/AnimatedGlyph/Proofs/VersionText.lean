/-
The texts of versions.

A version is written in one way: its numbers in decimal digits with dots between them, then the
identifiers of the pre-release after a hyphen and those of the build after a plus sign, both left
out if there are none.  `parse?_eq_some_iff` says that reading accepts exactly what is written for
well-formed versions whose numbers are words of 64 bits, so that it gives the version that was
written.

Each reader has one lemma that says what it accepts and what it leaves.  What it leaves never
starts with a character that it could have taken.
-/
import Mathlib.Data.List.Basic
import Mathlib.Data.List.Induction
import AnimatedGlyph.Glyph.Version
import AnimatedGlyph.Proofs.Spans

namespace AnimatedGlyph
namespace SemanticVersion

/-! ## Written versions -/

/-- Whether a text may be an identifier. -/
def IsIdentifier (identifier : String) : Prop :=
  identifier ≠ "" ∧ ∀ c ∈ identifier.toList, isIdentifierChar c = true

/-- A numeric identifier has no zeros in front. -/
def HasPlainNumber (identifier : String) : Prop :=
  isNumeric identifier = true → identifier.toList.head? = some '0' → identifier = "0"

/-- The identifiers of the version are such. -/
structure WellFormed (version : SemanticVersion) : Prop where
  preRelease : ∀ identifier ∈ version.preRelease,
    IsIdentifier identifier ∧ HasPlainNumber identifier
  build : ∀ identifier ∈ version.build, IsIdentifier identifier

/-- The numbers of the version are words of 64 bits. -/
structure Fits (version : SemanticVersion) : Prop where
  major : version.major < UInt64.size
  minor : version.minor < UInt64.size
  patch : version.patch < UInt64.size

/-- The text of identifiers after a mark. -/
def markedText (mark : Char) (identifiers : List String) : String :=
  if identifiers = [] then "" else String.singleton mark ++ ".".intercalate identifiers

def text (version : SemanticVersion) : String :=
  toString version.major ++ "." ++ toString version.minor ++ "." ++ toString version.patch ++
    markedText '-' version.preRelease ++ markedText '+' version.build

/-! ## Numbers -/

theorem isDigit_iff (c : Char) : isDigit c = true ↔ 48 ≤ c.toNat ∧ c.toNat ≤ 57 := by
  rw [isDigit, Bool.and_eq_true, decide_eq_true_eq, decide_eq_true_eq]
  rfl

theorem isDigit_of_mem_toDigits {n : Nat} {c : Char} (h : c ∈ Nat.toDigits 10 n) :
    isDigit c = true := by
  have hc := Nat.isDigit_of_mem_toDigits (by decide) (by decide) h
  rw [Char.isDigit, Bool.and_eq_true, decide_eq_true_eq, decide_eq_true_eq] at hc
  exact (isDigit_iff c).mpr hc

theorem numberOf_toDigits (n : Nat) : numberOf (Nat.toDigits 10 n) = n :=
  Nat.ofDigitChars_ten_toDigits

theorem numberOf_concat (digits : List Char) (c : Char) :
    numberOf (digits ++ [c]) = 10 * numberOf digits + (c.toNat - 48) := by
  rw [numberOf, List.foldl_append]
  rfl

theorem toDigits_of_isDigit {c : Char} (h : isDigit c = true) :
    Nat.toDigits 10 (c.toNat - 48) = [c] := by
  obtain ⟨hlow, hhigh⟩ := (isDigit_iff c).mp h
  rw [Nat.toDigits_of_lt_base (by omega)]
  congr 1
  apply Char.toNat_inj.mp
  rw [Nat.toNat_digitChar_of_lt_ten (by omega)]
  omega

theorem head?_toDigits {n : Nat} (h : 0 < n) : (Nat.toDigits 10 n).head? ≠ some '0' := by
  induction n using Nat.strongRecOn with
  | ind n ih =>
    by_cases hn : n < 10
    · rw [Nat.toDigits_of_lt_base hn]
      intro hzero
      have hchar : n.digitChar = '0' := Option.some.inj hzero
      have hvalue := Nat.toNat_digitChar_of_lt_ten hn
      rw [hchar] at hvalue
      have : ('0' : Char).toNat = 48 := rfl
      omega
    · rw [Nat.toDigits_of_base_le (by decide) (Nat.le_of_not_lt hn),
        List.head?_append_of_ne_nil (Nat.toDigits 10 (n / 10)) Nat.toDigits_ne_nil]
      exact ih (n / 10) (by omega) (by omega)

theorem hasLeadingZero_toDigits (n : Nat) : hasLeadingZero (Nat.toDigits 10 n) = false := by
  rcases Nat.eq_zero_or_pos n with rfl | hpos
  · rfl
  · have hhead := head?_toDigits hpos
    rw [hasLeadingZero, Bool.and_eq_false_iff]
    exact .inl (by simpa using hhead)

/-- Digits without a leading zero are those of their number. -/
theorem toDigits_numberOf {digits : List Char} (hne : digits ≠ [])
    (hdigits : ∀ c ∈ digits, isDigit c = true) (hplain : hasLeadingZero digits = false) :
    Nat.toDigits 10 (numberOf digits) = digits := by
  induction digits using List.reverseRecOn with
  | nil => exact absurd rfl hne
  | append_singleton digits c ih =>
    have hc : isDigit c = true := hdigits c (by simp)
    obtain ⟨hlow, hhigh⟩ := (isDigit_iff c).mp hc
    rw [numberOf_concat]
    by_cases hempty : digits = []
    · subst hempty
      have hnumber : 10 * numberOf [] + (c.toNat - 48) = c.toNat - 48 := Nat.zero_add _
      rw [hnumber, List.nil_append, toDigits_of_isDigit hc]
    · have hhead : digits.head? ≠ some '0' := by
        intro hzero
        have hlength : 1 < (digits ++ [c]).length := by
          have := List.length_pos_iff.mpr hempty
          rw [List.length_append, List.length_singleton]
          omega
        rw [hasLeadingZero, List.head?_append_of_ne_nil digits hempty, hzero,
          decide_eq_true hlength] at hplain
        cases hplain
      have hbefore := ih hempty (fun d hd => hdigits d (List.mem_append_left _ hd)) (by
        rw [hasLeadingZero, Bool.and_eq_false_iff]
        exact .inl (by simpa using hhead))
      have hpos : 0 < numberOf digits := by
        refine Nat.pos_of_ne_zero fun hzero => hhead ?_
        rw [← hbefore, hzero]
        rfl
      rw [← Nat.toDigits_append_toDigits (by decide) hpos (by omega), hbefore,
        toDigits_of_isDigit hc]

theorem readNumber?_eq_some_iff {cs rest : List Char} {n : Nat} :
    readNumber? cs = some (n, rest) ↔
      n < UInt64.size ∧ cs = Nat.toDigits 10 n ++ rest ∧ Stops isDigit rest := by
  constructor
  · intro h
    simp only [readNumber?] at h
    split at h
    · cases h
    · rename_i haccepted
      obtain ⟨rfl, rfl⟩ := Prod.mk.inj (Option.some.inj h)
      simp only [Bool.or_eq_true, not_or, decide_eq_true_eq, Nat.not_le, Bool.not_eq_true,
        List.isEmpty_eq_false_iff] at haccepted
      obtain ⟨⟨hne, hplain⟩, hsize⟩ := haccepted
      refine ⟨hsize, ?_, stops_dropWhile _ _⟩
      rw [toDigits_numberOf hne (fun c hc => List.mem_takeWhile_imp hc) hplain,
        List.takeWhile_append_dropWhile]
  · rintro ⟨hsize, rfl, hstops⟩
    obtain ⟨htake, hdrop⟩ :=
      span_append (fun c (hc : c ∈ Nat.toDigits 10 n) => isDigit_of_mem_toDigits hc) hstops
    have hne : (Nat.toDigits 10 n).isEmpty = false :=
      List.isEmpty_eq_false_iff.mpr Nat.toDigits_ne_nil
    have hroom : ¬UInt64.size ≤ n := Nat.not_le.mpr hsize
    simp only [readNumber?, htake, hdrop, hne, hasLeadingZero_toDigits, numberOf_toDigits, hroom,
      decide_false, Bool.or_false, Bool.false_eq_true, if_false]

/-! ## Identifiers -/

theorem readMark?_eq_some_iff {mark : Char} {cs rest : List Char} :
    readMark? mark cs = some rest ↔ cs = mark :: rest := by
  cases cs with
  | nil => exact ⟨nofun, nofun⟩
  | cons c more =>
    rw [readMark?, List.cons.injEq]
    by_cases hc : c = mark
    · rw [if_pos hc, Option.some.injEq]
      exact ⟨fun h => ⟨hc, h⟩, fun h => h.2⟩
    · rw [if_neg hc]
      exact ⟨nofun, fun h => absurd h.1 hc⟩

theorem readMark?_eq_none_iff {mark : Char} {cs : List Char} :
    readMark? mark cs = none ↔ cs.head? ≠ some mark := by
  cases cs with
  | nil => exact ⟨nofun, fun _ => rfl⟩
  | cons c more =>
    rw [readMark?, List.head?_cons, ne_eq, Option.some.injEq]
    by_cases hc : c = mark
    · rw [if_pos hc]
      exact ⟨nofun, fun h => absurd hc h⟩
    · rw [if_neg hc]
      exact ⟨fun _ => hc, fun _ => rfl⟩

theorem dotted_eq (cs : List Char) : dotted cs = cs.splitOn '.' := by
  induction cs with
  | nil => rfl
  | cons c rest ih =>
    rw [dotted, List.splitOn_cons_eq_if_modifyHead, ih]
    by_cases hc : c = '.'
    · rw [if_pos hc, if_pos (beq_iff_eq.mpr hc)]
    · rw [if_neg hc, if_neg (mt beq_iff_eq.mp hc)]
      cases hrest : rest.splitOn '.' with
      | nil => exact absurd hrest (List.splitOn_ne_nil '.' rest)
      | cons part more => rfl

/-- A character that identifiers and the dots between them are made of. -/
def isDottedChar (c : Char) : Bool :=
  isIdentifierChar c || c == '.'

theorem mem_of_mem_dotted {cs part : List Char} (h : part ∈ dotted cs) :
    ∀ c ∈ part, c ∈ cs ∧ c ≠ '.' := by
  induction cs generalizing part with
  | nil =>
    obtain rfl := List.mem_singleton.mp h
    exact nofun
  | cons first rest ih =>
    rw [dotted] at h
    split at h
    · rcases List.mem_cons.mp h with rfl | h
      · exact nofun
      · exact fun c hc => ⟨List.mem_cons_of_mem _ (ih h c hc).1, (ih h c hc).2⟩
    · rename_i hfirst
      split at h
      · obtain rfl := List.mem_singleton.mp h
        intro c hc
        obtain rfl := List.mem_singleton.mp hc
        exact ⟨List.mem_cons_self, hfirst⟩
      · rename_i grown more hrest
        rcases List.mem_cons.mp h with rfl | h
        · intro c hc
          rcases List.mem_cons.mp hc with rfl | hc
          · exact ⟨List.mem_cons_self, hfirst⟩
          · have hgrown : grown ∈ dotted rest := by
              rw [hrest]
              exact List.mem_cons_self
            exact ⟨List.mem_cons_of_mem _ (ih hgrown c hc).1, (ih hgrown c hc).2⟩
        · have hpart : part ∈ dotted rest := by
            rw [hrest]
            exact List.mem_cons_of_mem _ h
          exact fun c hc => ⟨List.mem_cons_of_mem _ (ih hpart c hc).1, (ih hpart c hc).2⟩

theorem forall_mem_intercalate {p : Char → Prop} {c : Char} (hc : p c) {parts : List (List Char)}
    (h : ∀ part ∈ parts, ∀ d ∈ part, p d) : ∀ d ∈ [c].intercalate parts, p d := by
  induction parts with
  | nil => exact nofun
  | cons part rest ih =>
    obtain ⟨hpart, hrest⟩ := List.forall_mem_cons.mp h
    cases rest with
    | nil =>
      rw [List.intercalate_singleton]
      exact hpart
    | cons next more =>
      rw [List.intercalate_cons_cons]
      intro d hd
      rcases List.mem_append.mp hd with hd | hd
      · rcases List.mem_append.mp hd with hd | hd
        · exact hpart d hd
        · obtain rfl := List.mem_singleton.mp hd
          exact hc
      · exact ih hrest d hd

/-! ### Between the dots -/

theorem isIdentifier_of_mem_dotted {cs part : List Char}
    (hpart : part ∈ dotted (cs.takeWhile isDottedChar)) (hne : part.isEmpty = false) :
    IsIdentifier (String.ofList part) := by
  refine ⟨fun hempty => ?_, fun c hc => ?_⟩
  · rw [String.ofList_eq_empty_iff.mp hempty] at hne
    cases hne
  · rw [String.toList_ofList] at hc
    obtain ⟨hmem, hdot⟩ := mem_of_mem_dotted hpart c hc
    have hclass := List.mem_takeWhile_imp hmem
    rw [isDottedChar, beq_eq_false_iff_ne.mpr hdot, Bool.or_false] at hclass
    exact hclass

theorem toList_intercalate_dotted (cs : List Char) :
    (".".intercalate ((dotted cs).map String.ofList)).toList = cs := by
  have hdot : ".".toList = ['.'] := rfl
  have hback : String.toList ∘ String.ofList = id := funext fun cs => String.toList_ofList
  rw [String.toList_intercalate, List.map_map, hdot, hback, List.map_id, dotted_eq,
    List.intercalate_splitOn]

section
variable {identifiers : List String} (h : ∀ identifier ∈ identifiers, IsIdentifier identifier)
include h

theorem isDottedChar_of_mem_intercalate :
    ∀ c ∈ (".".intercalate identifiers).toList, isDottedChar c = true := by
  rw [String.toList_intercalate]
  refine forall_mem_intercalate (p := fun c => isDottedChar c = true) rfl fun part hpart c hc => ?_
  obtain ⟨identifier, hidentifier, rfl⟩ := List.mem_map.mp hpart
  rw [isDottedChar, (h identifier hidentifier).2 c hc]
  rfl

theorem dotted_intercalate (hne : identifiers ≠ []) :
    dotted (".".intercalate identifiers).toList = identifiers.map String.toList := by
  rw [String.toList_intercalate, dotted_eq]
  refine List.splitOn_intercalate '.' (fun part hpart hdot => ?_) (mt List.map_eq_nil_iff.mp hne)
  obtain ⟨identifier, hidentifier, rfl⟩ := List.mem_map.mp hpart
  cases (h identifier hidentifier).2 '.' hdot

end

theorem readIdentifiers?_eq_some_iff {accept : List Char → Bool} {cs rest : List Char}
    {identifiers : List String} :
    readIdentifiers? accept cs = some (identifiers, rest) ↔
      identifiers ≠ [] ∧
        (∀ identifier ∈ identifiers,
          IsIdentifier identifier ∧ accept identifier.toList = true) ∧
        cs = (".".intercalate identifiers).toList ++ rest ∧ Stops isDottedChar rest := by
  have hread : readIdentifiers? accept cs =
      if (dotted (cs.takeWhile isDottedChar)).all (fun part => !part.isEmpty && accept part) then
        some ((dotted (cs.takeWhile isDottedChar)).map String.ofList, cs.dropWhile isDottedChar)
      else none := rfl
  rw [hread]
  constructor
  · intro h
    split at h
    · rename_i hparts
      obtain ⟨rfl, rfl⟩ := Prod.mk.inj (Option.some.inj h)
      refine ⟨?_, ?_, ?_, stops_dropWhile _ _⟩
      · rw [dotted_eq]
        exact mt List.map_eq_nil_iff.mp (List.splitOn_ne_nil _ _)
      · intro identifier hidentifier
        obtain ⟨part, hpart, rfl⟩ := List.mem_map.mp hidentifier
        have haccepted := List.all_eq_true.mp hparts part hpart
        rw [Bool.and_eq_true, Bool.not_eq_true'] at haccepted
        rw [String.toList_ofList]
        exact ⟨isIdentifier_of_mem_dotted hpart haccepted.1, haccepted.2⟩
      · rw [toList_intercalate_dotted, List.takeWhile_append_dropWhile]
    · cases h
  · rintro ⟨hne, hidentifiers, rfl, hstops⟩
    have hall : ∀ identifier ∈ identifiers, IsIdentifier identifier :=
      fun identifier hmem => (hidentifiers identifier hmem).1
    obtain ⟨htake, hdrop⟩ := span_append (isDottedChar_of_mem_intercalate hall) hstops
    rw [htake, hdrop, dotted_intercalate hall hne, if_pos, List.map_map]
    · have hback : String.ofList ∘ String.toList = id := funext fun s => String.ofList_toList
      rw [hback, List.map_id]
    · rw [List.all_map, List.all_eq_true]
      intro identifier hidentifier
      obtain ⟨⟨hne, -⟩, haccept⟩ := hidentifiers identifier hidentifier
      rw [Function.comp_apply, haccept, Bool.and_true, Bool.not_eq_true',
        List.isEmpty_eq_false_iff]
      exact mt String.toList_eq_nil_iff.mp hne

/-- After a mark come identifiers, and without the mark there are none. -/
theorem readMarked?_eq_some_iff {mark : Char} {accept : List Char → Bool} {cs rest : List Char}
    {identifiers : List String} :
    readMarked? mark accept cs = some (identifiers, rest) ↔
      (∀ identifier ∈ identifiers,
        IsIdentifier identifier ∧ accept identifier.toList = true) ∧
      cs = (markedText mark identifiers).toList ++ rest ∧
      (identifiers = [] → rest.head? ≠ some mark) ∧
      (identifiers ≠ [] → Stops isDottedChar rest) := by
  rw [readMarked?]
  cases hmark : readMark? mark cs with
  | none =>
    have hhead := readMark?_eq_none_iff.mp hmark
    rw [Option.some.injEq, Prod.mk.injEq]
    constructor
    · rintro ⟨rfl, rfl⟩
      exact ⟨nofun, rfl, fun _ => hhead, fun h => absurd rfl h⟩
    · rintro ⟨-, rfl, -, -⟩
      by_cases hempty : identifiers = []
      · rw [markedText, if_pos hempty]
        exact ⟨hempty.symm, rfl⟩
      · rw [markedText, if_neg hempty, String.toList_append, String.toList_singleton] at hhead
        exact absurd rfl hhead
  | some after =>
    obtain rfl := readMark?_eq_some_iff.mp hmark
    show readIdentifiers? accept after = _ ↔ _
    rw [readIdentifiers?_eq_some_iff]
    constructor
    · rintro ⟨hne, hidentifiers, rfl, hstops⟩
      refine ⟨hidentifiers, ?_, fun h => absurd h hne, fun _ => hstops⟩
      rw [markedText, if_neg hne, String.toList_append, String.toList_singleton]
      rfl
    · rintro ⟨hidentifiers, htext, hnone, hstops⟩
      by_cases hempty : identifiers = []
      · rw [markedText, if_pos hempty] at htext
        refine absurd ?_ (hnone hempty)
        rw [← List.nil_append rest, ← String.toList_empty, ← htext]
        rfl
      · rw [markedText, if_neg hempty, String.toList_append, String.toList_singleton] at htext
        exact ⟨hempty, hidentifiers, (List.cons.inj htext).2, hstops hempty⟩

/-! ## Versions -/

theorem isPreReleaseIdentifier_iff {identifier : String} (h : IsIdentifier identifier) :
    isPreReleaseIdentifier identifier.toList = true ↔ HasPlainNumber identifier := by
  rw [isPreReleaseIdentifier, HasPlainNumber, isNumeric, Bool.not_eq_true', Bool.and_eq_false_imp,
    hasLeadingZero]
  refine forall_congr' fun _ => ?_
  rw [Bool.and_eq_false_imp, beq_iff_eq]
  refine forall_congr' fun hzero => ?_
  -- One character is left of an identifier that starts with a zero and has no second digit.
  obtain ⟨first, rest, hchars⟩ := List.exists_cons_of_ne_nil (mt String.toList_eq_nil_iff.mp h.1)
  rw [hchars] at hzero
  obtain rfl := Option.some.inj hzero
  rw [← String.toList_inj, hchars, decide_eq_false_iff_not, List.length_cons]
  constructor
  · intro hshort
    have hrest : rest = [] := List.eq_nil_of_length_eq_zero (by omega)
    rw [hrest]
    rfl
  · intro hone
    rw [(List.cons.inj hone).2]
    decide

theorem toList_text (version : SemanticVersion) :
    version.text.toList = Nat.toDigits 10 version.major ++ '.' ::
      (Nat.toDigits 10 version.minor ++ '.' :: (Nat.toDigits 10 version.patch ++
        ((markedText '-' version.preRelease).toList ++
          ((markedText '+' version.build).toList ++ [])))) := by
  have hdot : ".".toList = ['.'] := rfl
  simp only [text, String.toList_append, Nat.toString_eq_ofList_toDigits, String.toList_ofList,
    hdot, List.append_assoc, List.cons_append, List.nil_append, List.append_nil]

theorem stops_marked {p : Char → Bool} {mark : Char} (hmark : p mark = false)
    (identifiers : List String) {rest : List Char} (hrest : Stops p rest) :
    Stops p ((markedText mark identifiers).toList ++ rest) := by
  by_cases hempty : identifiers = []
  · rw [markedText, if_pos hempty]
    exact hrest
  · rw [markedText, if_neg hempty, String.toList_append, String.toList_singleton]
    intro c hc
    obtain rfl := Option.some.inj hc
    exact hmark

/-- A text is read as a version exactly if it is the text of the version. -/
theorem parse?_eq_some_iff {s : String} {version : SemanticVersion} :
    parse? s = some version ↔ version.WellFormed ∧ version.Fits ∧ version.text = s := by
  simp only [parse?, Option.bind_eq_bind, Option.bind_eq_some_iff, Prod.exists,
    readNumber?_eq_some_iff, readMark?_eq_some_iff, readMarked?_eq_some_iff]
  constructor
  · rintro ⟨major, _, ⟨hmajor, htext, -⟩, _, rfl, minor, _, ⟨hminor, rfl, -⟩, _, rfl, patch, _,
      ⟨hpatch, rfl, -⟩, preRelease, _, ⟨hpre, rfl, -, -⟩, build, rest, ⟨hbuild, rfl, -, -⟩, hend⟩
    split at hend
    · rename_i hrest
      obtain rfl := Option.some.inj hend
      obtain rfl := List.isEmpty_iff.mp hrest
      refine ⟨⟨fun identifier h => ?_, fun identifier h => (hbuild identifier h).1⟩,
        ⟨hmajor, hminor, hpatch⟩, ?_⟩
      · obtain ⟨hidentifier, haccepted⟩ := hpre identifier h
        exact ⟨hidentifier, (isPreReleaseIdentifier_iff hidentifier).mp haccepted⟩
      · rw [← String.toList_inj, toList_text, htext]
    · cases hend
  · rintro ⟨wellFormed, fits, rfl⟩
    have hpre : ∀ identifier ∈ version.preRelease,
        IsIdentifier identifier ∧ isPreReleaseIdentifier identifier.toList = true := by
      intro identifier h
      obtain ⟨hidentifier, hplain⟩ := wellFormed.preRelease identifier h
      exact ⟨hidentifier, (isPreReleaseIdentifier_iff hidentifier).mpr hplain⟩
    have hbuild : ∀ identifier ∈ version.build, IsIdentifier identifier ∧ True :=
      fun identifier h => ⟨wellFormed.build identifier h, trivial⟩
    -- Each part stops where the next one starts with its mark.
    have hafter : ∀ {p : Char → Bool}, p '+' = false →
        Stops p ((markedText '+' version.build).toList ++ []) :=
      fun hplus => stops_marked hplus version.build nofun
    have hhyphen : ((markedText '+' version.build).toList ++ []).head? ≠ some '-' := by
      intro hhead
      cases hafter (p := fun c => c == '-') rfl '-' hhead
    exact ⟨_, _, ⟨fits.major, toList_text version, by rintro _ ⟨⟩; rfl⟩, _, rfl, _, _,
      ⟨fits.minor, rfl, by rintro _ ⟨⟩; rfl⟩, _, rfl, _, _,
      ⟨fits.patch, rfl, stops_marked rfl _ (hafter rfl)⟩, _, _,
      ⟨hpre, rfl, fun _ => hhyphen, fun _ => hafter rfl⟩, _, _,
      ⟨hbuild, rfl, fun _ => nofun, fun _ => nofun⟩, rfl⟩

end SemanticVersion
end AnimatedGlyph
