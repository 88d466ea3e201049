/-
Lower-casing a text.

Each character goes to its lower-case form, which is a single character except
for the capital I with a dot above: its lower case is an i followed by a combining
dot.  A capital sigma at the end of a word takes the final form.  It stands at
the end of a word when a cased character comes before it and none after it, where
characters that case ignores, such as apostrophes and accents, are passed over on
both sides.
-/
import AnimatedGlyph.Text.CaseTables

namespace AnimatedGlyph
namespace Text

/-- The code point of the lower-case form. -/
def lowerCode (n : Nat) : Nat :=
  match lowerRuns.find? fun run => run.holds n with
  | some run => (n + run.shift).toNat
  | none => n

/-- The capital I with a dot above. -/
def dottedCapitalI : Char := '\u0130'

/-- The capital sigma, whose lower case depends on where it stands. -/
def capitalSigma : Char := '\u03a3'

/-- The lower-case form of a character on its own. -/
def lowerChar (c : Char) : List Char :=
  if c = dottedCapitalI then ['i', '\u0307'] else [Char.ofNat (lowerCode c.toNat)]

/-- Whether the first character that case does not ignore is cased. -/
def meetsCased (cs : List Char) : Bool :=
  match cs.dropWhile caseIgnorableRanges.contains with
  | c :: _ => casedRanges.contains c
  | [] => false

/-- The lower-case form of a sigma between what comes before it, read backwards,
and what comes after it. -/
def lowerSigma (before after : List Char) : Char :=
  if meetsCased before && !meetsCased after then '\u03c2' else '\u03c3'

/-- Lower-case the characters that follow `before`, which is read backwards. -/
def lowerAfter (before : List Char) : List Char → List Char
  | [] => []
  | c :: rest =>
    (if c = capitalSigma then [lowerSigma before rest] else lowerChar c) ++
      lowerAfter (c :: before) rest

/-- The characters in lower case. -/
def lowerChars (cs : List Char) : List Char :=
  lowerAfter [] cs

/-- The text in lower case. -/
def lowercase (s : String) : String :=
  String.ofList (lowerChars s.toList)

/-- The character in lower case if it is a Latin capital, and itself otherwise. -/
def lowerAscii (c : Char) : Char :=
  if 'A' ≤ c ∧ c ≤ 'Z' then Char.ofNat (c.toNat + 32) else c

/-! ## Latin letters -/

theorem lowerAscii_of_not {c : Char} (h : ¬('A' ≤ c ∧ c ≤ 'Z')) : lowerAscii c = c :=
  if_neg h

/-- What is to be shown of every Latin capital is checked on the twenty-six of them. -/
theorem forall_capital {P : Char → Prop} (h : ∀ n : Fin 26, P (Char.ofNat (65 + n))) {c : Char}
    (hc : 'A' ≤ c ∧ c ≤ 'Z') : P c := by
  have hlow : 65 ≤ c.toNat := hc.1
  have hhigh : c.toNat ≤ 90 := hc.2
  have hn := h ⟨c.toNat - 65, by omega⟩
  rwa [Nat.add_sub_cancel' hlow, Char.ofNat_toNat] at hn

theorem apply_lowerAscii {α : Type} {f : Char → α}
    (h : ∀ n : Fin 26, f (lowerAscii (Char.ofNat (65 + n))) = f (Char.ofNat (65 + n)))
    (c : Char) : f (lowerAscii c) = f c := by
  by_cases hc : 'A' ≤ c ∧ c ≤ 'Z'
  · exact forall_capital (P := fun c => f (lowerAscii c) = f c) h hc
  · rw [lowerAscii_of_not hc]

theorem lowerAscii_lowerAscii (c : Char) : lowerAscii (lowerAscii c) = lowerAscii c :=
  apply_lowerAscii (by decide) c

theorem lowerCode_of_lt : ∀ n < 128, lowerCode n = if 65 ≤ n ∧ n ≤ 90 then n + 32 else n := by
  decide +kernel

theorem lowerChar_of_ascii {c : Char} (h : c.toNat < 128) : lowerChar c = [lowerAscii c] := by
  have hdotted : c ≠ dottedCapitalI := by
    rintro rfl
    exact absurd h (by decide)
  rw [lowerChar, if_neg hdotted, lowerCode_of_lt _ h, lowerAscii]
  by_cases hc : 'A' ≤ c ∧ c ≤ 'Z'
  · have hcode : 65 ≤ c.toNat ∧ c.toNat ≤ 90 := hc
    rw [if_pos hc, if_pos hcode]
  · have hcode : ¬(65 ≤ c.toNat ∧ c.toNat ≤ 90) := hc
    rw [if_neg hc, if_neg hcode, Char.ofNat_toNat]

theorem lowerAfter_of_ascii {cs : List Char} (h : ∀ c ∈ cs, c.toNat < 128) :
    ∀ before, lowerAfter before cs = cs.map lowerAscii := by
  induction cs with
  | nil => exact fun _ => rfl
  | cons c rest ih =>
    intro before
    obtain ⟨hc, hrest⟩ := List.forall_mem_cons.mp h
    have hsigma : c ≠ capitalSigma := by
      rintro rfl
      exact absurd hc (by decide)
    rw [lowerAfter, if_neg hsigma, lowerChar_of_ascii hc, ih hrest, List.map_cons]
    rfl

/-- In ASCII, to lower-case a text is to lower-case its letters. -/
theorem lowercase_of_ascii {s : String} (h : ∀ c ∈ s.toList, c.toNat < 128) :
    lowercase s = String.ofList (s.toList.map lowerAscii) := by
  rw [lowercase, lowerChars, lowerAfter_of_ascii h]

theorem shift_of_mem_lowerRuns : ∀ run ∈ lowerRuns,
    90 < run.first + run.shift ∨ run.last + run.shift < 65 := by
  decide +kernel

theorem lowerCode_ne_capital (n : Nat) : ¬(65 ≤ lowerCode n ∧ lowerCode n ≤ 90) := by
  -- A code point of no run stays, and only the capitals themselves would then be capitals.
  by_cases hn : n < 128
  · rw [lowerCode_of_lt n hn]
    split <;> omega
  · rw [lowerCode]
    split
    · rename_i run hrun
      have hholds := List.find?_some hrun
      simp only [LowerRun.holds, Bool.and_eq_true, decide_eq_true_eq] at hholds
      have hshift := shift_of_mem_lowerRuns run (List.mem_of_find?_eq_some hrun)
      omega
    · omega

theorem toNat_ofNat (n : Nat) : (Char.ofNat n).toNat = n ∨ (Char.ofNat n).toNat = 0 := by
  by_cases hvalid : n.isValidChar
  · rw [Char.ofNat, dif_pos hvalid]
    exact .inl rfl
  · rw [Char.ofNat, dif_neg hvalid]
    exact .inr rfl

theorem not_capital_of_mem_lowerChar {c d : Char} (h : d ∈ lowerChar c) :
    ¬('A' ≤ d ∧ d ≤ 'Z') := by
  rw [lowerChar] at h
  split at h
  · rw [List.mem_cons, List.mem_singleton] at h
    rcases h with rfl | rfl <;> decide
  · rw [List.mem_singleton] at h
    subst h
    have hcode := lowerCode_ne_capital c.toNat
    show ¬(65 ≤ (Char.ofNat _).toNat ∧ (Char.ofNat _).toNat ≤ 90)
    rcases toNat_ofNat (lowerCode c.toNat) with h | h <;> omega

theorem not_capital_of_mem_lowerAfter {d : Char} {cs : List Char} :
    ∀ {before}, d ∈ lowerAfter before cs → ¬('A' ≤ d ∧ d ≤ 'Z') := by
  induction cs with
  | nil => exact nofun
  | cons c rest ih =>
    intro before h
    rw [lowerAfter] at h
    rcases List.mem_append.mp h with h | h
    · split at h
      · rw [List.mem_singleton] at h
        subst h
        rw [lowerSigma]
        split <;> decide
      · exact not_capital_of_mem_lowerChar h
    · exact ih h

/-- A text in lower case that is ASCII stays as it is. -/
theorem lowercase_lowercase_of_ascii {s : String}
    (h : ∀ c ∈ (lowercase s).toList, c.toNat < 128) : lowercase (lowercase s) = lowercase s := by
  have hsame : ∀ c ∈ (lowercase s).toList, lowerAscii c = c := by
    intro c hc
    rw [lowercase, String.toList_ofList] at hc
    exact lowerAscii_of_not (not_capital_of_mem_lowerAfter hc)
  rw [lowercase_of_ascii h, List.map_congr_left hsame, List.map_id', String.ofList_toList]

end Text
end AnimatedGlyph
