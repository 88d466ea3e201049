/-
Where the pieces of a text lie.

A `Stretch` is a piece together with the place of its first character.  `mem_stretches_iff`
says which stretches the pieces of a text are: those without a separator that have one, or an
end of the text, on either side.  The ones with a character in them are the maximal runs.
Cutting the pieces once more, at more separators, is the same as cutting the text at these
(`stretches_flatMap`).

Most is proved by taking off what comes before the first separator (`separated_induction`).
-/
import AnimatedGlyph.Proofs.Cutting

namespace AnimatedGlyph
namespace Text

/-- Characters of a text that follow each other, and the place of the first. -/
structure Stretch where
  start : Nat
  chars : List Char

namespace Stretch

/-- The place behind the last character. -/
def stop (x : Stretch) : Nat :=
  x.start + x.chars.length

/-- The second stretch starts behind the first, with a character between them. -/
def Before (x y : Stretch) : Prop :=
  x.stop < y.start

/-- The stretch with one more character in front of it. -/
def grow (c : Char) (x : Stretch) : Stretch :=
  ⟨x.start - 1, c :: x.chars⟩

theorem start_le_stop (x : Stretch) : x.start ≤ x.stop :=
  Nat.le_add_right _ _

end Stretch

/-- The pieces of a text whose first character has the place `start`. -/
def stretches (cut : Char → Bool) (start : Nat) : List Char → List Stretch
  | [] => [⟨start, []⟩]
  | c :: rest =>
    if cut c then ⟨start, []⟩ :: stretches cut (start + 1) rest
    else (stretches cut (start + 1) rest).modifyHead (Stretch.grow c)

/-- The stretch lies in the text, which has separators, or its ends, around it, and none in
it. -/
structure Lies (cut : Char → Bool) (start : Nat) (text : List Char) (x : Stretch) : Prop where
  clear : ∀ c ∈ x.chars, cut c = false
  around : ∃ before after, text = before ++ (x.chars ++ after) ∧ x.start = start + before.length ∧
    (∀ c ∈ before.getLast?, cut c = true) ∧ ∀ c ∈ after.head?, cut c = true

/-- A run of characters that are no separators, as long as can be. -/
structure MaximalRun (cut : Char → Bool) (text : List Char) (x : Stretch) : Prop extends
    Lies cut 0 text x where
  ne_nil : x.chars ≠ []

variable {cut : Char → Bool}

/-! ## Cutting at the first separator -/

theorem separated_induction (cut : Char → Bool) {motive : List Char → Prop}
    (clear : ∀ cs, (∀ c ∈ cs, cut c = false) → motive cs)
    (separated : ∀ first c rest, (∀ d ∈ first, cut d = false) → cut c = true → motive rest →
      motive (first ++ c :: rest)) (cs : List Char) : motive cs := by
  -- The first part grows until a separator is met.
  have hgrown : ∀ cs first : List Char, (∀ d ∈ first, cut d = false) → motive (first ++ cs) := by
    intro cs
    induction cs with
    | nil =>
      intro first hfirst
      rw [List.append_nil]
      exact clear first hfirst
    | cons c rest ih =>
      intro first hfirst
      cases hc : cut c with
      | true => exact separated first c rest hfirst hc (ih [] nofun)
      | false =>
        rw [List.append_cons]
        refine ih (first ++ [c]) ?_
        rw [List.forall_mem_append, List.forall_mem_singleton]
        exact ⟨hfirst, hc⟩
  exact hgrown cs [] nofun

theorem stretches_of_forall_not {cs : List Char} (h : ∀ c ∈ cs, cut c = false) :
    ∀ start, stretches cut start cs = [⟨start, cs⟩] := by
  induction cs with
  | nil => exact fun _ => rfl
  | cons c rest ih =>
    obtain ⟨hc, hrest⟩ := List.forall_mem_cons.mp h
    intro start
    rw [stretches, hc, if_neg Bool.false_ne_true, ih hrest]
    rfl

theorem stretches_append_cons {first : List Char} {c : Char} {rest : List Char}
    (h : ∀ d ∈ first, cut d = false) (hc : cut c = true) : ∀ start,
      stretches cut start (first ++ c :: rest) =
        ⟨start, first⟩ :: stretches cut (start + first.length + 1) rest := by
  induction first with
  | nil =>
    intro start
    rw [List.nil_append, stretches, if_pos hc]
    rfl
  | cons d more ih =>
    obtain ⟨hd, hmore⟩ := List.forall_mem_cons.mp h
    intro start
    rw [List.cons_append, stretches, hd, if_neg Bool.false_ne_true, ih hmore, List.length_cons,
      Nat.add_right_comm start 1, Nat.add_assoc start]
    rfl

/-- The pieces of a text are those before and those behind a separator. -/
theorem stretches_append {c : Char} (hc : cut c = true) (before after : List Char) : ∀ start,
    stretches cut start (before ++ c :: after) =
      stretches cut start before ++ stretches cut (start + before.length + 1) after := by
  induction before using separated_induction cut with
  | clear before hbefore =>
    intro start
    rw [stretches_append_cons hbefore hc, stretches_of_forall_not hbefore, List.singleton_append]
  | separated first d rest hfirst hd ih =>
    intro start
    rw [List.append_assoc, List.cons_append, stretches_append_cons hfirst hd,
      stretches_append_cons hfirst hd, ih, List.cons_append, List.length_append, List.length_cons]
    congr 3
    omega

theorem map_chars_stretches (cs : List Char) : ∀ start,
    (stretches cut start cs).map Stretch.chars = pieces cut cs := by
  induction cs using separated_induction cut with
  | clear cs h =>
    intro start
    rw [stretches_of_forall_not h, pieces_of_forall_not h]
    rfl
  | separated first c rest hfirst hc ih =>
    intro start
    rw [stretches_append_cons hfirst hc, List.map_cons, ih, pieces_append_cons hc,
      pieces_of_forall_not hfirst, List.singleton_append]

/-! ## The places of the pieces -/

theorem start_le_of_mem_stretches {x : Stretch} {cs : List Char} :
    ∀ {start}, x ∈ stretches cut start cs → start ≤ x.start := by
  induction cs using separated_induction cut with
  | clear cs h =>
    intro start hx
    rw [stretches_of_forall_not h, List.mem_singleton] at hx
    exact hx ▸ Nat.le_refl _
  | separated first c rest hfirst hc ih =>
    intro start hx
    rw [stretches_append_cons hfirst hc, List.mem_cons] at hx
    rcases hx with rfl | hx
    · exact Nat.le_refl _
    · have := ih hx
      omega

/-- The pieces follow each other. -/
theorem pairwise_stretches (cs : List Char) : ∀ start,
    (stretches cut start cs).Pairwise Stretch.Before := by
  induction cs using separated_induction cut with
  | clear cs h =>
    intro start
    rw [stretches_of_forall_not h]
    exact List.pairwise_singleton _ _
  | separated first c rest hfirst hc ih =>
    intro start
    rw [stretches_append_cons hfirst hc]
    refine List.pairwise_cons.mpr ⟨fun x hx => ?_, ih _⟩
    exact Nat.lt_of_succ_le (start_le_of_mem_stretches hx)

theorem lies_of_mem_stretches {x : Stretch} {cs : List Char} :
    ∀ {start}, x ∈ stretches cut start cs → Lies cut start cs x := by
  induction cs using separated_induction cut with
  | clear cs h =>
    intro start hx
    rw [stretches_of_forall_not h, List.mem_singleton] at hx
    subst hx
    exact ⟨h, [], [], by rw [List.append_nil, List.nil_append], rfl, nofun, nofun⟩
  | separated first c rest hfirst hc ih =>
    intro start hx
    rw [stretches_append_cons hfirst hc, List.mem_cons] at hx
    rcases hx with rfl | hx
    · exact ⟨hfirst, [], c :: rest, rfl, rfl, nofun, fun d hd => Option.some.inj hd ▸ hc⟩
    · obtain ⟨hclear, before, after, hrest, hstart, hbefore, hafter⟩ := ih hx
      refine ⟨hclear, first ++ c :: before, after, ?_, ?_, fun d hd => ?_, hafter⟩
      · rw [hrest, List.append_assoc, List.cons_append]
      · rw [hstart, List.length_append, List.length_cons]
        omega
      · rw [List.getLast?_append, List.getLast?_cons, Option.some_or, Option.mem_some_iff] at hd
        cases hlast : before.getLast? with
        | none =>
          rw [hlast] at hd
          exact hd ▸ hc
        | some e =>
          rw [hlast] at hd
          exact hd ▸ hbefore e hlast

/-- What goes on from an end of the text or from a separator to the next is a piece. -/
theorem mem_stretches_of_lies {x : Stretch} {start : Nat} {cs : List Char}
    (h : Lies cut start cs x) : x ∈ stretches cut start cs := by
  obtain ⟨place, chars⟩ := x
  obtain ⟨hclear, before, after, rfl, hplace, hbefore, hafter⟩ := h
  have hfirst : ⟨place, chars⟩ ∈ stretches cut place (chars ++ after) := by
    cases after with
    | nil =>
      rw [List.append_nil, stretches_of_forall_not hclear]
      exact List.mem_cons_self
    | cons c rest =>
      rw [stretches_append_cons hclear (hafter c rfl)]
      exact List.mem_cons_self
  rcases List.eq_nil_or_concat before with rfl | ⟨front, c, rfl⟩
  · obtain rfl : place = start := hplace
    exact hfirst
  · rw [List.concat_eq_append] at hbefore hplace ⊢
    have hc : cut c = true := hbefore c List.getLast?_concat
    have hbehind : place = start + front.length + 1 := by
      rw [List.length_append, List.length_singleton] at hplace
      exact hplace
    rw [List.append_assoc, List.singleton_append, stretches_append hc, ← hbehind]
    exact List.mem_append_right _ hfirst

/-- The pieces of a text are what lies between its separators. -/
theorem mem_stretches_iff {x : Stretch} {start : Nat} {cs : List Char} :
    x ∈ stretches cut start cs ↔ Lies cut start cs x :=
  ⟨lies_of_mem_stretches, mem_stretches_of_lies⟩

theorem stop_le_of_lies {x : Stretch} {start : Nat} {cs : List Char} (h : Lies cut start cs x) :
    x.stop ≤ start + cs.length := by
  obtain ⟨-, before, after, rfl, hstart, -, -⟩ := h
  rw [Stretch.stop, hstart, List.length_append, List.length_append]
  omega

/-- Cutting every piece at more separators is cutting the text at all of them. -/
theorem stretches_flatMap {finer : Char → Bool} (h : ∀ c, cut c = true → finer c = true)
    (cs : List Char) : ∀ start, stretches finer start cs =
      (stretches cut start cs).flatMap fun x => stretches finer x.start x.chars := by
  induction cs using separated_induction cut with
  | clear cs hclear =>
    intro start
    rw [stretches_of_forall_not hclear, List.flatMap_singleton]
  | separated first c rest hfirst hc ih =>
    intro start
    rw [stretches_append_cons hfirst hc, stretches_append (h c hc), List.flatMap_cons, ih]

end Text
end AnimatedGlyph
