/-
The lines of a text and their tokens.

A text is cut into lines, blank lines are left out, and each line is cut into tokens.
`sourceLines` does this and keeps the places of both in the text, and `accounts_sourceLines`
says that nothing is lost and nothing invented: these are all the lines with a character
that is not blank and all the maximal runs of characters that are no separators, each once
and in order, with a newline between two tokens if and only if their lines are different.

Lines are cut before tokens.  `Text.stretches_flatMap` says that the tokens can as well be
cut from the whole text, since a newline is a separator.
-/
import AnimatedGlyph.Proofs.Stretches
import AnimatedGlyph.Proofs.Wording

namespace AnimatedGlyph

open Text (MaximalRun Stretch isBlank isNewline isSeparator stretches)

/-! ## Lines and tokens in the text -/

/-- A line of a text that is not blank, with its tokens. -/
structure SourceLine where
  place : Stretch
  tokens : List Stretch

def lineTokens (line : Stretch) : List Stretch :=
  (stretches isSeparator line.start line.chars).filter fun x => !x.chars.isEmpty

def sourceLines (text : List Char) : List SourceLine :=
  ((stretches isNewline 0 text).filter fun line => !line.chars.all isBlank).map
    fun line => ⟨line, lineTokens line⟩

/-- A newline stands between two stretches, whichever of them comes first. -/
def NewlineBetween (text : List Char) (x y : Stretch) : Prop :=
  ∃ k, text[k]? = some '\n' ∧ (x.stop ≤ k ∧ k < y.start ∨ y.stop ≤ k ∧ k < x.start)

/-- The lines are those of the text that are not blank and their tokens are the tokens of the
text, both in order, and a newline stands between two tokens if and only if they belong to
different lines. -/
structure Accounts (text : List Char) (lines : List SourceLine) : Prop where
  line_iff : ∀ x, x ∈ lines.map SourceLine.place ↔
    MaximalRun isNewline text x ∧ ∃ c ∈ x.chars, isBlank c = false
  lines_in_order : (lines.map SourceLine.place).Pairwise Stretch.Before
  token_iff : ∀ x, x ∈ lines.flatMap SourceLine.tokens ↔ MaximalRun isSeparator text x
  tokens_in_order : (lines.flatMap SourceLine.tokens).Pairwise Stretch.Before
  token_in_line : ∀ line ∈ lines, ∀ x ∈ line.tokens,
    line.place.start ≤ x.start ∧ x.stop ≤ line.place.stop
  same_line_iff : ∀ line ∈ lines, ∀ other ∈ lines, ∀ x ∈ line.tokens, ∀ y ∈ other.tokens,
    line = other ↔ ¬NewlineBetween text x y

theorem mem_map_place {text : List Char} {x : Stretch} :
    x ∈ (sourceLines text).map SourceLine.place ↔
      MaximalRun isNewline text x ∧ ∃ c ∈ x.chars, isBlank c = false := by
  have hplaces : (sourceLines text).map SourceLine.place =
      (stretches isNewline 0 text).filter fun line => !line.chars.all isBlank := by
    rw [sourceLines, List.map_map]
    exact List.map_id _
  rw [hplaces, List.mem_filter, Text.mem_stretches_iff, Bool.not_eq_true', List.all_eq_false]
  simp only [Bool.not_eq_true]
  constructor
  · rintro ⟨hlies, c, hc, hblank⟩
    exact ⟨⟨hlies, List.ne_nil_of_mem hc⟩, c, hc, hblank⟩
  · rintro ⟨hrun, hsome⟩
    exact ⟨hrun.toLies, hsome⟩

theorem mem_sourceLines {text : List Char} {line : SourceLine} (h : line ∈ sourceLines text) :
    line.tokens = lineTokens line.place ∧ MaximalRun isNewline text line.place := by
  refine ⟨?_, (mem_map_place.mp (List.mem_map_of_mem h)).1⟩
  obtain ⟨place, -, rfl⟩ := List.mem_map.mp h
  rfl

theorem map_chars_lineTokens (line : Stretch) :
    (lineTokens line).map Stretch.chars = Text.runs isSeparator line.chars := by
  rw [lineTokens, Text.runs, ← Text.map_chars_stretches line.chars line.start, List.filter_map]
  rfl

/-- A blank line has no tokens. -/
theorem lineTokens_of_blank {line : Stretch} (h : line.chars.all isBlank = true) :
    lineTokens line = [] := by
  have hruns := map_chars_lineTokens line
  rw [Text.runs_of_forall fun c hc =>
    Text.isSeparator_of_isBlank (List.all_eq_true.mp h c hc)] at hruns
  exact List.map_eq_nil_iff.mp hruns

/-- The tokens of the lines are those of the whole text. -/
theorem flatMap_tokens (text : List Char) :
    (sourceLines text).flatMap SourceLine.tokens =
      (stretches isSeparator 0 text).filter fun x => !x.chars.isEmpty := by
  have hcut : ∀ c, isNewline c = true → isSeparator c = true :=
    fun c hc => Text.isSeparator_of_isBlank (Text.isBlank_of_isNewline hc)
  have hkept : ∀ lines : List Stretch,
      (lines.filter fun line => !line.chars.all isBlank).flatMap lineTokens =
        lines.flatMap lineTokens := by
    intro lines
    induction lines with
    | nil => rfl
    | cons line rest ih =>
      cases hblank : line.chars.all isBlank with
      | true =>
        rw [List.filter_cons_of_neg (by rw [hblank]; decide), ih, List.flatMap_cons,
          lineTokens_of_blank hblank, List.nil_append]
      | false =>
        rw [List.filter_cons_of_pos (by rw [hblank]; rfl), List.flatMap_cons, ih,
          List.flatMap_cons]
  rw [sourceLines, List.flatMap_map, hkept, Text.stretches_flatMap hcut, List.filter_flatMap]
  rfl

/-- The tokens together are the text without its separators. -/
theorem flatMap_chars_tokens (text : List Char) :
    ((sourceLines text).flatMap SourceLine.tokens).flatMap Stretch.chars =
      text.filter fun c => !isSeparator c := by
  have hchars : ((stretches isSeparator 0 text).filter fun x => !x.chars.isEmpty).map
      Stretch.chars = (Text.pieces isSeparator text).filter fun piece => !piece.isEmpty := by
    rw [← Text.map_chars_stretches text 0, List.filter_map]
    rfl
  rw [flatMap_tokens, List.flatMap_def, hchars, List.flatten_filter_not_isEmpty,
    Text.flatten_pieces]

theorem mem_flatMap_tokens {text : List Char} {x : Stretch} :
    x ∈ (sourceLines text).flatMap SourceLine.tokens ↔ MaximalRun isSeparator text x := by
  rw [flatMap_tokens, List.mem_filter, Text.mem_stretches_iff, Bool.not_eq_true',
    List.isEmpty_eq_false_iff]
  exact ⟨fun h => ⟨h.1, h.2⟩, fun h => ⟨h.toLies, h.ne_nil⟩⟩

theorem token_in_line {text : List Char} {line : SourceLine} (hline : line ∈ sourceLines text)
    {x : Stretch} (hx : x ∈ line.tokens) :
    line.place.start ≤ x.start ∧ x.stop ≤ line.place.stop := by
  rw [(mem_sourceLines hline).1, lineTokens] at hx
  have hmem := (List.mem_filter.mp hx).1
  exact ⟨Text.start_le_of_mem_stretches hmem,
    Text.stop_le_of_lies (Text.mem_stretches_iff.mp hmem)⟩

/-! ## Newlines between lines -/

/-- The characters of a run are those of the text. -/
theorem Text.MaximalRun.clear_at {cut : Char → Bool} {text : List Char} {x : Stretch}
    (h : MaximalRun cut text x) {k : Nat} {c : Char} (hc : text[k]? = some c)
    (hstart : x.start ≤ k) (hstop : k < x.stop) : cut c = false := by
  obtain ⟨before, after, rfl, hbefore, -, -⟩ := h.around
  rw [Nat.zero_add] at hbefore
  rw [Stretch.stop] at hstop
  rw [List.getElem?_append_right (by omega), List.getElem?_append_left (by omega)] at hc
  exact h.clear c (List.mem_of_getElem? hc)

/-- A separator stands right behind a run that does not reach the end of the text. -/
theorem Text.MaximalRun.cut_at_stop {cut : Char → Bool} {text : List Char} {x : Stretch}
    (h : MaximalRun cut text x) (hstop : x.stop < text.length) :
    ∃ c, text[x.stop]? = some c ∧ cut c = true := by
  obtain ⟨before, after, rfl, hbefore, -, hafter⟩ := h.around
  rw [Nat.zero_add] at hbefore
  rw [Stretch.stop, List.length_append, List.length_append] at hstop
  cases after with
  | nil =>
    rw [List.length_nil] at hstop
    omega
  | cons c rest =>
    refine ⟨c, ?_, hafter c rfl⟩
    rw [Stretch.stop, List.getElem?_append_right (by omega),
      List.getElem?_append_right (by omega), hbefore]
    have hfirst : before.length + x.chars.length - before.length - x.chars.length = 0 := by omega
    rw [hfirst, List.getElem?_cons_zero]

theorem not_newlineBetween {text : List Char} {line : SourceLine} (hline : line ∈ sourceLines text)
    {x y : Stretch} (hx : x ∈ line.tokens) (hy : y ∈ line.tokens) : ¬NewlineBetween text x y := by
  have hrun := (mem_sourceLines hline).2
  have hxline := token_in_line hline hx
  have hyline := token_in_line hline hy
  have hxstop := x.start_le_stop
  have hystop := y.start_le_stop
  rintro ⟨k, hk, hbetween⟩
  have hnewline := hrun.clear_at hk (by omega) (by omega)
  cases hnewline

theorem newlineBetween_of_before {text : List Char} {line other : SourceLine}
    (hline : line ∈ sourceLines text) (hother : other ∈ sourceLines text)
    (h : line.place.Before other.place) {x y : Stretch} (hx : x ∈ line.tokens)
    (hy : y ∈ other.tokens) : ∃ k, text[k]? = some '\n' ∧ x.stop ≤ k ∧ k < y.start := by
  have hotherRun := (mem_sourceLines hother).2
  have hotherStop := Text.stop_le_of_lies hotherRun.toLies
  have hotherStart := other.place.start_le_stop
  rw [Stretch.Before] at h
  obtain ⟨c, hc, hcut⟩ := (mem_sourceLines hline).2.cut_at_stop (by omega)
  have hxline := token_in_line hline hx
  have hyline := token_in_line hother hy
  refine ⟨line.place.stop, ?_, hxline.2, by omega⟩
  rw [hc, eq_of_beq hcut]

theorem sourceLines_in_order (text : List Char) :
    (sourceLines text).Pairwise fun line other => line.place.Before other.place := by
  rw [sourceLines, List.pairwise_map]
  exact (Text.pairwise_stretches text 0).filter _

theorem same_line_iff {text : List Char} {line other : SourceLine}
    (hline : line ∈ sourceLines text) (hother : other ∈ sourceLines text) {x y : Stretch}
    (hx : x ∈ line.tokens) (hy : y ∈ other.tokens) :
    line = other ↔ ¬NewlineBetween text x y := by
  constructor
  · rintro rfl
    exact not_newlineBetween hline hx hy
  · intro hnone
    obtain ⟨i, hi, rfl⟩ := List.getElem_of_mem hline
    obtain ⟨j, hj, rfl⟩ := List.getElem_of_mem hother
    have horder := List.pairwise_iff_getElem.mp (sourceLines_in_order text)
    rcases Nat.lt_trichotomy i j with hlt | rfl | hgt
    · obtain ⟨k, hk, hplace⟩ := newlineBetween_of_before hline hother (horder i j hi hj hlt) hx hy
      exact absurd ⟨k, hk, .inl hplace⟩ hnone
    · rfl
    · obtain ⟨k, hk, hplace⟩ := newlineBetween_of_before hother hline (horder j i hj hi hgt) hy hx
      exact absurd ⟨k, hk, .inr hplace⟩ hnone

theorem accounts_sourceLines (text : List Char) : Accounts text (sourceLines text) where
  line_iff _ := mem_map_place
  lines_in_order := List.pairwise_map.mpr (sourceLines_in_order text)
  token_iff _ := mem_flatMap_tokens
  tokens_in_order := by
    rw [flatMap_tokens]
    exact (Text.pairwise_stretches text 0).filter _
  token_in_line _ hline _ hx := token_in_line hline hx
  same_line_iff _ hline _ hother _ hx _ hy := same_line_iff hline hother hx hy

end AnimatedGlyph
