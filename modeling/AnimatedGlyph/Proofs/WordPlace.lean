/-
The words of a text and their places.

A word of a text is a token that stands for a glyph.  How it is shown depends on the
glyph and on four numbers: the place of its line among the lines, the number of lines
with a glyph before its line, its place among the words of its line, and the number of
these.  `wordPlaces` reads all of them off a text without a report, a cursor or a
counter, and the statement that ties it to reports is `linePlaces_usableLines`: going
through the usable lines of a report and counting them gives the same words.  Lines that
are added above others move the words of these down and nothing else, which is
`wordPlaces_append`.
-/
import AnimatedGlyph.Sticker.Compile

namespace AnimatedGlyph

/-! ## The glyphs of a text -/

namespace Finding

def glyph? : Finding → Option ResolvedGlyph
  | .ok glyph => some glyph
  | .error _ => none

def violation? : Finding → Option Violation
  | .ok _ => none
  | .error violation => some violation

end Finding

namespace GlyphTable

/-- The glyph that a token stands for, if it stands for one. -/
def glyphOf? (table : GlyphTable) (token : String) : Option ResolvedGlyph :=
  Finding.glyph? (resolveToken table token)

/-- The glyphs of a text, line by line.  A line without a glyph keeps its place. -/
def glyphLines (table : GlyphTable) (text : String) : List (List ResolvedGlyph) :=
  (Text.lines text).map fun line => (Text.tokens line).filterMap table.glyphOf?

theorem length_glyphLines (table : GlyphTable) (text : String) :
    (table.glyphLines text).length = (Text.lines text).length := by
  simp [glyphLines]

theorem all_isEmpty_glyphLines (table : GlyphTable) (text : String) :
    (table.glyphLines text).all List.isEmpty = true ↔
      ∀ line ∈ Text.lines text, ∀ token ∈ Text.tokens line, table.glyphOf? token = none := by
  simp [glyphLines, List.filterMap_eq_nil_iff]

end GlyphTable

/-- The parts of the report on a line, which puts the findings in front one by one. -/
theorem reportLine_eq (table : GlyphTable) (index : Nat) (line : String) :
    reportLine table index line =
      ⟨index, (Text.tokens line).filterMap table.glyphOf?,
        (Text.tokens line).filterMap fun token =>
          Finding.violation? (resolveToken table token)⟩ := by
  rw [reportLine]
  induction Text.tokens line with
  | nil => rfl
  | cons token rest ih =>
    rw [List.foldr_cons, ih, List.filterMap_cons, List.filterMap_cons, GlyphTable.glyphOf?]
    cases resolveToken table token <;> rfl

theorem index_reportLine (table : GlyphTable) (index : Nat) (line : String) :
    (reportLine table index line).index = index := by
  rw [reportLine_eq]

theorem glyphs_reportLine (table : GlyphTable) (index : Nat) (line : String) :
    (reportLine table index line).glyphs = (Text.tokens line).filterMap table.glyphOf? := by
  rw [reportLine_eq]

theorem violations_reportLine (table : GlyphTable) (index : Nat) (line : String) :
    (reportLine table index line).violations =
      (Text.tokens line).filterMap fun token =>
        Finding.violation? (resolveToken table token) := by
  rw [reportLine_eq]

theorem isUsable_reportLine (table : GlyphTable) (index : Nat) (line : String) :
    (reportLine table index line).isUsable =
      !((Text.tokens line).filterMap table.glyphOf?).isEmpty := by
  rw [LineReport.isUsable, glyphs_reportLine]

theorem length_lines_report (table : GlyphTable) (text : String) :
    (report table text).lines.length = (table.glyphLines text).length := by
  simp [report, GlyphTable.length_glyphLines]

theorem isValid_report (table : GlyphTable) (text : String) :
    (report table text).isValid = !(table.glyphLines text).all List.isEmpty := by
  have any_mapIdx : ∀ (lines : List String) (n : Nat),
      (lines.mapIdx fun k line => reportLine table (n + k) line).any LineReport.isUsable =
        !(lines.map fun line => (Text.tokens line).filterMap table.glyphOf?).all
          List.isEmpty := by
    intro lines
    induction lines with
    | nil => intro n; rfl
    | cons line rest ih =>
      intro n
      have hrest := ih (n + 1)
      simp only [Nat.add_assoc, Nat.add_comm 1] at hrest
      simp only [List.mapIdx_cons, List.any_cons, List.map_cons, List.all_cons, hrest,
        isUsable_reportLine, Bool.not_and]
  simpa [Report.isValid, report, GlyphTable.glyphLines] using any_mapIdx (Text.lines text) 0

theorem violations_report (table : GlyphTable) (text : String) :
    (report table text).violations =
      let violations := (report table text).lines.flatMap LineReport.violations
      if (report table text).isValid then violations
      else violations ++ [⟨Text.trim text, .noUsableGlyph⟩] := rfl

/-! ## Places -/

/-- A word of a text and where it stands. -/
structure WordPlace where
  /-- The glyph of the word. -/
  glyph : ResolvedGlyph
  /-- The number of lines before its line. -/
  line : Nat
  /-- The number of lines with a glyph before its line. -/
  shown : Nat
  /-- The number of words before it in its line. -/
  word : Nat
  /-- The number of words in its line. -/
  words : Nat
  /-- It is one of the words of its line. -/
  word_lt : word < words

def lineWords (line shown : Nat) (glyphs : List ResolvedGlyph) : List WordPlace :=
  glyphs.mapFinIdx fun word glyph h => ⟨glyph, line, shown, word, glyphs.length, h⟩

/-- The number of lines with a glyph among the first lines. -/
def shownBefore (lines : List (List ResolvedGlyph)) (line : Nat) : Nat :=
  (lines.take line).countP fun glyphs => !glyphs.isEmpty

/-- The words of a text in reading order. -/
def wordPlaces (lines : List (List ResolvedGlyph)) : List WordPlace :=
  (lines.mapIdx fun line glyphs => lineWords line (shownBefore lines line) glyphs).flatten

theorem mem_lineWords {line shown : Nat} {glyphs : List ResolvedGlyph} {place : WordPlace} :
    place ∈ lineWords line shown glyphs ↔
      place.line = line ∧ place.shown = shown ∧ place.words = glyphs.length ∧
        glyphs[place.word]? = some place.glyph := by
  rw [lineWords, List.mem_mapFinIdx]
  constructor
  · rintro ⟨word, hword, rfl⟩
    exact ⟨rfl, rfl, rfl, List.getElem?_eq_getElem hword⟩
  · obtain ⟨glyph, line', shown', word, words, hword⟩ := place
    rintro ⟨rfl, rfl, rfl, hglyph⟩
    obtain ⟨h, hglyph⟩ := List.getElem?_eq_some_iff.mp hglyph
    exact ⟨word, h, by simp only [hglyph]⟩

theorem mem_wordPlaces {lines : List (List ResolvedGlyph)} {place : WordPlace} :
    place ∈ wordPlaces lines ↔
      ∃ glyphs, lines[place.line]? = some glyphs ∧
        place.shown = shownBefore lines place.line ∧ place.words = glyphs.length ∧
          glyphs[place.word]? = some place.glyph := by
  simp only [wordPlaces, List.mem_flatten, List.mem_mapIdx]
  constructor
  · rintro ⟨_, ⟨line, hline, rfl⟩, hplace⟩
    obtain ⟨rfl, hshown, hwords, hglyph⟩ := mem_lineWords.mp hplace
    exact ⟨_, List.getElem?_eq_getElem hline, hshown, hwords, hglyph⟩
  · rintro ⟨glyphs, hline, hshown, hwords, hglyph⟩
    obtain ⟨h, rfl⟩ := List.getElem?_eq_some_iff.mp hline
    exact ⟨_, ⟨place.line, h, rfl⟩, mem_lineWords.mpr ⟨rfl, hshown, hwords, hglyph⟩⟩

theorem exists_wordPlace {lines : List (List ResolvedGlyph)} {glyphs : List ResolvedGlyph}
    (hglyphs : glyphs ∈ lines) {word : Nat} (hword : word < glyphs.length) :
    ∃ place ∈ wordPlaces lines, place.word = word ∧ place.words = glyphs.length := by
  obtain ⟨line, hline, rfl⟩ := List.mem_iff_getElem.mp hglyphs
  refine ⟨⟨lines[line][word], line, shownBefore lines line, word, lines[line].length, hword⟩,
    ?_, rfl, rfl⟩
  exact mem_wordPlaces.mpr ⟨lines[line], List.getElem?_eq_getElem hline, rfl, rfl,
    List.getElem?_eq_getElem hword⟩

theorem exists_last_word {lines : List (List ResolvedGlyph)}
    (h : lines.all List.isEmpty = false) :
    ∃ place ∈ wordPlaces lines, place.word + 1 = place.words := by
  obtain ⟨glyphs, hglyphs, hsome⟩ := List.all_eq_false.mp h
  cases glyphs with
  | nil => exact absurd rfl hsome
  | cons glyph rest =>
    have hlast : rest.length < (glyph :: rest).length := by simp
    obtain ⟨place, hplace, hword, hwords⟩ := exists_wordPlace hglyphs hlast
    exact ⟨place, hplace, by rw [hword, hwords, List.length_cons]⟩

theorem forall_wordPlaces {lines : List (List ResolvedGlyph)} {holds : Nat → Nat → Prop} :
    (∀ place ∈ wordPlaces lines, holds place.words place.word) ↔
      ∀ glyphs ∈ lines, ∀ word, word < glyphs.length → holds glyphs.length word := by
  constructor
  · intro h glyphs hglyphs word hword
    obtain ⟨place, hplace, rfl, hwords⟩ := exists_wordPlace hglyphs hword
    rw [← hwords]
    exact h place hplace
  · intro h place hplace
    obtain ⟨glyphs, hline, -, hwords, -⟩ := mem_wordPlaces.mp hplace
    have hword := place.word_lt
    rw [hwords] at hword ⊢
    exact h glyphs (List.mem_of_getElem? hline) place.word hword

theorem lineWords_nil (line shown : Nat) : lineWords line shown [] = [] := rfl

/-! ## Places in a longer text -/

/-- The place of a word with lines above those that it was counted in. -/
def WordPlace.below (lines shown : Nat) (place : WordPlace) : WordPlace :=
  { place with line := lines + place.line, shown := shown + place.shown }

theorem map_below_lineWords (lines shown line before : Nat) (glyphs : List ResolvedGlyph) :
    (lineWords line before glyphs).map (WordPlace.below lines shown) =
      lineWords (lines + line) (shown + before) glyphs := by
  apply List.ext_getElem
  · simp [lineWords]
  · intro i hmap hwords
    simp [lineWords, WordPlace.below]

theorem shownBefore_append_left {above : List (List ResolvedGlyph)} {line : Nat}
    (h : line ≤ above.length) (below : List (List ResolvedGlyph)) :
    shownBefore (above ++ below) line = shownBefore above line := by
  rw [shownBefore, List.take_append_of_le_length h, shownBefore]

theorem shownBefore_append_right (above below : List (List ResolvedGlyph)) (line : Nat) :
    shownBefore (above ++ below) (above.length + line) =
      shownBefore above above.length + shownBefore below line := by
  simp only [shownBefore, List.take_length_add_append, List.countP_append, List.take_length]

/-- The words of further lines come after those of the first lines. -/
theorem wordPlaces_append (above below : List (List ResolvedGlyph)) :
    wordPlaces (above ++ below) =
      wordPlaces above ++
        (wordPlaces below).map (WordPlace.below above.length (shownBefore above above.length)) := by
  rw [wordPlaces, List.mapIdx_append, List.flatten_append, wordPlaces, wordPlaces,
    List.map_flatten]
  congr 2
  · apply List.ext_getElem
    · simp
    · intro i hi habove
      have hline : i < above.length := by simpa using habove
      have hshown := shownBefore_append_left (Nat.le_of_lt hline) below
      simp [hshown]
  · apply List.ext_getElem
    · simp
    · intro i hi hbelow
      have hshown := shownBefore_append_right above below i
      simp [Nat.add_comm i, hshown, map_below_lineWords]

theorem map_glyph_lineWords (line shown : Nat) (glyphs : List ResolvedGlyph) :
    (lineWords line shown glyphs).map WordPlace.glyph = glyphs := by
  apply List.ext_getElem
  · simp [lineWords]
  · intro i hmap hglyphs
    simp [lineWords]

theorem map_glyph_wordPlaces (lines : List (List ResolvedGlyph)) :
    (wordPlaces lines).map WordPlace.glyph = lines.flatten := by
  rw [wordPlaces, List.map_flatten]
  congr 1
  apply List.ext_getElem
  · simp
  · intro i hmap hlines
    simp [map_glyph_lineWords]

/-! ## Places from a report -/

/-- The words of usable lines, of which `shown` come before these. -/
def linePlaces (shown : Nat) : List LineReport → List WordPlace
  | [] => []
  | line :: rest => lineWords line.index shown line.glyphs ++ linePlaces (shown + 1) rest

theorem shownBefore_zero (lines : List (List ResolvedGlyph)) : shownBefore lines 0 = 0 := rfl

theorem shownBefore_cons_succ (glyphs : List ResolvedGlyph) (lines : List (List ResolvedGlyph))
    (line : Nat) :
    shownBefore (glyphs :: lines) (line + 1) =
      (if glyphs.isEmpty then 0 else 1) + shownBefore lines line := by
  cases glyphs <;> simp [shownBefore, Nat.add_comm]

theorem linePlaces_filter (table : GlyphTable) :
    ∀ (lines : List String) (line shown : Nat),
      linePlaces shown
          ((lines.mapIdx fun k text => reportLine table (line + k) text).filter
            LineReport.isUsable) =
        let glyphs := lines.map fun text => (Text.tokens text).filterMap table.glyphOf?
        (glyphs.mapIdx fun k found =>
          lineWords (line + k) (shown + shownBefore glyphs k) found).flatten := by
  -- Over the lines that are left, with `line` lines and `shown` usable ones before them:
  -- a line without a glyph moves the first count on and not the second.
  intro lines
  induction lines with
  | nil => intro line shown; rfl
  | cons text rest ih =>
    intro line shown
    simp only [List.mapIdx_cons, List.map_cons, List.flatten_cons, List.filter_cons,
      isUsable_reportLine, shownBefore_cons_succ]
    cases hfound : (Text.tokens text).filterMap table.glyphOf? with
    | nil =>
      have hrest := ih (line + 1) shown
      simp only [Nat.add_assoc, Nat.add_comm 1] at hrest
      simp only [List.isEmpty_nil, Bool.not_true, Bool.false_eq_true, if_false, if_true, hrest,
        lineWords_nil, List.nil_append, Nat.zero_add]
    | cons glyph more =>
      have hrest := ih (line + 1) (shown + 1)
      simp only [Nat.add_assoc, Nat.add_comm 1 _] at hrest
      simp only [List.isEmpty_cons, Bool.not_false, if_true, Bool.false_eq_true, if_false,
        linePlaces, glyphs_reportLine, hfound, index_reportLine, hrest, Nat.add_comm 1,
        shownBefore_zero, Nat.add_zero]

/-- Counting the usable lines of a report gives the words of the text. -/
theorem linePlaces_usableLines (table : GlyphTable) (text : String) :
    linePlaces 0 (report table text).usableLines = wordPlaces (table.glyphLines text) := by
  have h := linePlaces_filter table (Text.lines text) 0 0
  simp only [Nat.zero_add] at h
  exact h

end AnimatedGlyph
