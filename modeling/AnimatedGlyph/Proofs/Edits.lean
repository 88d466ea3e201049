/-
Edits that do not show.

Much of a text can be changed without any effect on what is drawn for it.  `TextEdit` lists
such changes: to the case of letters, to characters outside ASCII in a token that has others,
to what stands between tokens, to tokens that stand for no glyph, and to blank lines.
`compile_edited` says that two texts are compiled alike if they are connected by any number of
these, in any order and in either direction.

Every edit of a line keeps its wording, which is `LineEdit.wording_eq`, and the wording of a
text is that of its lines one after the other, which is `wordings_intercalate`.  Three of the
edits ask for more than they seem to need.  A character outside ASCII may be the only one of
its line that is not blank, and without it there would be one line less; so the token that it
is put into has an ASCII character.  For the same reason separators are changed in a line with
a token only, and a line without the token that is taken out of it is still not blank.
-/
import Mathlib.Logic.Relation
import AnimatedGlyph.Proofs.Wording

namespace AnimatedGlyph

open Text (Apart folded isBlank isNewline isSeparator lowerAscii)

/-! ## Edits -/

/-- A change to a line that does not show. -/
inductive LineEdit (table : GlyphTable) : List Char → List Char → Prop
  /-- A letter is written small, or as a capital. -/
  | letterCase {c d : Char} (before after : List Char) (hcase : lowerAscii c = lowerAscii d) :
      LineEdit table (before ++ c :: after) (before ++ d :: after)
  /-- A character outside ASCII is put into a token that has an ASCII character. -/
  | foreign {c : Char} {head tail : List Char} (before after : List Char)
      (hforeign : 128 ≤ c.toNat) (hblank : isBlank c = false)
      (htoken : ∀ d ∈ head ++ tail, isSeparator d = false)
      (hascii : ∃ d ∈ head ++ tail, d.toNat < 128) :
      LineEdit table (before ++ (head ++ tail) ++ after) (before ++ (head ++ c :: tail) ++ after)
  /-- The separators at one place of a line with a token give way to others. -/
  | separators {first second : List Char} (before after : List Char)
      (hfirst : first ≠ [] ∧ ∀ c ∈ first, isSeparator c = true)
      (hsecond : second ≠ [] ∧ ∀ c ∈ second, isSeparator c = true)
      (htoken : ∃ c ∈ before ++ after, isSeparator c = false) :
      LineEdit table (before ++ first ++ after) (before ++ second ++ after)
  /-- A token that stands for no glyph is put into a line that is not blank, with separators
  around it in place of those that stood there. -/
  | unusable {token gap front back : List Char} (before after : List Char)
      (htoken : token ≠ [] ∧ ∀ c ∈ token, isSeparator c = false)
      (hunusable : table.glyphOf? (String.ofList token) = none)
      (hgap : ∀ c ∈ gap, isSeparator c = true) (hfront : ∀ c ∈ front, isSeparator c = true)
      (hback : ∀ c ∈ back, isSeparator c = true)
      (hafter : Apart isSeparator (before ++ gap) after)
      (hfirst : Apart isSeparator (before ++ front) token)
      (hsecond : Apart isSeparator token (back ++ after))
      (hline : (before ++ gap ++ after).all isBlank = false) :
      LineEdit table (before ++ gap ++ after) (before ++ front ++ (token ++ (back ++ after)))

/-- A change to a text that does not show. -/
inductive TextEdit (table : GlyphTable) : List Char → List Char → Prop
  /-- One of its lines is edited. -/
  | line {line edited : List Char} (above below : List (List Char))
      (hedit : LineEdit table line edited) (hline : ∀ c ∈ line, isNewline c = false)
      (hedited : ∀ c ∈ edited, isNewline c = false) :
      TextEdit table (['\n'].intercalate (above ++ line :: below))
        (['\n'].intercalate (above ++ edited :: below))
  /-- A blank line is put in. -/
  | blankLine {blank : List Char} (above below : List (List Char))
      (hblank : ∀ c ∈ blank, isBlank c = true) :
      TextEdit table (['\n'].intercalate (above ++ below))
        (['\n'].intercalate (above ++ blank :: below))

/-! ## Edited lines -/

namespace Text

theorem isBlank_lowerAscii (c : Char) : isBlank (lowerAscii c) = isBlank c :=
  apply_lowerAscii (by decide) c

theorem folded_append (first second : List Char) :
    folded (first ++ second) = folded first ++ folded second := by
  rw [folded, List.filter_append, List.map_append]
  rfl

theorem folded_cons_of_lowerAscii {c d : Char} (h : lowerAscii c = lowerAscii d)
    (rest : List Char) : folded (c :: rest) = folded (d :: rest) := by
  have hkept : (c.toNat < 128 || isSeparator c) = (d.toNat < 128 || isSeparator d) := by
    rw [← isAscii_lowerAscii c, ← isSeparator_lowerAscii c, h, isAscii_lowerAscii,
      isSeparator_lowerAscii]
  rw [folded, folded, List.filter_cons, List.filter_cons, hkept]
  split
  · rw [List.map_cons, List.map_cons, h]
  · rfl

theorem isSeparator_of_foreign {c : Char} (hforeign : 128 ≤ c.toNat) (hblank : isBlank c = false) :
    isSeparator c = false := by
  have hcomma : c ≠ ',' := by
    rintro rfl
    exact absurd hforeign (by decide)
  have hbackspace : c ≠ '\x08' := by
    rintro rfl
    exact absurd hforeign (by decide)
  simp [isSeparator, hblank, hcomma, hbackspace]

theorem folded_cons_of_foreign {c : Char} (hforeign : 128 ≤ c.toNat) (hblank : isBlank c = false)
    (rest : List Char) : folded (c :: rest) = folded rest := by
  have hascii : ¬c.toNat < 128 := by omega
  have hkept : ¬(c.toNat < 128 || isSeparator c) = true := by
    rw [isSeparator_of_foreign hforeign hblank, Bool.or_false]
    simpa using hascii
  rw [folded, List.filter_cons, if_neg hkept]
  rfl

end Text

namespace LineEdit

variable {table : GlyphTable}

/-- An edited line has the same wording as before. -/
theorem wording_eq {line edited : List Char} (h : LineEdit table line edited) :
    table.wording line = table.wording edited := by
  cases h with
  | @letterCase c d before after hcase =>
    have hblank : isBlank c = isBlank d := by
      rw [← Text.isBlank_lowerAscii c, hcase, Text.isBlank_lowerAscii]
    refine table.wording_of_folded ?_ ?_
    · rw [List.all_append, List.all_append, List.all_cons, List.all_cons, hblank]
    · rw [Text.folded_append, Text.folded_append, Text.folded_cons_of_lowerAscii hcase]
  | @foreign c head tail before after hforeign hblank htoken hascii =>
    obtain ⟨d, hd, -⟩ := hascii
    have hline : (before ++ (head ++ tail) ++ after).all isBlank = false :=
      Text.all_isBlank_of_token
        ⟨d, List.mem_append_left _ (List.mem_append_right _ hd), htoken d hd⟩
    have hedited : (before ++ (head ++ c :: tail) ++ after).all isBlank = false :=
      Text.all_isBlank_of_token ⟨c, by simp, Text.isSeparator_of_foreign hforeign hblank⟩
    refine table.wording_of_folded (hline.trans hedited.symm) ?_
    simp only [Text.folded_append, Text.folded_cons_of_foreign hforeign hblank]
  | @separators first second before after hfirst hsecond htoken =>
    obtain ⟨c, hc, hseparator⟩ := htoken
    have hline : ∀ between, (before ++ between ++ after).all isBlank = false := by
      intro between
      refine Text.all_isBlank_of_token ⟨c, ?_, hseparator⟩
      rw [List.append_assoc, List.mem_append, List.mem_append]
      exact (List.mem_append.mp hc).imp_right .inr
    refine table.wording_congr ((hline first).trans (hline second).symm) ?_
    rw [table.glyphsOf_around_separators hfirst, table.glyphsOf_around_separators hsecond]
  | @unusable token gap front back before after htoken hunusable hgap hfront hback hafter hfirst
      hsecond hline =>
    obtain ⟨hne, htoken⟩ := htoken
    obtain ⟨c, hc⟩ := List.exists_mem_of_ne_nil token hne
    have hedited : (before ++ front ++ (token ++ (back ++ after))).all isBlank = false :=
      Text.all_isBlank_of_token
        ⟨c, List.mem_append_right _ (List.mem_append_left _ hc), htoken c hc⟩
    refine table.wording_congr (hline.trans hedited.symm) ?_
    rw [table.glyphsOf_append hafter, table.glyphsOf_append_separators hgap,
      table.glyphsOf_between hne htoken hfirst hsecond, table.glyphsOf_append_separators hfront,
      table.glyphsOf_separators_append hback, hunusable]
    rfl

end LineEdit

/-! ## Edited texts -/

namespace GlyphTable

theorem wordings_append_newline (table : GlyphTable) (before after : List Char) :
    table.wordings (before ++ '\n' :: after) = table.wordings before ++ table.wordings after := by
  rw [wordings, Text.pieces_append_cons rfl, List.filterMap_append]
  rfl

/-- What lines put together say is what each of them says. -/
theorem wordings_intercalate (table : GlyphTable) (lines : List (List Char)) :
    table.wordings (['\n'].intercalate lines) = lines.flatMap table.wordings := by
  induction lines with
  | nil => rfl
  | cons line rest ih =>
    cases rest with
    | nil => rw [List.intercalate_singleton, List.flatMap_singleton]
    | cons next more =>
      rw [List.intercalate_cons_cons, List.append_assoc, List.singleton_append,
        wordings_append_newline, ih]
      rfl

theorem wordings_of_line (table : GlyphTable) {line : List Char}
    (h : ∀ c ∈ line, isNewline c = false) :
    table.wordings line = [line].filterMap table.wording := by
  rw [wordings, Text.pieces_of_forall_not h]

theorem wordings_of_blank (table : GlyphTable) {blank : List Char}
    (h : ∀ c ∈ blank, isBlank c = true) : table.wordings blank = [] := by
  rw [wordings, List.filterMap_eq_nil_iff]
  intro line hline
  have hblank : line.all isBlank = true := by
    rw [List.all_eq_true]
    intro c hc
    have hmem : c ∈ (Text.pieces isNewline blank).flatten := List.mem_flatten.mpr ⟨line, hline, hc⟩
    rw [Text.flatten_pieces] at hmem
    exact h c (List.mem_filter.mp hmem).1
  rw [wording, if_pos hblank]

end GlyphTable

theorem TextEdit.wordings_eq {table : GlyphTable} {text edited : List Char}
    (h : TextEdit table text edited) : table.wordings text = table.wordings edited := by
  cases h with
  | @line line edited above below hedit hline hedited =>
    have hwording : table.wordings line = table.wordings edited := by
      rw [table.wordings_of_line hline, table.wordings_of_line hedited, List.filterMap_cons,
        List.filterMap_cons, hedit.wording_eq]
    simp only [GlyphTable.wordings_intercalate, List.flatMap_append, List.flatMap_cons, hwording]
  | @blankLine blank above below hblank =>
    simp only [GlyphTable.wordings_intercalate, List.flatMap_append, List.flatMap_cons,
      table.wordings_of_blank hblank, List.nil_append]

namespace GlyphCompiler

/-- Edits that do not show, however many there are, change neither the document of a text nor
what is left of the source. -/
theorem compile_edited {compiler : GlyphCompiler} {text edited : String}
    (h : Relation.EqvGen (TextEdit compiler.table) text.toList edited.toList)
    (options : CompileOptions) (source : RandomSource) :
    compiler.compile options text source = compiler.compile options edited source := by
  have hwordings : ∀ {first second}, Relation.EqvGen (TextEdit compiler.table) first second →
      compiler.table.wordings first = compiler.table.wordings second := by
    intro first second h
    induction h with
    | rel _ _ hedit => exact hedit.wordings_eq
    | refl _ => rfl
    | symm _ _ _ ih => exact ih.symm
    | trans _ _ _ _ _ ih more => exact ih.trans more
  exact compiler.compile_congr options (hwordings h) source

/-- A token that is no code is taken out, a capital is written small, an accented letter is put
into a code, a comma gives way to two blanks, and a blank line comes last. -/
theorem compile_edited_five_times :
    let compiler : GlyphCompiler := ⟨.empty, .standard⟩
    let typed : List Char := ['0', 'A', ' ', 'z', 'z', ',', '1', '2']
    let edited : List Char := ['0', 'é', 'a', '\t', ' ', '1', '2', '\n', ' ']
    Relation.EqvGen (TextEdit compiler.table) typed edited ∧
      compiler.compile .standard (String.ofList typed) (.ofSeed 1) =
        compiler.compile .standard (String.ofList edited) (.ofSeed 1) := by
  intro compiler typed edited
  have hall : ∀ {p : Char → Bool} {b : Bool} {cs : List Char},
      (cs.all fun c => p c == b) = true → ∀ c ∈ cs, p c = b :=
    fun h c hc => eq_of_beq (List.all_eq_true.mp h c hc)
  have hunusable : LineEdit compiler.table (['0', 'A'] ++ [','] ++ ['1', '2'])
      (['0', 'A'] ++ [' '] ++ (['z', 'z'] ++ ([','] ++ ['1', '2']))) :=
    .unusable _ _ ⟨by decide, hall (by decide)⟩ (by decide) (hall (by decide)) (hall (by decide))
      (hall (by decide)) (.inl (by rintro c ⟨⟩; rfl)) (.inl (by rintro c ⟨⟩; rfl))
      (.inr (by rintro c ⟨⟩; rfl)) (by decide)
  have hcase : LineEdit compiler.table (['0'] ++ 'A' :: [',', '1', '2'])
      (['0'] ++ 'a' :: [',', '1', '2']) :=
    .letterCase _ _ (by decide)
  have hforeign : LineEdit compiler.table ([] ++ (['0'] ++ ['a']) ++ [',', '1', '2'])
      ([] ++ (['0'] ++ 'é' :: ['a']) ++ [',', '1', '2']) :=
    .foreign _ _ (by decide) (by decide) (hall (by decide)) ⟨'0', by decide, by decide⟩
  have hseparators : LineEdit compiler.table (['0', 'é', 'a'] ++ [','] ++ ['1', '2'])
      (['0', 'é', 'a'] ++ ['\t', ' '] ++ ['1', '2']) :=
    .separators _ _ ⟨by decide, hall (by decide)⟩ ⟨by decide, hall (by decide)⟩
      ⟨'0', by decide, by decide⟩
  have hblank : ∀ line, TextEdit compiler.table (['\n'].intercalate ([line] ++ []))
      (['\n'].intercalate ([line] ++ [' '] :: [])) :=
    fun line => .blankLine _ _ (hall (by decide))
  have hedits : Relation.EqvGen (TextEdit compiler.table) typed edited :=
    .trans _ _ _
      (.symm _ _ (.rel _ _ (.line [] [] hunusable (hall (by decide)) (hall (by decide)))))
      (.trans _ _ _ (.rel _ _ (.line [] [] hcase (hall (by decide)) (hall (by decide))))
        (.trans _ _ _ (.rel _ _ (.line [] [] hforeign (hall (by decide)) (hall (by decide))))
          (.trans _ _ _ (.rel _ _ (.line [] [] hseparators (hall (by decide)) (hall (by decide))))
            (.rel _ _ (hblank _)))))
  refine ⟨hedits, compile_edited ?_ .standard (.ofSeed 1)⟩
  rw [String.toList_ofList, String.toList_ofList]
  exact hedits

end GlyphCompiler
end AnimatedGlyph
