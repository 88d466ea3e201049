/-
Blanks at the ends of a text.

A text is trimmed in some places and not in others: its key is that of the trimmed
text, and its report is made from the text as it stands.  Both see the same words,
since the lines are trimmed one by one and blank ones do not count.

`lines_trim` is proved one blank at a time.  A blank in front either is a newline,
which puts an empty piece in front, or joins the first piece, where trimming takes it
away again; a blank at the end does the same to the last piece.
-/
import AnimatedGlyph.Proofs.Cutting
import AnimatedGlyph.Proofs.WordPlace

namespace AnimatedGlyph
namespace Text

/-! ## Trimmed pieces -/

theorem trimChars_cons_blank {c : Char} (h : isBlank c = true) (cs : List Char) :
    trimChars (c :: cs) = trimChars cs := by
  rw [trimChars, trimStart, List.dropWhile_cons_of_pos h]
  rfl

theorem trimEnd_concat_blank {c : Char} (h : isBlank c = true) (cs : List Char) :
    trimEnd (cs ++ [c]) = trimEnd cs := by
  rw [trimEnd, List.reverse_append, List.reverse_singleton, List.singleton_append,
    List.dropWhile_cons_of_pos h]
  rfl

theorem trimChars_concat_blank {c : Char} (h : isBlank c = true) (cs : List Char) :
    trimChars (cs ++ [c]) = trimChars cs := by
  rw [trimChars, trimChars, trimStart, trimStart, List.dropWhile_append]
  by_cases hall : (cs.dropWhile isBlank).isEmpty = true
  · rw [if_pos hall, List.dropWhile_cons_of_pos h, List.isEmpty_iff.mp hall]
    rfl
  · rw [if_neg hall, trimEnd_concat_blank h]

/-! ## Lines -/

/-- The characters of the lines of a text. -/
def lineChars (cs : List Char) : List (List Char) :=
  ((pieces isNewline cs).map trimChars).filter fun line => !line.isEmpty

theorem lineChars_cons_blank {c : Char} (h : isBlank c = true) (cs : List Char) :
    lineChars (c :: cs) = lineChars cs := by
  rw [lineChars, pieces]
  by_cases hc : isNewline c = true
  · rw [if_pos hc]
    rfl
  · rw [if_neg hc, lineChars]
    cases hpieces : pieces isNewline cs with
    | nil => exact absurd hpieces (pieces_ne_nil isNewline cs)
    | cons piece more => rw [growFirst, List.map_cons, trimChars_cons_blank h, List.map_cons]

theorem lineChars_concat_blank {c : Char} (h : isBlank c = true) (cs : List Char) :
    lineChars (cs ++ [c]) = lineChars cs := by
  obtain ⟨front, last, hlast, -, hpieces, hconcat⟩ := exists_lastPiece isNewline cs
  rw [lineChars, lineChars, hpieces, hconcat]
  by_cases hc : isNewline c = true
  · have hempty : ([[]].map trimChars).filter (fun line => !line.isEmpty) = [] := rfl
    rw [pieces_append_cons hc, pieces_of_forall_not hlast, pieces, ← List.append_assoc,
      List.map_append, List.filter_append, hempty, List.append_nil]
  · have hgrown : ∀ d ∈ last ++ [c], isNewline d = false := by
      rw [List.forall_mem_append, List.forall_mem_singleton]
      exact ⟨hlast, by simpa using hc⟩
    rw [pieces_of_forall_not hgrown, List.map_append, List.map_append, List.map_singleton,
      List.map_singleton, trimChars_concat_blank h]

theorem lineChars_dropWhile_blank (cs : List Char) :
    lineChars (cs.dropWhile isBlank) = lineChars cs := by
  induction cs with
  | nil => rfl
  | cons c rest ih =>
    by_cases h : isBlank c = true
    · rw [List.dropWhile_cons_of_pos h, ih, lineChars_cons_blank h]
    · rw [List.dropWhile_cons_of_neg h]

theorem lineChars_trimEnd (cs : List Char) : lineChars (trimEnd cs) = lineChars cs := by
  -- By induction from the end, on the reversed text.
  have hreverse : ∀ reversed : List Char,
      lineChars (trimEnd reversed.reverse) = lineChars reversed.reverse := by
    intro reversed
    induction reversed with
    | nil => rfl
    | cons c rest ih =>
      rw [List.reverse_cons]
      by_cases h : isBlank c = true
      · rw [trimEnd_concat_blank h, ih, lineChars_concat_blank h]
      · rw [trimEnd, List.reverse_append, List.reverse_singleton, List.singleton_append,
          List.dropWhile_cons_of_neg h, List.reverse_cons, List.reverse_reverse]
  have h := hreverse cs.reverse
  rwa [List.reverse_reverse] at h

/-- Trimming a text keeps its lines. -/
theorem lines_trim (s : String) : lines (trim s) = lines s := by
  have hchars : lineChars (trimChars s.toList) = lineChars s.toList := by
    rw [trimChars, lineChars_trimEnd, trimStart, lineChars_dropWhile_blank]
  rw [lines, trim, String.toList_ofList]
  exact congrArg (List.map String.ofList) hchars

end Text

theorem GlyphTable.glyphLines_trim (table : GlyphTable) (text : String) :
    table.glyphLines (Text.trim text) = table.glyphLines text := by
  rw [glyphLines, Text.lines_trim, glyphLines]

end AnimatedGlyph
