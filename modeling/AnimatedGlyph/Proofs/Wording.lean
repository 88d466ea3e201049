/-
What a text says.

Compiling sees little of a text: the lines that are not blank, in each of these the tokens
that stand for a glyph, and of such a glyph its label and its code.  `wording` is what it
sees of a line, and `compile_congr` says that texts with the same wording are compiled alike,
the source included.

The glyphs of a line do not change when its letters are made small and the characters that
neither belong to ASCII nor stand between tokens are left out.  `folded` is what remains of
the line, and `wording_of_folded` says that lines with the same remains have the same wording,
provided that both are blank or neither is.  The proviso is needed, since a line may lose
its only character that is not blank.
-/
import Mathlib.Data.List.TakeWhile
import AnimatedGlyph.Proofs.CodeText
import AnimatedGlyph.Proofs.Cutting
import AnimatedGlyph.Proofs.LayerStack

namespace AnimatedGlyph

open Text (Apart isBlank isNewline isSeparator)

/-! ## Blanks and separators -/

namespace Text

theorem isSeparator_of_isBlank {c : Char} (h : isBlank c = true) : isSeparator c = true := by
  rw [isSeparator, h]
  rfl

theorem isBlank_of_isNewline {c : Char} (h : isNewline c = true) : isBlank c = true := by
  rw [eq_of_beq h]
  rfl

theorem isNewline_of_not_isSeparator {c : Char} (h : isSeparator c = false) :
    isNewline c = false := by
  refine Bool.eq_false_iff.mpr fun hc => ?_
  exact Bool.false_ne_true (h.symm.trans (isSeparator_of_isBlank (isBlank_of_isNewline hc)))

/-- A line with a character that does not stand between tokens is not blank. -/
theorem all_isBlank_of_token {line : List Char} (h : ∃ c ∈ line, isSeparator c = false) :
    line.all isBlank = false := by
  obtain ⟨c, hc, htoken⟩ := h
  refine List.all_eq_false.mpr ⟨c, hc, fun hblank => ?_⟩
  exact Bool.false_ne_true (htoken.symm.trans (isSeparator_of_isBlank hblank))

/-- A text is what trimming leaves of it, with blanks on both sides. -/
theorem exists_trimChars (cs : List Char) : ∃ front back,
    cs = front ++ (trimChars cs ++ back) ∧ (∀ c ∈ front, isBlank c = true) ∧
      ∀ c ∈ back, isBlank c = true := by
  have htaken : ∀ ds : List Char, ∀ c ∈ ds.takeWhile isBlank, isBlank c = true :=
    fun ds c hc => List.all_eq_true.mp (List.all_takeWhile ..) c hc
  refine ⟨cs.takeWhile isBlank, ((trimStart cs).reverse.takeWhile isBlank).reverse, ?_,
    htaken cs, fun c hc => htaken _ c (List.mem_reverse.mp hc)⟩
  rw [trimChars, trimEnd, ← List.reverse_append, List.takeWhile_append_dropWhile,
    List.reverse_reverse, trimStart, List.takeWhile_append_dropWhile]

/-- A line is blank if nothing is left of it. -/
theorem isEmpty_trimChars (cs : List Char) : (trimChars cs).isEmpty = cs.all isBlank := by
  have hends : cs.all isBlank = (trimStart cs).all isBlank := by
    have hparts : cs.takeWhile isBlank ++ trimStart cs = cs := List.takeWhile_append_dropWhile
    have hall := congrArg (fun cs => cs.all isBlank) hparts
    simp only [List.all_append, List.all_takeWhile, Bool.true_and] at hall
    exact hall.symm
  rw [hends, trimChars, trimEnd, Bool.eq_iff_iff, List.isEmpty_reverse, List.isEmpty_iff,
    List.dropWhile_eq_nil_iff, List.all_eq_true]
  simp only [List.mem_reverse]

theorem runs_trimChars (cs : List Char) :
    runs isSeparator (trimChars cs) = runs isSeparator cs := by
  obtain ⟨front, back, hcs, hfront, hback⟩ := exists_trimChars cs
  have hruns := runs_separators_append (fun c hc => isSeparator_of_isBlank (hfront c hc))
    (trimChars cs ++ back)
  rw [runs_append_separators fun c hc => isSeparator_of_isBlank (hback c hc)] at hruns
  rw [← hruns, ← hcs]

/-! ## What remains of a line -/

/-- The ASCII characters of a line and those that stand between its tokens, with small letters
for the capitals. -/
def folded (line : List Char) : List Char :=
  (line.filter fun c => c.toNat < 128 || isSeparator c).map lowerAscii

theorem isSeparator_lowerAscii (c : Char) : isSeparator (lowerAscii c) = isSeparator c :=
  apply_lowerAscii (by decide) c

theorem isAscii_lowerAscii (c : Char) :
    decide ((lowerAscii c).toNat < 128) = decide (c.toNat < 128) :=
  apply_lowerAscii (f := fun c => decide (c.toNat < 128)) (by decide) c

theorem pieces_folded (line : List Char) :
    pieces isSeparator (folded line) = (pieces isSeparator line).map folded := by
  have hkept : pieces isSeparator (line.filter fun c => c.toNat < 128 || isSeparator c) =
      (pieces isSeparator line).map (List.filter fun c => c.toNat < 128 || isSeparator c) :=
    pieces_filter (fun c hc => by rw [hc, Bool.or_true]) line
  rw [folded, pieces_map isSeparator_lowerAscii, hkept, List.map_map]
  rfl

/-- The ASCII characters of a token, with small letters for the capitals. -/
def lowerAsciiPart (token : String) : List Char :=
  (asciiPart token).toList.map lowerAscii

theorem lowerAsciiPart_folded (token : List Char) :
    lowerAsciiPart (String.ofList (folded token)) = lowerAsciiPart (String.ofList token) := by
  have hascii : (folded token).filter (fun c => c.toNat < 128) =
      (token.filter fun c => c.toNat < 128).map lowerAscii := by
    have hkept : ((fun c : Char => decide (c.toNat < 128)) ∘ lowerAscii) =
        fun c => decide (c.toNat < 128) := funext isAscii_lowerAscii
    have hboth : ∀ c : Char, (decide (c.toNat < 128) &&
        (decide (c.toNat < 128) || isSeparator c)) = decide (c.toNat < 128) :=
      fun c => by cases decide (c.toNat < 128) <;> rfl
    rw [folded, List.filter_map, hkept, List.filter_filter]
    simp only [hboth]
  simp only [lowerAsciiPart, asciiPart, String.toList_ofList, hascii, List.map_map,
    Function.comp_def, lowerAscii_lowerAscii]

end Text

/-! ## Glyphs however they are typed -/

/-- The glyph under its label, as if this were the name of it. -/
def ResolvedGlyph.plain (glyph : ResolvedGlyph) : ResolvedGlyph :=
  ⟨glyph.label, glyph.code, .named⟩

namespace GlyphTable

theorem glyphOf?_nil (table : GlyphTable) : table.glyphOf? (String.ofList []) = none := by
  have hempty : (Text.asciiPart (String.ofList [])).isEmpty = true := by
    rw [Text.asciiPart, String.toList_ofList, String.isEmpty_iff]
    rfl
  rw [glyphOf?, resolveToken, if_pos hempty]
  rfl

/-- Which glyph a token stands for is seen from its ASCII characters, whatever the case of
its letters. -/
theorem map_plain_glyphOf? (table : GlyphTable) {token other : String}
    (h : Text.lowerAsciiPart token = Text.lowerAsciiPart other) :
    (table.glyphOf? token).map ResolvedGlyph.plain =
      (table.glyphOf? other).map ResolvedGlyph.plain := by
  have hpart : ∀ token, (Text.asciiPart token).isEmpty = (Text.lowerAsciiPart token).isEmpty := by
    intro token
    rw [Bool.eq_iff_iff, String.isEmpty_iff, Text.lowerAsciiPart, List.isEmpty_map,
      List.isEmpty_iff, String.toList_eq_nil_iff]
  have hempty : (Text.asciiPart token).isEmpty = (Text.asciiPart other).isEmpty := by
    rw [hpart, hpart, h]
  have hascii : ∀ token, ∀ c ∈ (Text.asciiPart token).toList, c.toNat < 128 := by
    intro token c hc
    rw [Text.asciiPart, String.toList_ofList] at hc
    simpa using (List.mem_filter.mp hc).2
  have hname : Text.lowercase (Text.asciiPart token) = Text.lowercase (Text.asciiPart other) := by
    rw [Text.lowercase_of_ascii (hascii token), Text.lowercase_of_ascii (hascii other)]
    exact congrArg String.ofList h
  have hcode : GlyphCode.parse (Text.asciiPart token) = GlyphCode.parse (Text.asciiPart other) :=
    GlyphCode.parse_congr h
  simp only [glyphOf?, resolveToken, hempty, resolveName, hname, resolveCode, hcode]
  by_cases he : (Text.asciiPart other).isEmpty = true
  · rw [if_pos he, if_pos he]
    rfl
  · rw [if_neg he, if_neg he]
    cases table.get? (Text.lowercase (Text.asciiPart other)) with
    | some code => rfl
    | none => cases GlyphCode.parse (Text.asciiPart other) <;> rfl

/-! ## Glyphs of lines -/

def glyphsOf (table : GlyphTable) (line : List Char) : List ResolvedGlyph :=
  (Text.runs isSeparator line).filterMap fun token => table.glyphOf? (String.ofList token)

theorem glyphLines_eq (table : GlyphTable) (text : String) :
    table.glyphLines text =
      ((Text.pieces isNewline text.toList).filter fun line => !line.all isBlank).map
        table.glyphsOf := by
  have hline : ∀ line, (Text.tokens (String.ofList (Text.trimChars line))).filterMap
      table.glyphOf? = table.glyphsOf line := by
    intro line
    rw [Text.tokens, String.toList_ofList, Text.runs_trimChars, List.filterMap_map]
    rfl
  simp only [glyphLines, Text.lines, List.filter_map, List.map_map, Function.comp_def, hline,
    Text.isEmpty_trimChars]

theorem glyphsOf_append (table : GlyphTable) {first second : List Char}
    (h : Apart isSeparator first second) :
    table.glyphsOf (first ++ second) = table.glyphsOf first ++ table.glyphsOf second := by
  rw [glyphsOf, Text.runs_append h, List.filterMap_append]
  rfl

theorem glyphsOf_append_separators (table : GlyphTable) {separators : List Char}
    (h : ∀ c ∈ separators, isSeparator c = true) (first : List Char) :
    table.glyphsOf (first ++ separators) = table.glyphsOf first := by
  rw [glyphsOf, Text.runs_append_separators h]
  rfl

theorem glyphsOf_separators_append (table : GlyphTable) {separators : List Char}
    (h : ∀ c ∈ separators, isSeparator c = true) (second : List Char) :
    table.glyphsOf (separators ++ second) = table.glyphsOf second := by
  rw [glyphsOf, Text.runs_separators_append h]
  rfl

theorem glyphsOf_around_separators (table : GlyphTable) {separators : List Char}
    (h : separators ≠ [] ∧ ∀ c ∈ separators, isSeparator c = true) (first second : List Char) :
    table.glyphsOf (first ++ separators ++ second) =
      table.glyphsOf first ++ table.glyphsOf second := by
  rw [glyphsOf, Text.runs_append_separators_append h.2 h.1, List.filterMap_append]
  rfl

/-- The glyphs of a line are those on both sides of a token and that of the token, if there
is one. -/
theorem glyphsOf_between (table : GlyphTable) {first token second : List Char} (hne : token ≠ [])
    (h : ∀ c ∈ token, isSeparator c = false) (hfirst : Apart isSeparator first token)
    (hsecond : Apart isSeparator token second) :
    table.glyphsOf (first ++ (token ++ second)) =
      table.glyphsOf first ++
        ((table.glyphOf? (String.ofList token)).toList ++ table.glyphsOf second) := by
  rw [glyphsOf, Text.runs_between hne h hfirst hsecond, List.filterMap_append, List.filterMap_cons]
  cases table.glyphOf? (String.ofList token) <;> rfl

/-- Empty pieces of a line stand for no glyph, so it does not matter that they are no tokens. -/
theorem glyphsOf_eq_pieces (table : GlyphTable) (line : List Char) :
    table.glyphsOf line = (Text.pieces isSeparator line).filterMap fun token =>
      table.glyphOf? (String.ofList token) := by
  rw [glyphsOf, Text.runs, List.filterMap_filter]
  refine List.filterMap_congr fun token _ => ?_
  cases token with
  | nil => exact table.glyphOf?_nil.symm
  | cons c rest => rfl

theorem map_plain_glyphsOf_folded (table : GlyphTable) (line : List Char) :
    (table.glyphsOf (Text.folded line)).map ResolvedGlyph.plain =
      (table.glyphsOf line).map ResolvedGlyph.plain := by
  rw [glyphsOf_eq_pieces, glyphsOf_eq_pieces, Text.pieces_folded, List.filterMap_map,
    List.map_filterMap, List.map_filterMap]
  refine List.filterMap_congr fun token _ => ?_
  rw [Function.comp_apply, table.map_plain_glyphOf? (Text.lowerAsciiPart_folded token)]

/-! ## Wording -/

/-- What compiling sees of a line, if the line counts. -/
def wording (table : GlyphTable) (line : List Char) : Option (List ResolvedGlyph) :=
  if line.all isBlank then none else some ((table.glyphsOf line).map ResolvedGlyph.plain)

/-- What compiling sees of a text. -/
def wordings (table : GlyphTable) (text : List Char) : List (List ResolvedGlyph) :=
  (Text.pieces isNewline text).filterMap table.wording

theorem wording_congr (table : GlyphTable) {line other : List Char}
    (hblank : line.all isBlank = other.all isBlank)
    (hglyphs : (table.glyphsOf line).map ResolvedGlyph.plain =
      (table.glyphsOf other).map ResolvedGlyph.plain) :
    table.wording line = table.wording other := by
  rw [wording, wording, hblank, hglyphs]

theorem wording_of_folded (table : GlyphTable) {line other : List Char}
    (hblank : line.all isBlank = other.all isBlank)
    (hfolded : Text.folded line = Text.folded other) :
    table.wording line = table.wording other := by
  refine table.wording_congr hblank ?_
  rw [← map_plain_glyphsOf_folded, hfolded, map_plain_glyphsOf_folded]

theorem wordings_eq (table : GlyphTable) (text : String) :
    table.wordings text.toList = (table.glyphLines text).map (List.map ResolvedGlyph.plain) := by
  rw [glyphLines_eq, List.map_map, ← List.filterMap_eq_map, List.filterMap_filter]
  refine List.filterMap_congr fun line _ => ?_
  rw [wording]
  cases line.all isBlank <;> rfl

end GlyphTable

/-! ## Compiling the glyphs of lines -/

/-- The place with its glyph under its label. -/
def WordPlace.plain (place : WordPlace) : WordPlace :=
  { place with glyph := place.glyph.plain }

theorem lineWords_plain (line shown : Nat) (glyphs : List ResolvedGlyph) :
    lineWords line shown (glyphs.map ResolvedGlyph.plain) =
      (lineWords line shown glyphs).map WordPlace.plain := by
  apply List.ext_getElem
  · simp [lineWords]
  · intro i hplain hmap
    simp [lineWords, WordPlace.plain]

theorem shownBefore_plain (lines : List (List ResolvedGlyph)) (line : Nat) :
    shownBefore (lines.map (List.map ResolvedGlyph.plain)) line = shownBefore lines line := by
  simp [shownBefore, ← List.map_take, List.countP_map, Function.comp_def]

theorem wordPlaces_plain (lines : List (List ResolvedGlyph)) :
    wordPlaces (lines.map (List.map ResolvedGlyph.plain)) =
      (wordPlaces lines).map WordPlace.plain := by
  rw [wordPlaces, wordPlaces, List.map_flatten]
  congr 1
  apply List.ext_getElem
  · simp
  · intro i hplain hmap
    simp [shownBefore_plain, lineWords_plain]

theorem drawWords_plain (points : Projection) (places : List WordPlace) (source : RandomSource) :
    drawWords points (places.map WordPlace.plain) source =
      ((drawWords points places source).1.map (Prod.map WordPlace.plain id),
        (drawWords points places source).2) := by
  induction places generalizing source with
  | nil => rfl
  | cons place rest ih =>
    simp only [List.map_cons, drawWords, ih]
    rfl

theorem Scene.wordStack_plain (scene : Scene) (drawn : List (WordPlace × StrokePath)) :
    scene.wordStack (drawn.map (Prod.map WordPlace.plain id)) = scene.wordStack drawn := by
  have hword : ∀ word, (scene.wordLayers word).map id =
      scene.wordLayers (Prod.map WordPlace.plain id word) := fun word => List.map_id _
  have h := map_wordStack hword drawn
  rwa [List.map_id, eq_comm] at h

namespace GlyphCompiler

/-- What compiling gives for a text with these glyphs in its lines. -/
def compileLines (compiler : GlyphCompiler) (options : CompileOptions)
    (lines : List (List ResolvedGlyph)) (source : RandomSource) :
    Option AnimationDocument × RandomSource :=
  if lines.all List.isEmpty then (none, source)
  else
    let scene : Scene := ⟨compiler.settings, options, lines.length⟩
    let (drawn, source) := drawWords scene.points (wordPlaces lines) source
    (some (scene.document (scene.wordStack drawn ++ scene.ground)), source)

theorem compile_eq_compileLines (compiler : GlyphCompiler) (options : CompileOptions)
    (text : String) (source : RandomSource) :
    compiler.compile options text source =
      compiler.compileLines options (compiler.table.glyphLines text) source :=
  compiler.compile_eq options text source

theorem compileLines_plain (compiler : GlyphCompiler) (options : CompileOptions)
    (lines : List (List ResolvedGlyph)) (source : RandomSource) :
    compiler.compileLines options (lines.map (List.map ResolvedGlyph.plain)) source =
      compiler.compileLines options lines source := by
  have husable : (lines.map (List.map ResolvedGlyph.plain)).all List.isEmpty =
      lines.all List.isEmpty := by
    simp only [List.all_map, Function.comp_def, List.isEmpty_map]
  simp only [compileLines, husable, List.length_map, wordPlaces_plain, drawWords_plain,
    Scene.wordStack_plain]

/-- Texts with the same wording are compiled alike. -/
theorem compile_congr (compiler : GlyphCompiler) (options : CompileOptions) {text other : String}
    (h : compiler.table.wordings text.toList = compiler.table.wordings other.toList)
    (source : RandomSource) :
    compiler.compile options text source = compiler.compile options other source := by
  rw [GlyphTable.wordings_eq, GlyphTable.wordings_eq] at h
  rw [compile_eq_compileLines, ← compileLines_plain, h, compileLines_plain,
    compile_eq_compileLines]

end GlyphCompiler
end AnimatedGlyph
