/-
Names and the codes they stand for.

A name in a text can be replaced by the code that it stands for: `compile_abbreviation` says
that the document is the same but for the label of the word, which is the name of its stroke
and what is set above it.

The two tokens are resolved by different rules, and the theorem holds of a code whose text is
not a name itself, since names win.  From there on the argument is about one glyph among
others that gives way to another glyph with the same code.  The lines, the places of all words
and the draws from the source depend on codes and on how many glyphs there are, so all of them
stay.  `exists_glyphLines` finds the glyph in the text, `exists_wordPlaces` its place, and
`exists_layers` its layers.
-/
import AnimatedGlyph.Proofs.Wording

namespace AnimatedGlyph

open Text (isBlank isNewline isSeparator)

/-! ## A token in a text -/

namespace GlyphTable

theorem glyphsOf_of_blank (table : GlyphTable) {line : List Char} (h : line.all isBlank = true) :
    table.glyphsOf line = [] := by
  have hseparators : ∀ c ∈ line, isSeparator c = true := fun c hc =>
    Text.isSeparator_of_isBlank (List.all_eq_true.mp h c hc)
  rw [glyphsOf, Text.runs_of_forall hseparators]
  rfl

/-- The glyphs around a token that stands for one, which do not depend on the token. -/
theorem exists_glyphLines (table : GlyphTable) {before after : String}
    (hbefore : ∀ c ∈ before.toList.getLast?, isSeparator c = true)
    (hafter : ∀ c ∈ after.toList.head?, isSeparator c = true) :
    ∃ above left right below,
      (table.glyphLines before).flatten = above.flatten ++ left ∧
        ∀ {token glyph}, (∀ c ∈ token.toList, isSeparator c = false) →
          table.glyphOf? token = some glyph →
            table.glyphLines (before ++ token ++ after) =
              above ++ (left ++ glyph :: right) :: below := by
  obtain ⟨front, last, first, rest, hlast, hfirst, hpieces, hwhole⟩ :=
    Text.exists_pieces isNewline before.toList after.toList
  refine ⟨(front.filter fun line => !line.all isBlank).map table.glyphsOf, table.glyphsOf last,
    table.glyphsOf first, (rest.filter fun line => !line.all isBlank).map table.glyphsOf, ?_,
    fun {token glyph} htoken hglyph => ?_⟩
  · rw [glyphLines_eq, hpieces, List.filter_append, List.map_append, List.flatten_append,
      List.filter_singleton]
    cases hblank : last.all isBlank with
    | true =>
      rw [table.glyphsOf_of_blank hblank]
      rfl
    | false => exact congrArg _ List.flatten_singleton
  · obtain ⟨c, hc⟩ : ∃ c, c ∈ token.toList := by
      refine List.exists_mem_of_ne_nil _ fun hnil => ?_
      have hempty : token = String.ofList [] := by rw [← hnil, String.ofList_toList]
      rw [hempty, glyphOf?_nil] at hglyph
      cases hglyph
    have hline : (last ++ (token.toList ++ first)).all isBlank = false :=
      Text.all_isBlank_of_token
        ⟨c, List.mem_append_right _ (List.mem_append_left _ hc), htoken c hc⟩
    rw [glyphLines_eq, String.toList_append, String.toList_append, List.append_assoc,
      hwhole token.toList fun c hc => Text.isNewline_of_not_isSeparator (htoken c hc),
      List.filter_append, List.filter_cons, hline, List.map_append, Bool.not_false, if_pos rfl,
      List.map_cons,
      table.glyphsOf_between (List.ne_nil_of_mem hc) htoken
        (.inl fun c hc => hbefore c (hlast c hc)) (.inr fun c hc => hafter c (hfirst c hc)),
      String.ofList_toList, hglyph]
    rfl

end GlyphTable

/-! ## A glyph among others -/

theorem exists_lineWords (line shown : Nat) (left right : List ResolvedGlyph) :
    ∃ first rest, first.map WordPlace.glyph = left ∧ ∀ glyph,
      lineWords line shown (left ++ glyph :: right) =
        first ++ ⟨glyph, line, shown, left.length, left.length + (right.length + 1),
          by omega⟩ :: rest := by
  refine ⟨left.mapFinIdx fun word glyph h =>
      ⟨glyph, line, shown, word, left.length + (right.length + 1), by omega⟩,
    right.mapFinIdx fun word glyph h =>
      ⟨glyph, line, shown, word + 1 + left.length, left.length + (right.length + 1), by omega⟩,
    ?_, fun glyph => ?_⟩
  · apply List.ext_getElem
    · simp
    · intro i hmap hleft
      simp
  · simp only [lineWords, List.mapFinIdx_append, List.mapFinIdx_cons, List.length_append,
      List.length_cons, Nat.zero_add]

/-- The words around a glyph, which do not depend on what glyph it is. -/
theorem exists_wordPlaces (above : List (List ResolvedGlyph)) (left right : List ResolvedGlyph)
    (below : List (List ResolvedGlyph)) :
    ∃ first rest, first.map WordPlace.glyph = above.flatten ++ left ∧ ∀ glyph,
      wordPlaces (above ++ (left ++ glyph :: right) :: below) =
        first ++ ⟨glyph, above.length, shownBefore above above.length, left.length,
          left.length + (right.length + 1), by omega⟩ :: rest := by
  obtain ⟨before, after, hbefore, hline⟩ :=
    exists_lineWords above.length (shownBefore above above.length) left right
  refine ⟨wordPlaces above ++ before, after ++ (wordPlaces below).map
    (WordPlace.below (above.length + 1) (shownBefore above above.length + 1)), ?_,
    fun glyph => ?_⟩
  · rw [List.map_append, map_glyph_wordPlaces, hbefore]
  · have hlines : above ++ (left ++ glyph :: right) :: below =
        above ++ [left ++ glyph :: right] ++ below := List.append_cons ..
    have hshown : shownBefore (above ++ [left ++ glyph :: right])
        (above ++ [left ++ glyph :: right]).length = shownBefore above above.length + 1 := by
      rw [List.length_append, List.length_singleton, shownBefore_append_right]
      cases left <;> rfl
    have hsingle : wordPlaces [left ++ glyph :: right] = lineWords 0 0 (left ++ glyph :: right) :=
      List.append_nil _
    rw [hlines, wordPlaces_append, wordPlaces_append, hshown, hsingle, map_below_lineWords,
      Nat.add_zero, Nat.add_zero, hline]
    simp

/-! ## The layers of a glyph among others -/

theorem Scene.name_strokeLayers (scene : Scene) (drawn : List (WordPlace × StrokePath)) :
    ((scene.wordStack drawn ++ scene.ground).filter fun layer => layer.kind.isStroke).map
        Layer.name =
      (((drawn.map Prod.fst).map WordPlace.glyph).map ResolvedGlyph.label).reverse := by
  have hnames : (drawn.map scene.wordStroke).map Layer.name =
      ((drawn.map Prod.fst).map WordPlace.glyph).map ResolvedGlyph.label := by
    rw [List.map_map, List.map_map, List.map_map]
    rfl
  rw [← hnames, ← List.map_reverse]
  exact congrArg (List.map Layer.name) (scene.strokeLayers_document drawn)

namespace GlyphCompiler

/-- The layers around those of a glyph, which depend on its code and not on its label. -/
theorem exists_layers (compiler : GlyphCompiler) (options : CompileOptions)
    (above : List (List ResolvedGlyph)) (left right : List ResolvedGlyph)
    (below : List (List ResolvedGlyph)) (code : GlyphCode) (source : RandomSource) :
    let scene : Scene := ⟨compiler.settings, options, above.length + (below.length + 1)⟩
    ∃ (document : AnimationDocument) (upper : List Layer) (stroke : Layer) (lower : List Layer)
        (rest : RandomSource),
      stroke.kind.isStroke = true ∧
        (lower.filter fun layer => layer.kind.isStroke).map Layer.name =
          ((above.flatten ++ left).map ResolvedGlyph.label).reverse ∧
        ∀ glyph : ResolvedGlyph, glyph.code = code →
          compiler.compileLines options (above ++ (left ++ glyph :: right) :: below) source =
            (some { document with
              layers := upper ++ (scene.captionLayers stroke.window glyph.label ++
                { stroke with name := glyph.label } :: lower) }, rest) := by
  intro scene
  obtain ⟨first, later, hfirst, hplaces⟩ := exists_wordPlaces above left right below
  let place : ResolvedGlyph → WordPlace := fun glyph =>
    ⟨glyph, above.length, shownBefore above above.length, left.length,
      left.length + (right.length + 1), by omega⟩
  let before := drawWords scene.points first source
  let path := StrokePath.ofEdges (code.edges scene.points) before.2
  let after := drawWords scene.points later path.2
  refine ⟨scene.document [], scene.wordStack after.1,
    scene.wordStroke (place ⟨"", code, .raw⟩, path.1),
    scene.wordStack before.1 ++ scene.ground, after.2, rfl, ?_, ?_⟩
  · rw [scene.name_strokeLayers, map_fst_drawWords, hfirst]
  · rintro glyph rfl
    have hsome : (above ++ (left ++ glyph :: right) :: below).all List.isEmpty = false := by
      cases left <;> simp
    have hlines : (above ++ (left ++ glyph :: right) :: below).length =
        above.length + (below.length + 1) := by
      rw [List.length_append, List.length_cons]
    have hdrawn : drawWords scene.points (first ++ place glyph :: later) source =
        (before.1 ++ (place glyph, path.1) :: after.1, after.2) := by
      rw [drawWords_append]
      rfl
    have hlayers : scene.wordStack (before.1 ++ (place glyph, path.1) :: after.1) ++ scene.ground =
        scene.wordStack after.1 ++
          (scene.letters (place glyph) ++ scene.wordStroke (place glyph, path.1) ::
            (scene.wordStack before.1 ++ scene.ground)) := by
      rw [Scene.wordStack_append, Scene.wordStack_cons, Scene.wordLayers]
      simp only [List.append_assoc, List.cons_append, List.nil_append]
    rw [compileLines, hsome, if_neg Bool.false_ne_true, hlines, hplaces glyph]
    show (some (scene.document (scene.wordStack
      (drawWords scene.points (first ++ place glyph :: later) source).1 ++ scene.ground)),
        (drawWords scene.points (first ++ place glyph :: later) source).2) = _
    rw [hdrawn, hlayers, ← Scene.captionLayers_eq_letters]
    rfl

/-- A token gives way to the text of its code: the document stays the same but for what is
written above the word and the name of its stroke, and so does what is left of the source.
The strokes below those layers are the strokes of the words before the token. -/
theorem compile_abbreviation {compiler : GlyphCompiler} {before token after : String}
    {glyph : ResolvedGlyph} (hbefore : ∀ c ∈ before.toList.getLast?, isSeparator c = true)
    (htoken : ∀ c ∈ token.toList, isSeparator c = false)
    (hafter : ∀ c ∈ after.toList.head?, isSeparator c = true)
    (hglyph : resolveToken compiler.table token = .ok glyph)
    (hcode : compiler.table.get? glyph.code.text = none) (options : CompileOptions)
    (source : RandomSource) :
    let scene := compiler.scene options (before ++ token ++ after)
    ∃ (document : AnimationDocument) (upper : List Layer) (stroke : Layer) (lower : List Layer)
        (rest : RandomSource),
      stroke.kind.isStroke = true ∧
        (lower.filter fun layer => layer.kind.isStroke).map Layer.name =
          ((compiler.table.glyphLines before).flatten.map ResolvedGlyph.label).reverse ∧
        compiler.compile options (before ++ token ++ after) source =
          (some { document with
            layers := upper ++ (scene.captionLayers stroke.window glyph.label ++
              { stroke with name := glyph.label } :: lower) }, rest) ∧
        compiler.compile options (before ++ glyph.code.text ++ after) source =
          (some { document with
            layers := upper ++ (scene.captionLayers stroke.window glyph.code.text ++
              { stroke with name := glyph.code.text } :: lower) }, rest) := by
  intro scene
  have htyped : compiler.table.glyphOf? token = some glyph := by
    rw [GlyphTable.glyphOf?, hglyph]
    rfl
  have hspelt : compiler.table.glyphOf? glyph.code.text =
      some ⟨glyph.code.text, glyph.code, .raw⟩ := by
    rw [GlyphTable.glyphOf?, GlyphCode.resolveToken_text hcode]
    rfl
  obtain ⟨above, left, right, below, hwords, hlines⟩ :=
    compiler.table.exists_glyphLines hbefore hafter
  have hfirst := hlines htoken htyped
  have hsecond := hlines (glyph.code.forall_mem_text (by decide)) hspelt
  have hscene : scene = ⟨compiler.settings, options, above.length + (below.length + 1)⟩ := by
    simp only [scene, GlyphCompiler.scene, hfirst, List.length_append, List.length_cons]
  obtain ⟨document, upper, stroke, lower, rest, hstroke, hlower, hlayers⟩ :=
    compiler.exists_layers options above left right below glyph.code source
  refine ⟨document, upper, stroke, lower, rest, hstroke, ?_, ?_, ?_⟩
  · rw [hlower, hwords]
  · rw [compile_eq_compileLines, hfirst, hlayers glyph rfl, hscene]
  · rw [compile_eq_compileLines, hsecond, hlayers ⟨glyph.code.text, glyph.code, .raw⟩ rfl, hscene]
    rfl

/-- A name in capitals in the first of two lines. -/
theorem compile_abbreviation_of_truth :
    let code : GlyphCode := ⟨[0, 4, 9], by decide, by decide, by decide, trivial⟩
    let compiler : GlyphCompiler := ⟨GlyphTable.empty.insert "truth" code, .standard⟩
    ∃ (document : AnimationDocument) (upper : List Layer) (stroke : Layer) (lower : List Layer)
        (rest : RandomSource),
      compiler.compile .standard ("12 " ++ "TRUTH" ++ "\n01") (.ofSeed 1) =
          (some { document with
            layers := upper ++ { stroke with name := "truth" } :: lower }, rest) ∧
        compiler.compile .standard ("12 " ++ "049" ++ "\n01") (.ofSeed 1) =
          (some { document with
            layers := upper ++ { stroke with name := "049" } :: lower }, rest) := by
  intro code compiler
  have hname : compiler.table.get? "truth" = some code :=
    Std.ExtTreeMap.getElem?_insert_self
  have hglyph : resolveToken compiler.table "TRUTH" = .ok ⟨"truth", code, .named⟩ := by
    have hascii : Text.asciiPart "TRUTH" = "TRUTH" := by decide
    have hlower : Text.lowercase "TRUTH" = "truth" := by decide +kernel
    rw [resolveToken, hascii, resolveName, hlower, hname]
    rfl
  have hcode : compiler.table.get? code.text = none := by
    have hne : compare "truth" code.text ≠ .eq := by decide
    exact Std.ExtTreeMap.getElem?_insert.trans (if_neg hne)
  have hbefore : ∀ c ∈ "12 ".toList.getLast?, isSeparator c = true := by
    have hlast : "12 ".toList.getLast? = some ' ' := by decide
    rw [hlast]
    exact fun c hc => Option.mem_some_iff.mp hc ▸ rfl
  have hafter : ∀ c ∈ "\n01".toList.head?, isSeparator c = true := by
    have hhead : "\n01".toList.head? = some '\n' := by decide
    rw [hhead]
    exact fun c hc => Option.mem_some_iff.mp hc ▸ rfl
  have htoken : ∀ c ∈ "TRUTH".toList, isSeparator c = false := by
    have hnone : "TRUTH".toList.any isSeparator = false := by decide
    simpa using hnone
  obtain ⟨document, upper, stroke, lower, rest, -, -, hfirst, hsecond⟩ :=
    compile_abbreviation hbefore htoken hafter hglyph hcode .standard (.ofSeed 1)
  exact ⟨document, upper, stroke, lower, rest, hfirst, hsecond⟩

end GlyphCompiler
end AnimatedGlyph
