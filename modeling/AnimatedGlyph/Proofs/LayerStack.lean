/-
The layers of a compiled text.

Compiling puts every word on top of the words before it, while a cursor runs through
the palette, each line has a schedule of its own, and the random source is passed on
from stroke to stroke.  Here the layers are given without any of these: `wordPlaces`
lists the words with their places, `drawWords` draws them in reading order, and the
stack is the reverse of what was drawn with the grid and the background below it.

The statement that the file is for is `compile_eq`, which gives the whole answer of
the compiler, the source included.  The last theorem states it for the layers with
every part written out.
-/
import AnimatedGlyph.Proofs.Schedule
import AnimatedGlyph.Proofs.WordPlace

namespace AnimatedGlyph

/-! ## Schedules and colours of a word -/

namespace WordPlace

/-- The window of a word, one of the windows of its line. -/
def window (place : WordPlace) (total : UInt32) : FrameWindow :=
  (schedule place.words total).get
    ⟨place.word, by rw [length_schedule]; exact place.word_lt⟩

theorem window_eq (place : WordPlace) (total : UInt32) :
    place.window total =
      ⟨UInt32.ofNat (wordStart place.words total.toNat place.word),
        UInt32.ofNat (wordStop place.words total.toNat place.word)⟩ := by
  rw [window, List.get_eq_getElem, getElem_schedule]

theorem toNat_start_window (place : WordPlace) (total : UInt32) :
    (place.window total).start.toNat = wordStart place.words total.toNat place.word := by
  rw [window_eq]
  exact toNat_wordStart place.word_lt

theorem toNat_stop_window (place : WordPlace) (total : UInt32) :
    (place.window total).stop.toNat = wordStop place.words total.toNat place.word := by
  rw [window_eq]
  exact toNat_wordStop place.words place.word total

/-- The colour of a word, which goes by the lines with a glyph before its own. -/
def colour (place : WordPlace) : Colour :=
  palette[place.shown % 29]

end WordPlace

theorem zip_schedule (line shown : Nat) (glyphs : List ResolvedGlyph) (total : UInt32) :
    glyphs.zip (schedule glyphs.length total) =
      (lineWords line shown glyphs).map fun place => (place.glyph, place.window total) := by
  apply List.ext_getElem
  · simp [lineWords, length_schedule]
  · intro i hzip hmap
    simp [lineWords, WordPlace.window]

/-- The place in the palette after so many advances. -/
def PaletteCursor.after (shown : Nat) : PaletteCursor :=
  ⟨shown % 29, Nat.mod_lt shown (by decide)⟩

theorem PaletteCursor.advance_after (shown : Nat) :
    (PaletteCursor.after shown).advance = PaletteCursor.after (shown + 1) := by
  apply Fin.ext
  simp [PaletteCursor.advance, PaletteCursor.after, Fin.val_add]

theorem PaletteCursor.colour_after (shown : Nat) :
    (PaletteCursor.after shown).colour = palette[shown % 29] := by
  simp [PaletteCursor.colour, PaletteCursor.after]

/-! ## Drawing the words -/

/-- Draw words one after the other, each with what the words before it left of the
source. -/
def drawWords (points : Projection) :
    List WordPlace → RandomSource → List (WordPlace × StrokePath) × RandomSource
  | [], source => ([], source)
  | place :: rest, source =>
    let (path, source) := StrokePath.ofEdges (place.glyph.code.edges points) source
    let (drawn, source) := drawWords points rest source
    ((place, path) :: drawn, source)

theorem drawWords_append (points : Projection) (first second : List WordPlace)
    (source : RandomSource) :
    drawWords points (first ++ second) source =
      let (drawn, source) := drawWords points first source
      let (more, source) := drawWords points second source
      (drawn ++ more, source) := by
  induction first generalizing source with
  | nil => rfl
  | cons place rest ih => simp only [List.cons_append, drawWords, ih]

theorem map_fst_drawWords (points : Projection) (places : List WordPlace)
    (source : RandomSource) : (drawWords points places source).1.map Prod.fst = places := by
  induction places generalizing source with
  | nil => rfl
  | cons place rest ih => simp only [drawWords, List.map_cons, ih]

/-! ## Captions -/

theorem exists_cell_of_ofChar? {c : Char} {letter : Letterform}
    (h : Letterform.ofChar? c = some letter) :
    ∃ entry ∈ cellStrokes, letter = Letterform.ofCell entry.2 := by
  obtain ⟨cell, hcell, rfl⟩ := Option.map_eq_some_iff.mp h
  obtain ⟨before, after, hsplit, -⟩ := List.lookup_eq_some_iff.mp hcell
  refine ⟨(Text.lowerAscii c, cell), ?_, rfl⟩
  rw [hsplit]
  exact List.mem_append_right before List.mem_cons_self

/-- Where the cursor of a caption stands before the character at a place. -/
def Canvas.cursorAt (canvas : Canvas) (word : List Char) (place : Nat) : Float :=
  ((word.take place).map (advance canvas)).foldl (· + ·) 0.0

/-- The letter for a character of a word, where the cursor stands before it. -/
def placedLetter (canvas : Canvas) (window : FrameWindow) (left y : Float) (word : List Char) :
    Char × Nat → Option Layer
  | (c, place) => (Letterform.ofChar? c).map fun letter =>
    { name := "char " ++ c.toString
      window := window
      kind := .caption {
        character := c
        letter := letter
        anchor := ⟨letter.width / 2.0, 0.0⟩
        position := ⟨left + canvas.cursorAt word place + letter.width / 2.0, y⟩ } }

/-- The letters of a word in reading order. -/
def placedLetters (canvas : Canvas) (window : FrameWindow) (left y : Float) (word : List Char) :
    List Layer :=
  word.zipIdx.filterMap (placedLetter canvas window left y word)

theorem Canvas.cursorAt_succ (canvas : Canvas) (before after : List Char) (c : Char) :
    canvas.cursorAt (before ++ c :: after) (before.length + 1) =
      canvas.cursorAt (before ++ c :: after) before.length + advance canvas c := by
  have hnext : (before ++ c :: after).take (before.length + 1) = before ++ [c] := by
    rw [List.take_append, List.take_of_length_le (by omega)]
    simp
  rw [Canvas.cursorAt, Canvas.cursorAt, hnext, List.take_left', List.map_append,
    List.foldl_append]
  · rfl
  · rfl

theorem setFrom_eq (canvas : Canvas) (window : FrameWindow) (left y : Float) :
    ∀ (after before : List Char),
      setFrom canvas window left y (canvas.cursorAt (before ++ after) before.length) after =
        (after.zipIdx before.length).filterMap
          (placedLetter canvas window left y (before ++ after)) := by
  -- Over the characters that are left, with the cursor after those that have been set.
  intro after
  induction after with
  | nil => intro before; rfl
  | cons c rest ih =>
    intro before
    have hrest := ih (before ++ [c])
    simp only [List.append_assoc, List.singleton_append, List.length_append,
      List.length_singleton, Canvas.cursorAt_succ] at hrest
    rw [setFrom, hrest, List.zipIdx_cons, List.filterMap_cons, placedLetter]
    cases Letterform.ofChar? c <;> rfl

theorem typeset_eq (canvas : Canvas) (window : FrameWindow) (origin : Point) (word : String) :
    typeset canvas window origin word =
      placedLetters canvas window origin.x (origin.y + canvas.fontSize / 2.0) word.toList :=
  setFrom_eq canvas window origin.x (origin.y + canvas.fontSize / 2.0) word.toList []

/-! ## The stack -/

namespace Scene

/-- The letters above a word: those of its label, in the middle of the canvas, if the
text is a single line and captions are asked for. -/
def letters (scene : Scene) (place : WordPlace) : List Layer :=
  if scene.options.showCaption = true ∧ scene.lines = 1 then
    let canvas := scene.canvas
    let label := place.glyph.label
    placedLetters canvas (place.window scene.settings.totalFrames)
      ((scene.settings.width.toFloat - measure canvas label) / 2.0)
      (scene.settings.captionTop + canvas.fontSize / 2.0) label.toList
  else []

/-- The stroke of a word that is drawn along a path. -/
def wordStroke (scene : Scene) (drawn : WordPlace × StrokePath) : Layer :=
  let (place, path) := drawn
  { name := place.glyph.label
    window := place.window scene.settings.totalFrames
    kind := .stroke {
      path := path
      colour := place.colour
      width := strokeWidth place.line scene.lines
      effects := if scene.options.animated then [.trim, .opacity] else [] } }

/-- The layers of a word that is drawn along a path. -/
def wordLayers (scene : Scene) (drawn : WordPlace × StrokePath) : List Layer :=
  scene.letters drawn.1 ++ [scene.wordStroke drawn]

/-- The layers of words: the last word is on top. -/
def wordStack (scene : Scene) (drawn : List (WordPlace × StrokePath)) : List Layer :=
  drawn.reverse.flatMap scene.wordLayers

theorem wordStack_append (scene : Scene) (first second : List (WordPlace × StrokePath)) :
    scene.wordStack (first ++ second) = scene.wordStack second ++ scene.wordStack first := by
  simp [wordStack, List.flatMap_append]

theorem wordStack_cons (scene : Scene) (drawn : WordPlace × StrokePath)
    (rest : List (WordPlace × StrokePath)) :
    scene.wordStack (drawn :: rest) = scene.wordStack rest ++ scene.wordLayers drawn := by
  simp [wordStack, List.flatMap_append]

theorem captionLayers_eq_letters (scene : Scene) (place : WordPlace) :
    scene.captionLayers (place.window scene.settings.totalFrames) place.glyph.label =
      scene.letters place := by
  by_cases hcaption : scene.options.showCaption = true ∧ scene.lines = 1
  · have hhas : scene.hasCaptions = true := by
      simp [hasCaptions, hcaption]
    rw [captionLayers, if_pos hhas, letters, if_pos hcaption, typesetCentred, typeset_eq]
  · have hhas : ¬scene.hasCaptions = true := by
      simpa [hasCaptions] using hcaption
    rw [captionLayers, if_neg hhas, letters, if_neg hcaption]

theorem stackWords_eq (scene : Scene) {colour : Colour} {width : Float} :
    ∀ (places : List WordPlace) (below : List Layer) (source : RandomSource),
      (∀ place ∈ places, place.colour = colour ∧ strokeWidth place.line scene.lines = width) →
        scene.stackWords colour width
            (places.map fun place => (place.glyph, place.window scene.settings.totalFrames))
            below source =
          let (drawn, source) := drawWords scene.points places source
          (scene.wordStack drawn ++ below, source) := by
  intro places
  induction places with
  | nil => intro below source _; rfl
  | cons place rest ih =>
    intro below source hline
    obtain ⟨hcolour, hwidth⟩ := hline place List.mem_cons_self
    have hrest := fun below source =>
      ih below source fun p hp => hline p (List.mem_cons_of_mem place hp)
    simp only [List.map_cons, stackWords, hrest, strokeLayer, drawWords, wordStack_cons,
      captionLayers_eq_letters, wordLayers, wordStroke, hcolour, hwidth, Layer.stroke,
      Layer.effectsOf, List.append_assoc, List.cons_append, List.nil_append]

theorem stackLines_eq (scene : Scene) :
    ∀ (lines : List LineReport) (shown : Nat) (below : List Layer) (source : RandomSource),
      scene.stackLines (.after shown) lines below source =
        let (drawn, source) := drawWords scene.points (linePlaces shown lines) source
        (scene.wordStack drawn ++ below, source) := by
  intro lines
  induction lines with
  | nil => intro shown below source; rfl
  | cons line rest ih =>
    intro shown below source
    have hplaces : ∀ place ∈ lineWords line.index shown line.glyphs,
        place.colour = (PaletteCursor.after shown).colour ∧
          strokeWidth place.line scene.lines = strokeWidth line.index scene.lines := by
      intro place hplace
      obtain ⟨hline, hshown, -, -⟩ := mem_lineWords.mp hplace
      rw [WordPlace.colour, PaletteCursor.colour_after]
      simp only [hline, hshown, and_self]
    rw [stackLines, stackLine, zip_schedule line.index shown,
      stackWords_eq scene _ below source hplaces, PaletteCursor.advance_after, linePlaces,
      drawWords_append]
    simp only [ih, wordStack_append, List.append_assoc]

/-! ## Strokes of the stack -/

theorem exists_caption_of_mem_letters {scene : Scene} {place : WordPlace} {layer : Layer}
    (h : layer ∈ scene.letters place) : ∃ caption, layer.kind = .caption caption := by
  rw [letters] at h
  split at h
  · obtain ⟨⟨c, position⟩, -, hletter⟩ := List.mem_filterMap.mp h
    obtain ⟨letter, -, rfl⟩ := Option.map_eq_some_iff.mp hletter
    exact ⟨_, rfl⟩
  · cases h

theorem mem_wordStack {scene : Scene} {drawn : List (WordPlace × StrokePath)} {layer : Layer} :
    layer ∈ scene.wordStack drawn ↔
      ∃ word ∈ drawn, layer ∈ scene.letters word.1 ∨ layer = scene.wordStroke word := by
  simp [wordStack, wordLayers, List.mem_flatMap]

theorem map_letters {scene : Scene} {place : WordPlace} {change : Layer → Layer}
    (h : ∀ (layer : Layer) {caption}, layer.kind = .caption caption → change layer = layer) :
    (scene.letters place).map change = scene.letters place := by
  have hsame : ∀ layer ∈ scene.letters place, change layer = id layer := by
    intro layer hlayer
    obtain ⟨caption, hkind⟩ := exists_caption_of_mem_letters hlayer
    exact h layer hkind
  rw [List.map_congr_left hsame, List.map_id]

theorem filter_letters {scene : Scene} {place : WordPlace} (keep : LayerKind → Bool)
    (h : ∀ caption, keep (.caption caption) = false) :
    (scene.letters place).filter (fun layer => keep layer.kind) = [] := by
  rw [List.filter_eq_nil_iff]
  intro layer hlayer
  obtain ⟨caption, hkind⟩ := exists_caption_of_mem_letters hlayer
  rw [hkind, h]
  exact Bool.false_ne_true

/-- What changes the layers of each word changes the stack of them. -/
theorem map_wordStack {scene other : Scene} {change : Layer → Layer}
    {redraw : WordPlace × StrokePath → WordPlace × StrokePath}
    (h : ∀ word, (scene.wordLayers word).map change = other.wordLayers (redraw word))
    (drawn : List (WordPlace × StrokePath)) :
    (scene.wordStack drawn).map change = other.wordStack (drawn.map redraw) := by
  rw [wordStack, wordStack, List.map_flatMap, ← List.map_reverse, List.flatMap_map]
  simp only [h]

theorem filter_wordStack {scene other : Scene} {keep : Layer → Bool}
    (h : ∀ word, (scene.wordLayers word).filter keep = other.wordLayers word)
    (drawn : List (WordPlace × StrokePath)) :
    (scene.wordStack drawn).filter keep = other.wordStack drawn := by
  rw [wordStack, wordStack, List.filter_flatMap]
  simp only [h]

/-- What holds of every layer of a document is checked word by word, and then of the grid and
the background. -/
theorem forall_mem_layers_iff {scene : Scene} {drawn : List (WordPlace × StrokePath)}
    {P : Layer → Prop} :
    (∀ layer ∈ scene.wordStack drawn ++ scene.ground, P layer) ↔
      (∀ word ∈ drawn, (∀ layer ∈ scene.letters word.1, P layer) ∧ P (scene.wordStroke word)) ∧
        P (.grid scene.points scene.settings.totalFrames) ∧
          P (.background scene.settings.background scene.settings.width scene.settings.height
            scene.settings.totalFrames) := by
  have hwords : (∀ layer ∈ scene.wordStack drawn, P layer) ↔
      ∀ word ∈ drawn, (∀ layer ∈ scene.letters word.1, P layer) ∧ P (scene.wordStroke word) := by
    constructor
    · intro h word hword
      exact ⟨fun layer hletter => h layer (mem_wordStack.mpr ⟨word, hword, .inl hletter⟩),
        h _ (mem_wordStack.mpr ⟨word, hword, .inr rfl⟩)⟩
    · intro h layer hlayer
      obtain ⟨word, hword, hletter | rfl⟩ := mem_wordStack.mp hlayer
      · exact (h word hword).1 layer hletter
      · exact (h word hword).2
  rw [List.forall_mem_append, hwords, ground, List.forall_mem_cons, List.forall_mem_singleton]

theorem isStroke_mem_iff {scene : Scene} {drawn : List (WordPlace × StrokePath)}
    {layer : Layer} (hstroke : layer.kind.isStroke = true) :
    layer ∈ scene.wordStack drawn ++ scene.ground ↔
      ∃ word ∈ drawn, layer = scene.wordStroke word := by
  have hground : layer ∉ scene.ground := by
    intro h
    rw [ground, List.mem_cons, List.mem_singleton] at h
    rcases h with rfl | rfl <;> cases hstroke
  have hletters : ∀ place, layer ∉ scene.letters place := by
    intro place h
    obtain ⟨caption, hkind⟩ := exists_caption_of_mem_letters h
    rw [hkind] at hstroke
    cases hstroke
  simp only [List.mem_append, mem_wordStack, hground, hletters, false_or, or_false]

theorem filter_isStroke_wordLayers (scene : Scene) (word : WordPlace × StrokePath) :
    (scene.wordLayers word).filter (fun layer => layer.kind.isStroke) =
      [scene.wordStroke word] := by
  rw [wordLayers, List.filter_append, filter_letters LayerKind.isStroke fun _ => rfl]
  rfl

/-- The strokes of a document are those of its words, the last word first. -/
theorem strokeLayers_document (scene : Scene) (drawn : List (WordPlace × StrokePath)) :
    (scene.document (scene.wordStack drawn ++ scene.ground)).strokeLayers =
      (drawn.map scene.wordStroke).reverse := by
  have hground : scene.ground.filter (fun layer => layer.kind.isStroke) = [] := rfl
  show (scene.wordStack drawn ++ scene.ground).filter (fun layer => layer.kind.isStroke) = _
  rw [List.filter_append, hground, List.append_nil, wordStack, List.filter_flatMap]
  simp only [filter_isStroke_wordLayers]
  rw [← List.map_eq_flatMap, List.map_reverse]

theorem mem_strokeLayers {scene : Scene} {drawn : List (WordPlace × StrokePath)}
    {layer : Layer} :
    layer ∈ (scene.document (scene.wordStack drawn ++ scene.ground)).strokeLayers ↔
      ∃ word ∈ drawn, layer = scene.wordStroke word := by
  rw [strokeLayers_document, List.mem_reverse, List.mem_map]
  simp only [eq_comm]

end Scene

/-! ## Compiled documents -/

namespace GlyphCompiler

def scene (compiler : GlyphCompiler) (options : CompileOptions) (text : String) : Scene :=
  ⟨compiler.settings, options, (compiler.table.glyphLines text).length⟩

theorem sceneOf_report (compiler : GlyphCompiler) (options : CompileOptions) (text : String) :
    compiler.sceneOf options (compiler.report text) = compiler.scene options text := by
  rw [sceneOf, scene, report, length_lines_report]

/-- The words of a text with their paths, and what is left of the source. -/
def drawn (compiler : GlyphCompiler) (options : CompileOptions) (text : String)
    (source : RandomSource) : List (WordPlace × StrokePath) × RandomSource :=
  drawWords (compiler.scene options text).points (wordPlaces (compiler.table.glyphLines text))
    source

/-- What compiling a text gives, without a cursor or a counter. -/
theorem compile_eq (compiler : GlyphCompiler) (options : CompileOptions) (text : String)
    (source : RandomSource) :
    compiler.compile options text source =
      if (compiler.table.glyphLines text).all List.isEmpty then (none, source)
      else
        let scene := compiler.scene options text
        let (drawn, source) := compiler.drawn options text source
        (some (scene.document (scene.wordStack drawn ++ scene.ground)), source) := by
  have hvalid : (compiler.report text).isValid = _ := isValid_report compiler.table text
  rw [compile, hvalid]
  cases (compiler.table.glyphLines text).all List.isEmpty with
  | true => rfl
  | false =>
    have hstack := (compiler.scene options text).stackLines_eq
      (AnimatedGlyph.report compiler.table text).usableLines 0 (compiler.scene options text).ground
      source
    rw [linePlaces_usableLines] at hstack
    simp only [assemble, sceneOf_report]
    exact congrArg
      (fun answer => (some ((compiler.scene options text).document answer.1), answer.2)) hstack

theorem compile_of_glyph {compiler : GlyphCompiler} {options : CompileOptions} {text : String}
    {source : RandomSource} (h : (compiler.table.glyphLines text).all List.isEmpty = false) :
    (compiler.compile options text source).1 =
      some ((compiler.scene options text).document
        ((compiler.scene options text).wordStack (compiler.drawn options text source).1 ++
          (compiler.scene options text).ground)) := by
  rw [compile_eq, h]
  rfl

/-- A document is made of a text with a glyph, and it holds the layers of the words above the
grid and the background. -/
theorem compile_eq_some_iff {compiler : GlyphCompiler} {options : CompileOptions} {text : String}
    {source : RandomSource} {document : AnimationDocument} :
    (compiler.compile options text source).1 = some document ↔
      (compiler.table.glyphLines text).all List.isEmpty = false ∧
        document = (compiler.scene options text).document
          ((compiler.scene options text).wordStack (compiler.drawn options text source).1 ++
            (compiler.scene options text).ground) := by
  cases husable : (compiler.table.glyphLines text).all List.isEmpty with
  | true =>
    rw [compile_eq, if_pos husable]
    exact ⟨nofun, nofun⟩
  | false =>
    rw [compile_of_glyph husable, Option.some.injEq, eq_comm]
    exact (and_iff_right rfl).symm

theorem isSome_compile_iff {compiler : GlyphCompiler} {options : CompileOptions} {text : String}
    {source : RandomSource} :
    (compiler.compile options text source).1.isSome = true ↔
      (compiler.table.glyphLines text).all List.isEmpty = false := by
  rw [Option.isSome_iff_exists]
  simp only [compile_eq_some_iff, exists_and_left, exists_eq, and_true]

theorem map_fst_drawn (compiler : GlyphCompiler) (options : CompileOptions) (text : String)
    (source : RandomSource) :
    (compiler.drawn options text source).1.map Prod.fst =
      wordPlaces (compiler.table.glyphLines text) :=
  map_fst_drawWords _ _ source

/-- A text is not compiled exactly if no token on any of its lines stands for a glyph.
Otherwise the layers are those of its words, from the last to the first: the letters
of each word above its stroke.  Below them lie the grid and the background. -/
theorem compile_layers (compiler : GlyphCompiler) (options : CompileOptions) (text : String)
    (source : RandomSource) :
    let settings := compiler.settings
    let lines := compiler.table.glyphLines text
    let scene : Scene := ⟨settings, options, (Text.lines text).length⟩
    let answer := (compiler.compile options text source).1
    (answer = none ↔ ∀ line ∈ Text.lines text, ∀ token ∈ Text.tokens line,
        Finding.glyph? (resolveToken compiler.table token) = none) ∧
      answer.map AnimationDocument.layers =
        if lines.all List.isEmpty then none
        else some (
          ((drawWords (project scene.canvas) (wordPlaces lines) source).1.reverse.flatMap
            fun (place, path) =>
              scene.letters place ++
                [⟨place.glyph.label, place.window settings.totalFrames,
                  .stroke ⟨path, palette[place.shown % 29],
                    strokeWidth place.line (Text.lines text).length,
                    if options.animated then [.trim, .opacity] else []⟩⟩]) ++
          [⟨"CalibrationGrid", ⟨0, settings.totalFrames⟩, .grid (project scene.canvas)⟩,
            ⟨"Background", ⟨0, if settings.totalFrames = 0 then 0 else settings.totalFrames - 1⟩,
              .background ⟨settings.background, settings.width, settings.height⟩⟩]) := by
  intro settings lines scene answer
  have hlength : (Text.lines text).length = lines.length :=
    (compiler.table.length_glyphLines text).symm
  have hnone : lines.all List.isEmpty = true ↔
      ∀ line ∈ Text.lines text, ∀ token ∈ Text.tokens line,
        Finding.glyph? (resolveToken compiler.table token) = none :=
    compiler.table.all_isEmpty_glyphLines text
  have hanswer : answer =
      if lines.all List.isEmpty then none
      else some (scene.document
        (scene.wordStack (drawWords scene.points (wordPlaces lines) source).1 ++ scene.ground)) := by
    simp only [answer, compile_eq, drawn, GlyphCompiler.scene, scene, hlength, lines]
    split <;> rfl
  rw [← hnone, hanswer]
  cases lines.all List.isEmpty with
  | true => simp
  | false =>
    refine ⟨by simp, ?_⟩
    rfl

end GlyphCompiler
end AnimatedGlyph
