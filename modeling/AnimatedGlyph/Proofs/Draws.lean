/-
What a text draws from the random source.

A path draws where it comes back to a point that it has been at, two words each time,
and what it has been at is forgotten at its end.  So the words that a text takes from
the source follow from the text alone: `revisitCount` counts the vertices at which a
word comes back to one of its own points, and the tangents at these vertices are, in
reading order, those that the next words of the source make two by two.

`compile_draws` is the statement that the file is for.
-/
import AnimatedGlyph.Proofs.Jitter

namespace AnimatedGlyph

/-! ## The words of a source -/

namespace RandomSource

theorem skip_zero (source : RandomSource) : source.skip 0 = source := rfl

theorem skip_skip (source : RandomSource) (m n : Nat) :
    (source.skip m).skip n = source.skip (m + n) := by
  simp [skip, Nat.add_assoc]

/-- The number from zero to one that the word `n` places on stands for. -/
def unitAt (source : RandomSource) (n : Nat) : Float :=
  (source.skip n).nextUnit.1

/-- The tangent that two words make, after `k` pairs of words: the first word of the pair
gives its horizontal part and the second its vertical part. -/
def tangentAt (source : RandomSource) (k : Nat) : Point :=
  ⟨jitter (source.unitAt (2 * k)), jitter (source.unitAt (2 * k + 1))⟩

theorem tangentAt_skip (source : RandomSource) (m k : Nat) :
    (source.skip (2 * m)).tangentAt k = source.tangentAt (m + k) := by
  simp only [tangentAt, unitAt, skip_skip, Nat.mul_add, Nat.add_assoc]

end RandomSource

theorem jitterTangent_eq (source : RandomSource) :
    jitterTangent source = (source.tangentAt 0, source.skip 2) := rfl

theorem map_tangentAt_range_add (source : RandomSource) (m n : Nat) :
    (List.range (m + n)).map source.tangentAt =
      (List.range m).map source.tangentAt ++
        (List.range n).map (source.skip (2 * m)).tangentAt := by
  rw [List.range_add, List.map_append, List.map_map]
  congr 1
  refine List.map_congr_left fun k _ => ?_
  exact (source.tangentAt_skip m k).symm

/-! ## Paths -/

theorem revisits_cons (seen : List (Int64 × Int64)) (v : Point) (rest : List Point) :
    revisits seen (v :: rest) = seen.contains v.key :: revisits (v.key :: seen) rest := rfl

/-- A vertex is a revisit exactly if its hundredths are among those seen before. -/
theorem getElem_revisits (vertices : List Point) :
    ∀ (seen : List (Int64 × Int64)) (i : Nat) (h : i < vertices.length),
      (revisits seen vertices)[i]? =
        some (decide (vertices[i].key ∈ seen ∨
          vertices[i].key ∈ (vertices.take i).map Point.key)) := by
  induction vertices with
  | nil => intro seen i h; cases h
  | cons v rest ih =>
    intro seen i h
    cases i with
    | zero => simp [revisits_cons]
    | succ i =>
      have hrest := ih (v.key :: seen) i (by simpa using h)
      rw [revisits_cons, List.getElem?_cons_succ, hrest]
      simp only [List.getElem_cons_succ, List.take_succ_cons, List.map_cons, List.mem_cons,
        or_left_comm, or_assoc]

/-- How often vertices come back to a point among the points `seen` and those before. -/
def revisitsAmong (seen : List (Int64 × Int64)) (vertices : List Point) : Nat :=
  (revisits seen vertices).count true

theorem revisitsAmong_cons (seen : List (Int64 × Int64)) (v : Point) (rest : List Point) :
    revisitsAmong seen (v :: rest) =
      (if seen.contains v.key then 1 else 0) + revisitsAmong (v.key :: seen) rest := by
  rw [revisitsAmong, revisits_cons, List.count_cons, Nat.add_comm]
  cases seen.contains v.key <;> rfl

namespace StrokePath

/-- The tangents at vertices that are marked. -/
def atMarks (marks : List Bool) (tangents : List Point) : List Point :=
  ((marks.zip tangents).filter Prod.fst).map Prod.snd

/-- The tangents with which the path arrives at its revisits, in drawing order. -/
def loops (path : StrokePath) : List Point :=
  atMarks (revisits [] path.vertices) path.inTangents

theorem atMarks_cons (mark : Bool) (tangent : Point) (marks : List Bool)
    (tangents : List Point) :
    atMarks (mark :: marks) (tangent :: tangents) =
      (if mark then [tangent] else []) ++ atMarks marks tangents := by
  cases mark <;> rfl

theorem length_arrivals (vertices : List Point) :
    ∀ (seen : List (Int64 × Int64)) (source : RandomSource),
      (arrivals seen source vertices).1.length = vertices.length := by
  induction vertices with
  | nil => intro seen source; rfl
  | cons v rest ih =>
    intro seen source
    rw [arrivals, List.length_cons, ih, List.length_cons]

/-- The source after the vertices: two words on for each revisit. -/
theorem source_arrivals (vertices : List Point) :
    ∀ (seen : List (Int64 × Int64)) (source : RandomSource),
      (arrivals seen source vertices).2 = source.skip (2 * revisitsAmong seen vertices) := by
  induction vertices with
  | nil => intro seen source; rfl
  | cons v rest ih =>
    intro seen source
    rw [arrivals, revisitsAmong_cons]
    by_cases hseen : seen.contains v.key = true
    · rw [if_pos hseen, if_pos hseen, jitterTangent_eq, ih, RandomSource.skip_skip, Nat.mul_add]
    · rw [if_neg hseen, if_neg hseen, ih, Nat.zero_add]

/-- The tangents at the revisits are those that the words of the source make. -/
theorem atMarks_arrivals (vertices : List Point) :
    ∀ (seen : List (Int64 × Int64)) (source : RandomSource),
      atMarks (revisits seen vertices) (arrivals seen source vertices).1 =
        (List.range (revisitsAmong seen vertices)).map source.tangentAt := by
  induction vertices with
  | nil => intro seen source; rfl
  | cons v rest ih =>
    intro seen source
    rw [arrivals, revisits_cons, atMarks_cons, revisitsAmong_cons]
    by_cases hseen : seen.contains v.key = true
    · rw [if_pos hseen, if_pos hseen, if_pos hseen, jitterTangent_eq, ih,
        map_tangentAt_range_add]
      rfl
    · rw [if_neg hseen, if_neg hseen, if_neg hseen, ih, Nat.zero_add, List.nil_append]

/-- Away from the revisits there is no tangent. -/
theorem getElem_arrivals (vertices : List Point) :
    ∀ (seen : List (Int64 × Int64)) (source : RandomSource) (i : Nat),
      (revisits seen vertices)[i]? = some false →
        (arrivals seen source vertices).1[i]? = some Point.zero := by
  induction vertices with
  | nil => intro seen source i h; cases h
  | cons v rest ih =>
    intro seen source i h
    rw [revisits_cons] at h
    rw [arrivals]
    cases i with
    | zero =>
      have hseen : seen.contains v.key = false := by simpa using h
      rw [hseen]
      rfl
    | succ i => exact ih _ _ i h

/-- Without a revisit there is no tangent at all. -/
theorem arrivals_of_no_revisit (vertices : List Point) :
    ∀ (seen : List (Int64 × Int64)) (source : RandomSource),
      revisitsAmong seen vertices = 0 →
        (arrivals seen source vertices).1 = vertices.map fun _ => Point.zero := by
  induction vertices with
  | nil => intro seen source _; rfl
  | cons v rest ih =>
    intro seen source h
    rw [revisitsAmong_cons] at h
    have hseen : ¬seen.contains v.key = true := by
      intro hseen
      rw [if_pos hseen] at h
      omega
    rw [if_neg hseen, Nat.zero_add] at h
    rw [arrivals, if_neg hseen, List.map_cons]
    exact congrArg (Point.zero :: ·) (ih _ source h)

theorem ofEdges_of_no_revisit {edges : List Edge} (source : RandomSource)
    (h : revisitsAmong [] (chainVertices edges) = 0) :
    (ofEdges edges source).1 = still edges := by
  have harrivals := arrivals_of_no_revisit (chainVertices edges) [] source h
  exact congrArg (fun tangents => (⟨chainVertices edges, tangents,
    (chainVertices edges).map fun _ => Point.zero⟩ : StrokePath)) harrivals

end StrokePath

/-! ## Words -/

/-- How often a word comes back to a point of its own. -/
def WordPlace.revisitCount (place : WordPlace) (points : Projection) : Nat :=
  revisitsAmong [] (chainVertices (place.glyph.code.edges points))

/-- How often words come back to points of their own. -/
def wordRevisits (points : Projection) : List WordPlace → Nat
  | [] => 0
  | place :: rest => place.revisitCount points + wordRevisits points rest

theorem source_drawWords (points : Projection) (places : List WordPlace) :
    ∀ source : RandomSource,
      (drawWords points places source).2 = source.skip (2 * wordRevisits points places) := by
  induction places with
  | nil => intro source; rfl
  | cons place rest ih =>
    intro source
    rw [drawWords, ih, StrokePath.ofEdges, StrokePath.source_arrivals, RandomSource.skip_skip,
      wordRevisits, Nat.mul_add]
    rfl

theorem loops_drawWords (points : Projection) (places : List WordPlace) :
    ∀ source : RandomSource,
      (drawWords points places source).1.flatMap (fun word => word.2.loops) =
        (List.range (wordRevisits points places)).map source.tangentAt := by
  induction places with
  | nil => intro source; rfl
  | cons place rest ih =>
    intro source
    rw [drawWords, List.flatMap_cons, ih, StrokePath.ofEdges, StrokePath.loops,
      StrokePath.atMarks_arrivals, StrokePath.source_arrivals, wordRevisits,
      map_tangentAt_range_add]
    rfl

theorem vertices_drawWords (points : Projection) (places : List WordPlace) :
    ∀ source : RandomSource,
      (drawWords points places source).1.map (fun word => word.2.vertices) =
        places.map fun place => chainVertices (place.glyph.code.edges points) := by
  induction places with
  | nil => intro source; rfl
  | cons place rest ih =>
    intro source
    rw [drawWords, List.map_cons, ih, List.map_cons]
    rfl

/-- Every drawn path is one along the edges of its word, drawn from some source. -/
theorem path_of_mem_drawWords {points : Projection} {places : List WordPlace} :
    ∀ {source : RandomSource} {word : WordPlace × StrokePath},
      word ∈ (drawWords points places source).1 →
        ∃ start : RandomSource,
          word.2 = (StrokePath.ofEdges (word.1.glyph.code.edges points) start).1 := by
  induction places with
  | nil => intro source word h; cases h
  | cons place rest ih =>
    intro source word h
    rw [drawWords, List.mem_cons] at h
    rcases h with rfl | h
    · exact ⟨source, rfl⟩
    · exact ih h

/-- A path leaves every vertex without a tangent, and it arrives with one only where it has
been before. -/
theorem StrokePath.tangents_ofEdges (edges : List Edge) (source : RandomSource) :
    let path := (StrokePath.ofEdges edges source).1
    path.outTangents = path.vertices.map (fun _ => Point.zero) ∧
      path.inTangents.length = path.vertices.length ∧
      ∀ i (h : i < path.vertices.length),
        path.vertices[i].key ∉ (path.vertices.take i).map Point.key →
          path.inTangents[i]? = some Point.zero := by
  refine ⟨rfl, StrokePath.length_arrivals _ _ _, ?_⟩
  intro i h hfresh
  refine StrokePath.getElem_arrivals _ _ _ i ?_
  refine (getElem_revisits _ [] i h).trans (congrArg some (decide_eq_false ?_))
  exact fun hseen => hfresh (hseen.resolve_left nofun)

theorem drawWords_of_no_revisit (points : Projection) (places : List WordPlace) :
    ∀ source : RandomSource, wordRevisits points places = 0 →
      (drawWords points places source).1 = stillWords points places := by
  induction places with
  | nil => intro source _; rfl
  | cons place rest ih =>
    intro source h
    rw [wordRevisits, Nat.add_eq_zero_iff] at h
    have hpath := StrokePath.ofEdges_of_no_revisit source h.1
    have hrest := ih (StrokePath.ofEdges (place.glyph.code.edges points) source).2 h.2
    rw [stillWords, List.map_cons, ← stillWords, ← hrest, ← hpath]
    rfl

/-! ## Documents -/

def LayerKind.path? : LayerKind → Option StrokePath
  | .stroke layer => some layer.path
  | _ => none

/-- The paths of the strokes in reading order, which is from the lowest layer up. -/
def AnimationDocument.paths (document : AnimationDocument) : List StrokePath :=
  document.layers.reverse.filterMap fun layer => layer.kind.path?

namespace Scene

theorem filterMap_path?_letters (scene : Scene) (place : WordPlace) :
    (scene.letters place).reverse.filterMap (fun layer => layer.kind.path?) = [] := by
  rw [List.filterMap_eq_nil_iff]
  intro layer hlayer
  obtain ⟨caption, hkind⟩ := exists_caption_of_mem_letters (List.mem_reverse.mp hlayer)
  rw [hkind]
  rfl

theorem paths_document (scene : Scene) (drawn : List (WordPlace × StrokePath)) :
    (scene.document (scene.wordStack drawn ++ scene.ground)).paths = drawn.map Prod.snd := by
  have hstack : (scene.wordStack drawn).reverse.filterMap (fun layer => layer.kind.path?) =
      drawn.map Prod.snd := by
    induction drawn with
    | nil => rfl
    | cons word rest ih =>
      rw [wordStack_cons, List.reverse_append, List.filterMap_append, ih, wordLayers,
        List.reverse_append, List.filterMap_append, filterMap_path?_letters]
      rfl
  rw [AnimationDocument.paths]
  show (scene.wordStack drawn ++ scene.ground).reverse.filterMap _ = _
  rw [List.reverse_append, List.filterMap_append, hstack]
  rfl

end Scene

/-! ## Compiled texts -/

namespace GlyphCompiler

/-- How often the words of a text come back to points of their own. -/
def revisitCount (compiler : GlyphCompiler) (text : String) : Nat :=
  let lines := compiler.table.glyphLines text
  wordRevisits (project (compiler.settings.canvas.forLineCount lines.length)) (wordPlaces lines)

theorem wordPlaces_of_all_isEmpty {lines : List (List ResolvedGlyph)}
    (h : lines.all List.isEmpty = true) : wordPlaces lines = [] := by
  rw [List.eq_nil_iff_forall_not_mem]
  intro place hplace
  obtain ⟨glyphs, hline, -, hwords, -⟩ := mem_wordPlaces.mp hplace
  have hempty := List.all_eq_true.mp h glyphs (List.mem_of_getElem? hline)
  have hword := place.word_lt
  rw [hwords, List.isEmpty_iff.mp hempty] at hword
  exact absurd hword (Nat.not_lt_zero _)

theorem revisitCount_of_none {compiler : GlyphCompiler} {text : String}
    (h : (compiler.table.glyphLines text).all List.isEmpty = true) :
    compiler.revisitCount text = 0 := by
  rw [revisitCount, wordPlaces_of_all_isEmpty h]
  rfl

theorem source_compile (compiler : GlyphCompiler) (options : CompileOptions) (text : String)
    (source : RandomSource) :
    (compiler.compile options text source).2 =
      source.skip (2 * compiler.revisitCount text) := by
  rw [compile_eq]
  cases husable : (compiler.table.glyphLines text).all List.isEmpty with
  | true =>
    rw [revisitCount_of_none husable]
    rfl
  | false => exact source_drawWords _ _ source

theorem revisitCount_of_compile_eq_none {compiler : GlyphCompiler} {options : CompileOptions}
    {text : String} {source : RandomSource}
    (h : (compiler.compile options text source).1 = none) : compiler.revisitCount text = 0 := by
  rw [compile_eq] at h
  split at h
  · exact revisitCount_of_none (by assumption)
  · cases h

theorem compile_of_no_revisit {compiler : GlyphCompiler} {text : String}
    (h : compiler.revisitCount text = 0) (options : CompileOptions) (source : RandomSource) :
    (compiler.compile options text source).1 = compiler.compileStill options text := by
  rw [compile_eq, compileStill]
  cases (compiler.table.glyphLines text).all List.isEmpty with
  | true => rfl
  | false =>
    have hdrawn : (compiler.drawn options text source).1 =
        stillWords (compiler.scene options text).points
          (wordPlaces (compiler.table.glyphLines text)) :=
      drawWords_of_no_revisit _ _ source h
    rw [if_neg Bool.false_ne_true, if_neg Bool.false_ne_true, ← hdrawn]

/-- The source is taken on by two words for each revisit, and documents from two sources
differ in nothing but the tangents with which paths arrive at their revisits.  These are
the tangents that the words of the source make, pair by pair in reading order; no other
vertex has one.  A text without a revisit has the same document from every source and
for every seed. -/
theorem compile_draws (compiler : GlyphCompiler) (options : CompileOptions) (text : String)
    (source : RandomSource) :
    let lines := compiler.table.glyphLines text
    let points := project (compiler.settings.canvas.forLineCount lines.length)
    let revisited := compiler.revisitCount text
    let answer := compiler.compile options text source
    answer.2 = source.skip (2 * revisited) ∧
      (answer.1 = none → revisited = 0) ∧
      (∀ document, answer.1 = some document →
        document.paths.map StrokePath.vertices =
            (wordPlaces lines).map (fun place => chainVertices (place.glyph.code.edges points)) ∧
          document.paths.flatMap StrokePath.loops =
            (List.range revisited).map source.tangentAt ∧
          ∀ path ∈ document.paths,
            path.outTangents = path.vertices.map (fun _ => Point.zero) ∧
              path.inTangents.length = path.vertices.length ∧
              ∀ i (h : i < path.vertices.length),
                path.vertices[i].key ∉ (path.vertices.take i).map Point.key →
                  path.inTangents[i]? = some Point.zero) ∧
      (∀ other, (compiler.compile options text other).1.map AnimationDocument.settled =
        answer.1.map AnimationDocument.settled) ∧
      (revisited = 0 →
        (∀ other, (compiler.compile options text other).1 = answer.1) ∧
          ∀ chance seed, compiler.compileRequest chance ⟨text, options, seed⟩ = answer.1) := by
  intro lines points revisited answer
  refine ⟨source_compile compiler options text source, revisitCount_of_compile_eq_none, ?_, ?_, ?_⟩
  · intro document hdocument
    obtain ⟨-, rfl⟩ := compile_eq_some_iff.mp hdocument
    rw [Scene.paths_document]
    refine ⟨?_, ?_, ?_⟩
    · rw [List.map_map]
      exact vertices_drawWords points (wordPlaces lines) source
    · rw [List.flatMap_map]
      exact loops_drawWords points (wordPlaces lines) source
    · intro path hpath
      obtain ⟨word, hword, rfl⟩ := List.mem_map.mp hpath
      obtain ⟨start, hstart⟩ := path_of_mem_drawWords hword
      rw [hstart]
      exact StrokePath.tangents_ofEdges _ start
  · intro other
    rw [compile_settled, ← compile_settled compiler options text source]
  · intro hrevisited
    have hstill := @compile_of_no_revisit compiler text hrevisited options
    refine ⟨fun other => ?_, fun chance seed => ?_⟩
    · exact (hstill other).trans (hstill source).symm
    · rw [compileRequest_eq]
      exact (hstill _).trans (hstill source).symm

/-- A word that comes back to two of its points, before one that does not. -/
theorem draws_of_two_revisits :
    let compiler : GlyphCompiler := ⟨.empty, .standard⟩
    let answer := compiler.compile .standard "0a3a0 01" (.ofSeed 1)
    answer.2 = (RandomSource.ofSeed 1).skip 4 ∧
      ∃ document, answer.1 = some document ∧
        document.paths.flatMap StrokePath.loops =
          [(RandomSource.ofSeed 1).tangentAt 0, (RandomSource.ofSeed 1).tangentAt 1] := by
  intro compiler answer
  obtain ⟨hsource, -, hdocument, -, -⟩ :=
    compile_draws compiler .standard "0a3a0 01" (.ofSeed 1)
  have hcount : compiler.revisitCount "0a3a0 01" = 2 := by decide +kernel
  have usable : (compiler.table.glyphLines "0a3a0 01").all List.isEmpty = false := by
    decide
  rw [hcount] at hsource
  have hanswer := @compile_of_glyph compiler .standard "0a3a0 01" (.ofSeed 1) usable
  obtain ⟨-, hloops, -⟩ := hdocument _ hanswer
  rw [hcount] at hloops
  exact ⟨hsource, _, hanswer, hloops⟩

end GlyphCompiler
end AnimatedGlyph
