/-
Where a path has been before.

A path has a tangent only where it comes back to a point that it has been at.  Points are told
apart by their hundredths, and a tangent can vanish, so this is true with two exceptions, and
`arrival_vanishes_iff` says how far it is.  A tangent is zero if and only if the hundredths of
its vertex are new to the path, or both words that were drawn for it are among those that
cancel.  On a canvas whose numbers are below 2^38, hundredths are new just if the coordinates
are.

Further out the hundredths stop at the ends of their 64 bits, and two points that are far from
each other are taken for one (`distant_points_taken_for_one`).
-/
import AnimatedGlyph.Proofs.CanvasRange
import AnimatedGlyph.Proofs.VanishingTangents

namespace AnimatedGlyph

open Number (Bounded)

/-! ## Tangents at revisits -/

/-- Whether two points are equal number by number. -/
def Point.agrees (p q : Point) : Bool :=
  p.x == q.x && p.y == q.y

/-- The tangent that is made after `k` pairs of words vanishes. -/
def RandomSource.VanishesAt (source : RandomSource) (k : Nat) : Prop :=
  Cancels (source.word (source.taken + 2 * k)) ∧ Cancels (source.word (source.taken + (2 * k + 1)))

instance (source : RandomSource) (k : Nat) : Decidable (source.VanishesAt k) :=
  inferInstanceAs (Decidable (_ ∧ _))

theorem RandomSource.agrees_tangentAt_zero_iff (source : RandomSource) (k : Nat) :
    (source.tangentAt k).agrees .zero = true ↔ source.VanishesAt k := by
  rw [Point.agrees, Bool.and_eq_true]
  exact and_congr (jitter_beq_zero_iff (source.skip (2 * k)))
    (jitter_beq_zero_iff (source.skip (2 * k + 1)))

namespace StrokePath

/-- At a revisit the tangent is made of the words after those of the revisits before. -/
theorem getElem_arrivals_of_revisit (vertices : List Point) :
    ∀ (seen : List (Int64 × Int64)) (source : RandomSource) (i : Nat),
      (revisits seen vertices)[i]? = some true →
        (arrivals seen source vertices).1[i]? =
          some (source.tangentAt (revisitsAmong seen (vertices.take i))) := by
  induction vertices with
  | nil => intro seen source i h; cases h
  | cons v rest ih =>
    intro seen source i h
    rw [revisits_cons] at h
    rw [arrivals]
    cases i with
    | zero =>
      have hseen : seen.contains v.key = true := by simpa using h
      rw [if_pos hseen]
      rfl
    | succ i =>
      rw [List.getElem?_cons_succ] at h
      rw [List.getElem?_cons_succ, ih _ _ i h, List.take_succ_cons, revisitsAmong_cons]
      by_cases hseen : seen.contains v.key = true
      · rw [if_pos hseen, if_pos hseen, jitterTangent_eq, RandomSource.tangentAt_skip source 1]
      · rw [if_neg hseen, if_neg hseen, Nat.zero_add]

/-- A tangent is zero if the hundredths of its vertex are new, or if its words cancel. -/
theorem exists_arrival (vertices : List Point) (source : RandomSource) {j : Nat} {v : Point}
    (hv : vertices[j]? = some v) :
    ∃ tangent, (arrivals [] source vertices).1[j]? = some tangent ∧
      (tangent.agrees .zero = true ↔ v.key ∉ (vertices.take j).map Point.key ∨
        source.VanishesAt (revisitsAmong [] (vertices.take j))) := by
  obtain ⟨hj, rfl⟩ := List.getElem?_eq_some_iff.mp hv
  have hrevisit := getElem_revisits vertices [] j hj
  by_cases hseen : vertices[j].key ∈ (vertices.take j).map Point.key
  · rw [decide_eq_true (.inr hseen)] at hrevisit
    refine ⟨_, getElem_arrivals_of_revisit vertices [] source j hrevisit, ?_⟩
    rw [RandomSource.agrees_tangentAt_zero_iff, or_iff_right (not_not_intro hseen)]
  · rw [decide_eq_false (not_or_intro nofun hseen)] at hrevisit
    exact ⟨_, getElem_arrivals vertices [] source j hrevisit,
      iff_of_true (by decide) (.inl hseen)⟩

end StrokePath

/-! ## Points and their hundredths -/

theorem Point.key_congr {p q : Point} (h : p.agrees q = true) : p.key = q.key := by
  rw [Point.agrees, Bool.and_eq_true] at h
  exact Prod.ext (Number.hundredths_congr h.1) (Number.hundredths_congr h.2)

/-- The numbers that nodes are placed by are below 2^38. -/
structure Canvas.Near (canvas : Canvas) : Prop where
  scale : Bounded (-15) canvas.scale
  originX : Bounded (-15) canvas.originX
  originY : Bounded (-15) canvas.originY
  fontSize : Bounded (-15) canvas.fontSize

namespace Canvas.Near

variable {canvas : Canvas}

theorem forLineCount (h : canvas.Near) (lines : Nat) :
    Bounded (-13) (canvas.forLineCount lines).originY := by
  have hshift : Bounded (-15) (if lines = 1 then canvas.fontSize else 0.0) := by
    split
    · exact h.fontSize
    · decide
  exact h.originY.add hshift (by decide) (by decide) (by decide)

theorem bounded_node (h : canvas.Near) (lines : Nat) (node : Node) :
    let place := (project (canvas.forLineCount lines)).get node
    Bounded (-11) place.x ∧ Bounded (-11) place.y := by
  intro place
  obtain ⟨hcosine, hsine⟩ := Scene.bounded_place node
  have hplace : place = node.place.onCanvas (canvas.forLineCount lines) :=
    Vector.getElem_ofFn node.isLt
  rw [hplace]
  exact ⟨h.originX.add (hcosine.mul (n := -13) h.scale (by decide) (by decide)) (by decide)
      (by decide) (by decide),
    (h.forLineCount lines).sub (hsine.mul (n := -13) h.scale (by decide) (by decide)) (by decide)
      (by decide) (by decide)⟩

/-- Near nodes with the same hundredths have the same coordinates. -/
theorem agrees_of_key_eq (h : canvas.Near) (lines : Nat) {a b : Node} :
    let points := project (canvas.forLineCount lines)
    (points.rounded a).key = (points.rounded b).key →
      (points.rounded a).agrees (points.rounded b) = true := by
  intro points hkey
  obtain ⟨hax, hay⟩ := h.bounded_node lines a
  obtain ⟨hbx, hby⟩ := h.bounded_node lines b
  obtain ⟨hx, hy⟩ := Prod.ext_iff.mp hkey
  rw [Point.agrees, Bool.and_eq_true]
  exact ⟨Number.toHundredths_beq_of_hundredths_eq hax hbx (by decide) hx,
    Number.toHundredths_beq_of_hundredths_eq hay hby (by decide) hy⟩

end Canvas.Near

/-! ## Paths of glyphs -/

namespace StrokePath

/-- The vertices of a glyph are its nodes. -/
theorem vertices_edges (code : GlyphCode) (points : Projection) (source : RandomSource) :
    (ofEdges (code.edges points) source).1.vertices = code.nodes.map points.rounded :=
  chainVertices_edges code points

theorem exists_arrival_edges (code : GlyphCode) (points : Projection) (source : RandomSource)
    {j : Nat} {v : Point} (hv : (code.nodes.map points.rounded)[j]? = some v) :
    let before := (code.nodes.map points.rounded).take j
    ∃ tangent, (ofEdges (code.edges points) source).1.inTangents[j]? = some tangent ∧
      (tangent.agrees .zero = true ↔ v.key ∉ before.map Point.key ∨
        source.VanishesAt (revisitsAmong [] before)) := by
  have harrival := exists_arrival (code.nodes.map points.rounded) source hv
  rwa [← chainVertices_edges code points] at harrival ⊢

/-- Where the tangents of a glyph vanish.  Every vertex has one, and it is zero if and only if
the hundredths of the vertex are new or the words that were drawn for it cancel.  A vertex with
coordinates that are not new has hundredths that are not new, and on a near canvas the converse
is true as well. -/
theorem arrival_vanishes_iff (settings : StickerSettings) (lines : Nat) (code : GlyphCode)
    (source : RandomSource) :
    let path := (ofEdges (code.edges (project (settings.canvas.forLineCount lines))) source).1
    path.inTangents.length = path.vertices.length ∧
      ∀ (j : Nat) (v : Point), path.vertices[j]? = some v →
        let before := path.vertices.take j
        let cancelled := source.VanishesAt (revisitsAmong [] before)
        ∃ tangent, path.inTangents[j]? = some tangent ∧
          (tangent.agrees .zero = true ↔ v.key ∉ before.map Point.key ∨ cancelled) ∧
          ((∃ p ∈ before, p.agrees v = true) → v.key ∈ before.map Point.key) ∧
          (settings.canvas.Near →
            (tangent.agrees .zero = true ↔ (∀ p ∈ before, p.agrees v = false) ∨ cancelled)) := by
  intro path
  refine ⟨length_arrivals _ _ _, ?_⟩
  intro j v hv before cancelled
  obtain ⟨tangent, htangent, hkeys⟩ := exists_arrival path.vertices source hv
  have hseen : (∃ p ∈ before, p.agrees v = true) → v.key ∈ before.map Point.key := by
    rintro ⟨p, hp, hagrees⟩
    rw [← Point.key_congr hagrees]
    exact List.mem_map_of_mem hp
  refine ⟨tangent, htangent, hkeys, hseen, fun hnear => ?_⟩
  have hnode : ∀ p ∈ path.vertices, ∃ node,
      (project (settings.canvas.forLineCount lines)).rounded node = p := by
    intro p hp
    rw [vertices_edges, List.mem_map] at hp
    obtain ⟨node, -, hnode⟩ := hp
    exact ⟨node, hnode⟩
  have hfresh : v.key ∉ before.map Point.key ↔ ∀ p ∈ before, p.agrees v = false := by
    constructor
    · intro hkey p hp
      exact Bool.eq_false_iff.mpr fun hagrees => hkey (hseen ⟨p, hp, hagrees⟩)
    · intro hnew hkey
      obtain ⟨p, hp, hpv⟩ := List.mem_map.mp hkey
      obtain ⟨a, rfl⟩ := hnode p (List.mem_of_mem_take hp)
      obtain ⟨b, rfl⟩ := hnode v (List.mem_of_getElem? hv)
      exact Bool.eq_false_iff.mp (hnew _ hp) (hnear.agrees_of_key_eq lines hpv)
  exact hkeys.trans (or_congr_left hfresh)

/-- A path that comes back to its first node. -/
theorem arrival_at_first_node_again :
    let code : GlyphCode := ⟨[0, 10, 0], by decide, by decide, by decide, trivial⟩
    let points := project (StickerSettings.standard.canvas.forLineCount 1)
    ∃ path tangent, (ofEdges (code.edges points) (.ofSeed 1)).1 = path ∧
      path.vertices = [points.rounded 0, points.rounded 10, points.rounded 0] ∧
        path.inTangents[2]? = some tangent ∧ tangent.agrees .zero = false := by
  intro code
  have hnear : StickerSettings.standard.canvas.Near :=
    ⟨by decide, by decide, by decide, by decide⟩
  -- The path is given a name that is not unfolded, or its tangents would be computed.
  generalize hpoints : project (StickerSettings.standard.canvas.forLineCount 1) = points
  have harrivals := (arrival_vanishes_iff .standard 1 code (.ofSeed 1)).2
  rw [hpoints] at harrivals
  have hvertices := vertices_edges code points (.ofSeed 1)
  generalize hpath : (ofEdges (code.edges points) (.ofSeed 1)).1 = path at harrivals hvertices
  obtain ⟨tangent, htangent, -, -, harrival⟩ := harrivals 2 (points.rounded 0) (by
    rw [hvertices]
    rfl)
  refine ⟨path, tangent, hpath, hvertices, htangent, ?_⟩
  have hbefore : path.vertices.take 2 = [points.rounded 0, points.rounded 10] := by
    rw [hvertices]
    rfl
  have hvanishes : ¬(RandomSource.ofSeed 1).VanishesAt
      (revisitsAmong [] [points.rounded 0, points.rounded 10]) := by
    rw [← hpoints]
    decide +kernel
  have hself : (points.rounded 0).agrees (points.rounded 0) = true := by
    rw [← hpoints]
    decide +kernel
  rw [Bool.eq_false_iff, Ne, harrival hnear, not_or, hbefore]
  refine ⟨fun hfresh => ?_, hvanishes⟩
  rw [hfresh (points.rounded 0) List.mem_cons_self] at hself
  cases hself

/-- Two nodes that are far from each other and have the same hundredths. -/
theorem distant_points_taken_for_one :
    let settings : StickerSettings := { StickerSettings.standard with
      canvas := { Canvas.standard with scale := 1e20 } }
    let code : GlyphCode := ⟨[1, 6], by decide, by decide, trivial⟩
    let path := (ofEdges (code.edges (project (settings.canvas.forLineCount 2))) (.ofSeed 1)).1
    settings.check = .ok () ∧
      ∃ first second tangent, path.vertices = [first, second] ∧ first.agrees second = false ∧
        path.inTangents[1]? = some tangent ∧ tangent.agrees .zero = false := by
  intro settings code path
  let points := project (settings.canvas.forLineCount 2)
  have hcheck : settings.check = .ok () := by
    have hframes : ¬settings.totalFrames < 2 := by decide
    have hsize : ¬(settings.width = 0 ∨ settings.height = 0) := by decide
    have hscale : ¬settings.canvas.scale ≤ 0.0 := by decide
    rw [StickerSettings.check, if_neg hframes, if_neg hsize, if_neg hscale]
  have hdistant : (points.rounded 1).agrees (points.rounded 6) = false := by decide +kernel
  have hkeys : (points.rounded 6).key ∈ [points.rounded 1].map Point.key := by decide +kernel
  have hvanishes : ¬(RandomSource.ofSeed 1).VanishesAt (revisitsAmong [] [points.rounded 1]) := by
    decide +kernel
  obtain ⟨tangent, htangent, harrival⟩ :=
    exists_arrival_edges code points (.ofSeed 1) (j := 1) (v := points.rounded 6) rfl
  refine ⟨hcheck, points.rounded 1, points.rounded 6, tangent,
    vertices_edges code points (.ofSeed 1), hdistant, htangent, ?_⟩
  rw [Bool.eq_false_iff, Ne, harrival, not_or]
  exact ⟨not_not_intro hkeys, hvanishes⟩

end StrokePath
end AnimatedGlyph
