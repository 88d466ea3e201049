/-
Chains of edges.

The edges of a walk are a chain: each starts where the one before it ends.  So the points that
a walk goes through say all about its edges (`edgesAlong`), and a path along a chain loses none
of them (`edgesAlong_chainVertices`).

A text has edges if each of its characters is a node, and which nodes do not follow themselves
is no matter here.  A text that is a glyph code has the edges of the code, which are made
without reading the text again.  `edges_of_text` says this together with the error for any
other text.
-/
import AnimatedGlyph.Proofs.CodeGrammar
import AnimatedGlyph.Proofs.Draws

namespace AnimatedGlyph

/-! ## Chains -/

/-- Each edge starts where the one before it ends. -/
def Chained (edges : List Edge) : Prop :=
  edges.IsChain fun edge next => edge.stop = next.start

/-- The edges from each point to the next. -/
def edgesAlong (vertices : List Point) : List Edge :=
  vertices.zipWith Edge.mk vertices.tail

theorem edgesAlong_cons_cons (p q : Point) (rest : List Point) :
    edgesAlong (p :: q :: rest) = ⟨p, q⟩ :: edgesAlong (q :: rest) :=
  rfl

theorem length_edgesAlong (vertices : List Point) :
    (edgesAlong vertices).length = vertices.length - 1 := by
  rw [edgesAlong, List.length_zipWith, List.length_tail, Nat.min_eq_right (Nat.sub_le _ _)]

theorem chained_edgesAlong (vertices : List Point) : Chained (edgesAlong vertices) := by
  induction vertices with
  | nil => exact .nil
  | cons p rest ih =>
    match rest with
    | [] => exact .nil
    | [_] => exact .singleton _
    | q :: r :: more => exact .cons_cons rfl ih

theorem getElem?_edgesAlong_eq_some_iff {vertices : List Point} {i : Nat} {edge : Edge} :
    (edgesAlong vertices)[i]? = some edge ↔
      vertices[i]? = some edge.start ∧ vertices[i + 1]? = some edge.stop := by
  rw [edgesAlong, List.getElem?_zipWith_eq_some]
  constructor
  · rintro ⟨p, q, hp, hq, rfl⟩
    exact ⟨hp, by rwa [List.getElem?_tail] at hq⟩
  · rintro ⟨hp, hq⟩
    exact ⟨edge.start, edge.stop, hp, by rwa [List.getElem?_tail], rfl⟩

theorem edgesBetween_eq_edgesAlong (points : Projection) (nodes : List Node) :
    edgesBetween points nodes = edgesAlong (nodes.map points.rounded) := by
  induction nodes with
  | nil => rfl
  | cons a rest ih =>
    cases rest with
    | nil => rfl
    | cons b more =>
      rw [edgesBetween, ih]
      rfl

/-! ## Paths along chains -/

theorem length_chainVertices (edges : List Edge) :
    (chainVertices edges).length = if edges = [] then 0 else edges.length + 1 := by
  rw [chainVertices]
  cases hlast : edges.getLast? with
  | none =>
    rw [if_pos (List.getLast?_eq_none_iff.mp hlast)]
    rfl
  | some last =>
    have hsome : edges ≠ [] := fun hnil => by
      rw [hnil] at hlast
      cases hlast
    rw [if_neg hsome, List.length_append, List.length_map, List.length_singleton]

theorem head?_chainVertices (edge : Edge) (rest : List Edge) :
    (chainVertices (edge :: rest)).head? = some edge.start := by
  cases rest with
  | nil => rfl
  | cons next more =>
    rw [chainVertices_cons edge (List.cons_ne_nil next more)]
    rfl

/-- A chain is what lies between the points that it goes through. -/
theorem edgesAlong_chainVertices {edges : List Edge} (h : Chained edges) :
    edgesAlong (chainVertices edges) = edges := by
  induction edges with
  | nil => rfl
  | cons edge rest ih =>
    cases rest with
    | nil => rfl
    | cons next more =>
      obtain ⟨hmeet, hrest⟩ := List.isChain_cons_cons.mp h
      have hnext := head?_chainVertices next more
      rw [chainVertices_cons edge (List.cons_ne_nil next more)]
      cases hvertices : chainVertices (next :: more) with
      | nil =>
        rw [hvertices] at hnext
        cases hnext
      | cons p others =>
        rw [hvertices, List.head?_cons, Option.some.injEq] at hnext
        rw [edgesAlong_cons_cons, ← hvertices, ih hrest, hnext, ← hmeet]

/-! ## The nodes of a text -/

namespace Node

/-- The characters that are read as nodes, with both cases of the letter. -/
def spellings : List Char :=
  "0123456789aA".toList

theorem ofChar?_lowerAscii (c : Char) : ofChar? (Text.lowerAscii c) = ofChar? c := by
  by_cases hcapital : 'A' ≤ c ∧ c ≤ 'Z'
  · exact Text.forall_capital (P := fun c => ofChar? (Text.lowerAscii c) = ofChar? c)
      (by decide) hcapital
  · rw [Text.lowerAscii_of_not hcapital]

theorem ofChar?_eq_none_iff_spellings {c : Char} : ofChar? c = none ↔ c ∉ spellings := by
  by_cases hcapital : c = 'A'
  · subst hcapital
    decide
  · have hspellings : spellings = chars ++ ['A'] := by decide
    rw [ofChar?_eq_none_iff hcapital, hspellings, List.mem_append, List.mem_singleton,
      or_iff_left hcapital]

end Node

/-- The first character of a text that is no node. -/
def firstForeign (text : String) : Option Char :=
  text.toList.find? (· ∉ Node.spellings)

theorem firstForeign_eq_none_iff {text : String} :
    firstForeign text = none ↔ ∀ c ∈ text.toList, c ∈ Node.spellings := by
  simp only [firstForeign, List.find?_eq_none, decide_eq_true_eq, not_not]

/-- The nodes of the characters, or an error with the first that is none. -/
theorem mapM_nodes_outcome (whole : String) (cs : List Char) :
    let read := cs.mapM fun c =>
      match Node.ofChar? c with
      | some node => Except.ok node
      | none => .error (CodeError.malformed whole c)
    (cs.find? (· ∉ Node.spellings) = none ∧
        ∃ nodes, cs.map Node.ofChar? = nodes.map some ∧ read = .ok nodes) ∨
      ∃ c, cs.find? (· ∉ Node.spellings) = some c ∧ read = .error (.malformed whole c) := by
  induction cs with
  | nil => exact .inl ⟨rfl, [], rfl, rfl⟩
  | cons c rest ih =>
    simp only [List.mapM_cons]
    cases hnode : Node.ofChar? c with
    | none =>
      have hforeign : c ∉ Node.spellings := Node.ofChar?_eq_none_iff_spellings.mp hnode
      exact .inr ⟨c, List.find?_cons_of_pos (decide_eq_true hforeign), rfl⟩
    | some node =>
      have hown : ¬c ∉ Node.spellings := fun hforeign => by
        rw [Node.ofChar?_eq_none_iff_spellings.mpr hforeign] at hnode
        cases hnode
      rw [List.find?_cons_of_neg (by rwa [decide_eq_true_eq])]
      rcases ih with ⟨hnone, nodes, hnodes, hread⟩ | ⟨d, hfirst, hread⟩
      · refine .inl ⟨hnone, node :: nodes, ?_, ?_⟩
        · rw [List.map_cons, hnode, hnodes, List.map_cons]
        · rw [hread]
          rfl
      · refine .inr ⟨d, hfirst, ?_⟩
        rw [hread]
        rfl

theorem nodesOfText_outcome (text : String) :
    (firstForeign text = none ∧
        ∃ nodes, text.toList.map Node.ofChar? = nodes.map some ∧ nodesOfText text = .ok nodes) ∨
      ∃ c, firstForeign text = some c ∧ nodesOfText text = .error (.malformed text c) :=
  mapM_nodes_outcome text text.toList

theorem nodesOfText_eq_ok_iff {text : String} {nodes : List Node} :
    nodesOfText text = .ok nodes ↔ text.toList.map Node.ofChar? = nodes.map some := by
  rcases nodesOfText_outcome text with ⟨_, found, hmap, hread⟩ | ⟨c, hfirst, hread⟩
  · rw [hread, hmap, Except.ok.injEq, List.map_inj_right fun _ _ => Option.some.inj]
  · refine iff_of_false (fun hok => ?_) fun hmap => ?_
    · cases hread.symm.trans hok
    · have hforeign : c ∉ Node.spellings := by simpa using List.find?_some hfirst
      have hnone := List.mem_map_of_mem (f := Node.ofChar?) (List.mem_of_find?_eq_some hfirst)
      rw [Node.ofChar?_eq_none_iff_spellings.mpr hforeign, hmap, List.mem_map] at hnone
      obtain ⟨node, _, hnode⟩ := hnone
      cases hnode

theorem map_ofChar?_folded (text : String) :
    (GlyphCode.folded text).map Node.ofChar? = text.toList.map Node.ofChar? := by
  rw [GlyphCode.folded, List.map_map]
  exact List.map_congr_left fun c _ => Node.ofChar?_lowerAscii c

theorem nodesOfText_of_parse {text : String} {code : GlyphCode}
    (h : GlyphCode.parse text = .ok code) : nodesOfText text = .ok code.nodes := by
  rw [nodesOfText_eq_ok_iff, ← map_ofChar?_folded, ← GlyphCode.toList_text_of_parse h,
    GlyphCode.map_ofChar?_text]

/-! ## The edges of a text -/

theorem edgesOfText_of_nodes (points : Projection) {text : String} {nodes : List Node}
    (h : nodesOfText text = .ok nodes) :
    edgesOfText points text = .ok (edgesAlong (nodes.map points.rounded)) := by
  rw [edgesOfText, h, ← edgesBetween_eq_edgesAlong]
  rfl

theorem edgesOfText_of_error (points : Projection) {text : String} {cause : CodeError}
    (h : nodesOfText text = .error cause) : edgesOfText points text = .error cause := by
  rw [edgesOfText, h]
  rfl

/-- The case of letters does not matter. -/
theorem toOption_edgesOfText_congr (points : Projection) {text other : String}
    (h : GlyphCode.folded other = GlyphCode.folded text) :
    (edgesOfText points other).toOption = (edgesOfText points text).toOption := by
  have hsame : ∀ nodes, nodesOfText other = .ok nodes ↔ nodesOfText text = .ok nodes := by
    intro nodes
    rw [nodesOfText_eq_ok_iff, nodesOfText_eq_ok_iff, ← map_ofChar?_folded, h, map_ofChar?_folded]
  cases htext : nodesOfText text with
  | ok nodes =>
    rw [edgesOfText_of_nodes points htext, edgesOfText_of_nodes points ((hsame nodes).mpr htext)]
  | error cause =>
    cases hother : nodesOfText other with
    | ok nodes => cases htext.symm.trans ((hsame nodes).mp hother)
    | error _ =>
      rw [edgesOfText_of_error points htext, edgesOfText_of_error points hother]
      rfl

/-- A text has edges if it is made of nodes, and otherwise its first other character is
reported.  The edges are a chain with one edge fewer than the text has characters, the case of
letters does not matter, and a code has the same edges.  A path along a chain has as many
tangents of both kinds as vertices, and its vertices give back the edges. -/
theorem edges_of_text (points : Projection) (text : String) :
    ((∃ edges, edgesOfText points text = .ok edges) ↔
        ∀ c ∈ text.toList, c ∈ Node.spellings) ∧
      (∀ cause, edgesOfText points text = .error cause ↔
        ∃ c, firstForeign text = some c ∧ cause = .malformed text c) ∧
      (∀ edges, edgesOfText points text = .ok edges →
        edges.length = text.length - 1 ∧ Chained edges) ∧
      (∀ other, GlyphCode.folded other = GlyphCode.folded text →
        (edgesOfText points other).toOption = (edgesOfText points text).toOption) ∧
      (∀ code, GlyphCode.parse text = .ok code →
        edgesOfText points text = .ok (code.edges points)) ∧
      ∀ edges source, Chained edges →
        let path := (StrokePath.ofEdges edges source).1
        let count := if edges = [] then 0 else edges.length + 1
        path.vertices.length = count ∧ path.inTangents.length = count ∧
          path.outTangents.length = count ∧ edgesAlong path.vertices = edges ∧
          ∀ i edge, edges[i]? = some edge ↔
            path.vertices[i]? = some edge.start ∧ path.vertices[i + 1]? = some edge.stop := by
  refine ⟨?_, fun cause => ?_, fun edges hedges => ?_,
    fun other hother => toOption_edgesOfText_congr points hother, fun code hcode => ?_,
    fun edges source hchained => ?_⟩
  · rw [← firstForeign_eq_none_iff]
    rcases nodesOfText_outcome text with ⟨hnone, nodes, _, hread⟩ | ⟨c, hfirst, hread⟩
    · exact iff_of_true ⟨_, edgesOfText_of_nodes points hread⟩ hnone
    · rw [edgesOfText_of_error points hread, hfirst]
      exact iff_of_false nofun nofun
  · rcases nodesOfText_outcome text with ⟨hnone, nodes, _, hread⟩ | ⟨c, hfirst, hread⟩
    · rw [edgesOfText_of_nodes points hread, hnone]
      exact iff_of_false nofun nofun
    · rw [edgesOfText_of_error points hread, hfirst]
      simp only [Except.error.injEq, Option.some.injEq, exists_eq_left', eq_comm]
  · rcases nodesOfText_outcome text with ⟨_, nodes, hmap, hread⟩ | ⟨c, _, hread⟩
    · rw [edgesOfText_of_nodes points hread] at hedges
      obtain rfl := Except.ok.inj hedges
      have hlength := congrArg List.length hmap
      rw [List.length_map, List.length_map, String.length_toList] at hlength
      exact ⟨by rw [length_edgesAlong, List.length_map, hlength], chained_edgesAlong _⟩
    · rw [edgesOfText_of_error points hread] at hedges
      cases hedges
  · rw [edgesOfText_of_nodes points (nodesOfText_of_parse hcode), ← edgesBetween_eq_edgesAlong]
    rfl
  · have hlength := length_chainVertices edges
    refine ⟨hlength, (StrokePath.length_arrivals _ _ _).trans hlength,
      (List.length_map _).trans hlength, edgesAlong_chainVertices hchained, fun i edge => ?_⟩
    have halong := edgesAlong_chainVertices hchained
    conv_lhs => rw [← halong]
    exact getElem?_edgesAlong_eq_some_iff

/-- A text that repeats a node is no code and has edges; the one without the last node is one. -/
theorem edges_of_text_of_both_cases :
    let points := project .standard
    (∃ edges, edgesOfText points "0aA" = .ok edges ∧ edges.length = 2 ∧
        (edgesOfText points "0AA").toOption = some edges ∧
        edgesAlong (StrokePath.ofEdges edges (.ofSeed 0)).1.vertices = edges) ∧
      edgesOfText points "0a?" = .error (.malformed "0a?" '?') ∧
      ∃ code, GlyphCode.parse "0A" = .ok code ∧
        edgesOfText points "0A" = .ok (code.edges points) := by
  intro points
  have htwice := edges_of_text points "0aA"
  have hforeign := edges_of_text points "0a?"
  have hcode : GlyphCode.parse "0A" = .ok ⟨[0, 10], by decide, by decide, trivial⟩ := by rfl
  have hspelled : "0aA".toList ⊆ Node.spellings := by decide
  obtain ⟨edges, hedges⟩ := htwice.1.mpr fun _ hc => hspelled hc
  obtain ⟨hlength, hchained⟩ := htwice.2.2.1 edges hedges
  refine ⟨⟨edges, hedges, hlength, ?_, (htwice.2.2.2.2.2 edges (.ofSeed 0) hchained).2.2.2.1⟩,
    (hforeign.2.1 _).mpr ⟨'?', by decide, rfl⟩,
    _, hcode, (edges_of_text points "0A").2.2.2.2.1 _ hcode⟩
  rw [htwice.2.2.2.1 "0AA" (by decide), hedges]
  rfl

end AnimatedGlyph
