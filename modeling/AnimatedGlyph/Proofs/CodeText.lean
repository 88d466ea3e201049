/-
Codes and their texts.

A code is written with a character for each of its nodes, and read from any text that
differs from this in the case of its letters only.  `parse_text` says that it is read
back from its own text, and `parse_congr` that the case of the letters of a text does not
matter, in the codes that are read and in the errors.
-/
import Mathlib.Data.List.Chain
import AnimatedGlyph.Report.Basic

namespace AnimatedGlyph

/-! ## The text of a code -/

theorem isChain_of_moving {nodes : List Node} (h : Moving nodes) : nodes.IsChain (· ≠ ·) := by
  induction nodes with
  | nil => exact .nil
  | cons a rest ih =>
    cases rest with
    | nil => exact .singleton a
    | cons b more =>
      obtain ⟨hne, hmore⟩ := h
      exact .cons_cons hne (ih hmore)

namespace GlyphCode

theorem toList_text (code : GlyphCode) : code.text.toList = code.nodes.map Node.char := by
  rw [text, String.toList_ofList]

theorem length_text (code : GlyphCode) : code.text.length = code.nodes.length := by
  rw [← String.length_toList, toList_text, List.length_map]

theorem map_ofChar?_text (code : GlyphCode) :
    code.text.toList.map Node.ofChar? = code.nodes.map some := by
  rw [toList_text, List.map_map]
  exact List.map_congr_left fun node _ => Node.ofChar?_char node

theorem isChain_text (code : GlyphCode) :
    (code.text.toList.map Node.ofChar?).IsChain (· ≠ ·) := by
  rw [map_ofChar?_text, List.isChain_map]
  exact (isChain_of_moving code.moving).imp fun a b hne h => hne (Option.some.inj h)

/-! ## Reading a code -/

/-- The nodes that are read from a text, which may be too few for a code. -/
def nodesOf (raw : String) : Except CodeError (List Node) :=
  readNodes (String.ofList (raw.toList.map Text.lowerAscii)) 0 none
    (raw.toList.map Text.lowerAscii)

theorem parse_of_error {raw : String} {cause : CodeError} (h : nodesOf raw = .error cause) :
    parse raw = .error cause := by
  rw [parse]
  split
  · rename_i other herror
    cases herror.symm.trans h
    rfl
  · rename_i nodes hok
    cases hok.symm.trans h

theorem parse_of_nodes {raw : String} {code : GlyphCode} (h : nodesOf raw = .ok code.nodes) :
    parse raw = .ok code := by
  rw [parse]
  split
  · rename_i cause herror
    cases herror.symm.trans h
  · rename_i nodes hok
    obtain rfl := Except.ok.inj (hok.symm.trans h)
    rw [dif_pos code.two_le_length]

theorem parse_of_short {raw : String} {nodes : List Node} (h : nodesOf raw = .ok nodes)
    (short : ¬2 ≤ nodes.length) :
    parse raw = .error (.tooShort (String.ofList (raw.toList.map Text.lowerAscii))) := by
  rw [parse]
  split
  · rename_i cause herror
    cases herror.symm.trans h
  · rename_i other hok
    obtain rfl := Except.ok.inj (hok.symm.trans h)
    rw [dif_neg short]

/-- The case of letters does not matter. -/
theorem parse_congr {raw other : String}
    (h : raw.toList.map Text.lowerAscii = other.toList.map Text.lowerAscii) :
    parse raw = parse other := by
  have hnodes : nodesOf raw = nodesOf other := by rw [nodesOf, nodesOf, h]
  cases hother : nodesOf other with
  | error cause => rw [parse_of_error hother, parse_of_error (hnodes.trans hother)]
  | ok nodes =>
    by_cases long : 2 ≤ nodes.length
    · have hmoving : Moving nodes := (moving_of_readNodes hother).1
      have hcode : nodesOf other = .ok (⟨nodes, long, hmoving⟩ : GlyphCode).nodes := hother
      rw [parse_of_nodes hcode, parse_of_nodes (hnodes.trans hcode)]
    · rw [parse_of_short hother long, parse_of_short (hnodes.trans hother) long, h]

theorem readNodes_chars (whole : String) {nodes : List Node} (h : Moving nodes) :
    ∀ (position : Nat) (previous : Option Node), (∀ node ∈ nodes.head?, previous ≠ some node) →
      readNodes whole position previous (nodes.map Node.char) = .ok nodes := by
  induction nodes with
  | nil => exact fun _ _ _ => rfl
  | cons a rest ih =>
    intro position previous hprevious
    have hrest : Moving rest ∧ ∀ node ∈ rest.head?, some a ≠ some node := by
      cases rest with
      | nil => exact ⟨trivial, nofun⟩
      | cons b more =>
        refine ⟨h.2, fun node hnode => ?_⟩
        cases hnode
        exact fun e => h.1 (Option.some.inj e)
    simp only [List.map_cons, readNodes, Node.ofChar?_char]
    rw [if_neg (hprevious a rfl), ih hrest.1 _ _ hrest.2]
    rfl

theorem map_lowerAscii_text (code : GlyphCode) :
    code.text.toList.map Text.lowerAscii = code.text.toList := by
  have hchar : ∀ node : Node, Text.lowerAscii node.char = node.char := by decide
  rw [toList_text, List.map_map]
  exact List.map_congr_left fun node _ => hchar node

/-- A code is read back from its text. -/
theorem parse_text (code : GlyphCode) : parse code.text = .ok code := by
  have hread : nodesOf code.text = .ok code.nodes := by
    rw [nodesOf, map_lowerAscii_text, toList_text]
    exact readNodes_chars _ code.moving 0 none nofun
  exact parse_of_nodes hread

/-! ## The text of a code as a token -/

theorem forall_mem_text {P : Char → Prop} (h : ∀ node : Node, P node.char) (code : GlyphCode) :
    ∀ c ∈ code.text.toList, P c := by
  rw [toList_text, List.forall_mem_map]
  exact fun node _ => h node

theorem asciiPart_text (code : GlyphCode) : Text.asciiPart code.text = code.text := by
  have hascii : ∀ c ∈ code.text.toList, decide (c.toNat < 128) = true :=
    code.forall_mem_text (by decide)
  rw [Text.asciiPart, List.filter_eq_self.mpr hascii, String.ofList_toList]

theorem lowercase_text (code : GlyphCode) : Text.lowercase code.text = code.text := by
  rw [Text.lowercase_of_ascii (code.forall_mem_text (by decide)), map_lowerAscii_text,
    String.ofList_toList]

theorem isEmpty_text (code : GlyphCode) : code.text.isEmpty = false := by
  refine Bool.eq_false_iff.mpr fun h => ?_
  have hlength := code.length_text
  rw [String.isEmpty_iff.mp h, String.length_empty] at hlength
  have := code.two_le_length
  omega

/-- The text of a code stands for the code, unless it is the name of a glyph. -/
theorem resolveToken_text {table : GlyphTable} {code : GlyphCode}
    (h : table.get? code.text = none) :
    resolveToken table code.text = .ok ⟨code.text, code, .raw⟩ := by
  simp only [resolveToken, resolveName, resolveCode, code.asciiPart_text, code.isEmpty_text,
    code.lowercase_text, h, code.parse_text, if_neg Bool.false_ne_true]

end GlyphCode
end AnimatedGlyph
