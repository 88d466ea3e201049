/-
The grammar of codes.

The text of a code, its letters small, has characters of nodes only, at least two of
them, and none that follows itself.  `parse_grammar` says that the texts of this form are
those that are read, and which fault is reported for any other: the leftmost one, and only
without any other that the text is too short.

`FaultAt` and `Refuses` speak of the positions of a text and not of a reader.  A reader
that goes from the left finds the first fault since what it has passed has none
(`readNodes_outcome`).
-/
import AnimatedGlyph.Proofs.CodeText
import AnimatedGlyph.Proofs.RoundTrip

namespace AnimatedGlyph

/-! ## Characters of nodes -/

namespace Node

/-- The characters that nodes are written as. -/
def chars : List Char :=
  "0123456789a".toList

theorem mem_chars_iff {c : Char} : c ∈ chars ↔ ∃ node : Node, node.char = c := by
  have hall : chars = all.map char := by decide
  rw [hall, List.mem_map]
  exact exists_congr fun node => and_iff_right (List.mem_finRange node)

theorem char_of_ofChar? {c : Char} {node : Node} (hcapital : c ≠ 'A')
    (h : ofChar? c = some node) : node.char = c := by
  rw [ofChar?] at h
  split at h
  · rename_i hdigit
    have hlow : 48 ≤ c.toNat := hdigit.1
    have hhigh : c.toNat ≤ 57 := hdigit.2
    have hdigits : ∀ n : Fin 10, char (Fin.ofNat 11 n) = Char.ofNat (48 + n) := by decide
    have hchar := hdigits ⟨c.toNat - 48, by omega⟩
    rw [← Option.some.inj h, hchar]
    show Char.ofNat (48 + (c.toNat - 48)) = c
    rw [Nat.add_sub_cancel' hlow, Char.ofNat_toNat]
  · split at h
    · rename_i hletter
      rw [← Option.some.inj h, hletter.resolve_right hcapital]
      rfl
    · cases h

theorem ofChar?_eq_some_iff {c : Char} {node : Node} (hcapital : c ≠ 'A') :
    ofChar? c = some node ↔ node.char = c :=
  ⟨char_of_ofChar? hcapital, fun h => h ▸ ofChar?_char node⟩

theorem ofChar?_eq_none_iff {c : Char} (hcapital : c ≠ 'A') : ofChar? c = none ↔ c ∉ chars := by
  rw [mem_chars_iff, Option.eq_none_iff_forall_ne_some, not_exists]
  exact forall_congr' fun node => not_congr (ofChar?_eq_some_iff hcapital)

end Node

namespace GlyphCode

/-! ## Faults of a text -/

/-- The characters of a text, its Latin capitals as small letters. -/
def folded (raw : String) : List Char :=
  raw.toList.map Text.lowerAscii

theorem ne_capital_of_mem_folded {raw : String} : ∀ c ∈ folded raw, c ≠ 'A' := by
  refine List.forall_mem_map.mpr fun c _ => ?_
  by_cases hcapital : 'A' ≤ c ∧ c ≤ 'Z'
  · exact Text.forall_capital (P := fun c => Text.lowerAscii c ≠ 'A') (by decide) hcapital
  · rw [Text.lowerAscii_of_not hcapital]
    rintro rfl
    exact hcapital (by decide)

/-- A character that is no node, or the one before it once more. -/
def FaultAt (chars : List Char) (position : Nat) : Prop :=
  ∃ c ∈ chars[position]?, c ∉ Node.chars ∨ 0 < position ∧ chars[position - 1]? = some c

instance (chars : List Char) (position : Nat) : Decidable (FaultAt chars position) :=
  match h : chars[position]? with
  | none => isFalse fun ⟨_, hc, _⟩ => nomatch h.symm.trans hc
  | some c =>
    decidable_of_iff (c ∉ Node.chars ∨ 0 < position ∧ chars[position - 1]? = some c)
      ⟨fun hfault => ⟨c, h, hfault⟩, fun ⟨_, hd, hfault⟩ =>
        Option.some.inj (hd.symm.trans h) ▸ hfault⟩

def Faultless (chars : List Char) : Prop :=
  ∀ position, ¬FaultAt chars position

/-- The leftmost fault and its character. -/
structure FirstFault (chars : List Char) (position : Nat) (c : Char) : Prop where
  char : chars[position]? = some c
  fault : FaultAt chars position
  first : ∀ earlier < position, ¬FaultAt chars earlier

theorem FirstFault.unique {chars : List Char} {p q : Nat} {c d : Char}
    (hp : FirstFault chars p c) (hq : FirstFault chars q d) : p = q ∧ c = d := by
  have hpq : p = q := by
    rcases Nat.lt_trichotomy p q with hlt | heq | hgt
    · exact absurd hp.fault (hq.first p hlt)
    · exact heq
    · exact absurd hq.fault (hp.first q hgt)
  subst hpq
  exact ⟨rfl, Option.some.inj (hp.char.symm.trans hq.char)⟩

/-- Why the characters of a text are no code. -/
inductive Refuses (chars : List Char) : CodeError → Prop
  | tooShort : Faultless chars → chars.length < 2 → Refuses chars (.tooShort (String.ofList chars))
  | malformed {position : Nat} {c : Char} : FirstFault chars position c → c ∉ Node.chars →
      Refuses chars (.malformed (String.ofList chars) c)
  | repeated {position : Nat} {c : Char} : FirstFault chars position c → c ∈ Node.chars →
      Refuses chars (.repeated (String.ofList chars) position)

theorem Refuses.unique {chars : List Char} {cause other : CodeError} (h : Refuses chars cause)
    (hother : Refuses chars other) : cause = other := by
  cases h with
  | tooShort hnone hlength =>
    cases hother with
    | tooShort => rfl
    | malformed hfirst => exact absurd hfirst.fault (hnone _)
    | repeated hfirst => exact absurd hfirst.fault (hnone _)
  | malformed hfirst hc =>
    cases hother with
    | tooShort hnone => exact absurd hfirst.fault (hnone _)
    | malformed hsecond => rw [(hfirst.unique hsecond).2]
    | repeated hsecond hd => exact absurd ((hfirst.unique hsecond).2 ▸ hd) hc
  | repeated hfirst hc =>
    cases hother with
    | tooShort hnone => exact absurd hfirst.fault (hnone _)
    | malformed hsecond hd => exact absurd ((hfirst.unique hsecond).2 ▸ hc) hd
    | repeated hsecond => rw [(hfirst.unique hsecond).1]

theorem Refuses.not_sound {chars : List Char} {cause : CodeError} (h : Refuses chars cause) :
    ¬(Faultless chars ∧ 2 ≤ chars.length) := by
  rintro ⟨hnone, hlength⟩
  cases h with
  | tooShort _ hshort => omega
  | malformed hfirst => exact hnone _ hfirst.fault
  | repeated hfirst => exact hnone _ hfirst.fault

/-! ## What the reader finds -/

/-- The error for a fault at a position. -/
def faultError (whole : String) (position : Nat) (c : Char) : CodeError :=
  if c ∈ Node.chars then .repeated whole position else .malformed whole c

theorem FirstFault.refuses {chars : List Char} {position : Nat} {c : Char}
    (h : FirstFault chars position c) :
    Refuses chars (faultError (String.ofList chars) position c) := by
  rw [faultError]
  split
  · exact .repeated h ‹_›
  · exact .malformed h ‹_›

/-- The node that was read last. -/
def lastNode (before : List Char) : Option Node :=
  before.getLast?.bind Node.ofChar?

theorem faultAt_length_iff {before rest : List Char} {c : Char} :
    FaultAt (before ++ c :: rest) before.length ↔ c ∉ Node.chars ∨ before.getLast? = some c := by
  have hhere : (before ++ c :: rest)[before.length]? = some c := by
    rw [List.getElem?_append_right (Nat.le_refl _), Nat.sub_self, List.getElem?_cons_zero]
  have hlast : 0 < before.length ∧ (before ++ c :: rest)[before.length - 1]? = some c ↔
      before.getLast? = some c := by
    rw [List.getLast?_eq_getElem?]
    constructor
    · rintro ⟨hpos, h⟩
      rwa [List.getElem?_append_left (by omega)] at h
    · intro h
      have hlt : before.length - 1 < before.length := (List.getElem?_eq_some_iff.mp h).1
      exact ⟨by omega, (List.getElem?_append_left hlt).trans h⟩
  rw [FaultAt, hhere]
  simp only [Option.mem_def, Option.some.injEq, exists_eq_left', hlast]

/-- What is read behind a part without a fault: the nodes of the rest if it has no fault
either, and otherwise the first fault.  The position and the last node are those of the part
that is passed. -/
theorem readNodes_outcome (whole : String) (rest : List Char) :
    ∀ before : List Char, (∀ c ∈ before ++ rest, c ≠ 'A') →
      (∀ q < before.length, ¬FaultAt (before ++ rest) q) →
      (Faultless (before ++ rest) ∧ ∃ nodes : List Node, nodes.map Node.char = rest ∧
          readNodes whole before.length (lastNode before) rest = .ok nodes) ∨
        ∃ position c, FirstFault (before ++ rest) position c ∧
          readNodes whole before.length (lastNode before) rest =
            .error (faultError whole position c) := by
  induction rest with
  | nil =>
    intro before _ hpassed
    refine .inl ⟨fun position hfault => ?_, [], rfl, rfl⟩
    by_cases hlt : position < before.length
    · exact hpassed position hlt hfault
    · obtain ⟨c, hc, _⟩ := hfault
      rw [List.append_nil, Option.mem_def, List.getElem?_eq_none (by omega)] at hc
      cases hc
  | cons c rest ih =>
    intro before hsmall hpassed
    have hcapital : c ≠ 'A' := hsmall c (List.mem_append_right _ List.mem_cons_self)
    have hchar : (before ++ c :: rest)[before.length]? = some c := by
      rw [List.getElem?_append_right (Nat.le_refl _), Nat.sub_self, List.getElem?_cons_zero]
    rw [readNodes]
    cases hnode : Node.ofChar? c with
    | none =>
      -- The character is no node.
      have hno : c ∉ Node.chars := (Node.ofChar?_eq_none_iff hcapital).mp hnode
      refine .inr ⟨before.length, c, ⟨hchar, faultAt_length_iff.mpr (.inl hno), hpassed⟩, ?_⟩
      rw [faultError, if_neg hno]
    | some node =>
      have hwritten : node.char = c := Node.char_of_ofChar? hcapital hnode
      have hyes : c ∈ Node.chars := Node.mem_chars_iff.mpr ⟨node, hwritten⟩
      have hlast : lastNode before = some node ↔ before.getLast? = some c := by
        cases hend : before.getLast? with
        | none => simp [lastNode, hend]
        | some d =>
          have hd : d ≠ 'A' := hsmall d (List.mem_append_left _ (List.mem_of_getLast? hend))
          simp only [lastNode, hend, Option.bind_some, Node.ofChar?_eq_some_iff hd, hwritten,
            Option.some.injEq]
          exact eq_comm
      by_cases hsame : lastNode before = some node
      · -- The node follows itself.
        refine .inr ⟨before.length, c,
          ⟨hchar, faultAt_length_iff.mpr (.inr (hlast.mp hsame)), hpassed⟩, ?_⟩
        show (if lastNode before = some node then _ else _) = _
        rw [if_pos hsame, faultError, if_pos hyes]
      · -- There is no fault here, so that the passed part grows.
        have hhere : ¬FaultAt (before ++ c :: rest) before.length := fun hfault =>
          (faultAt_length_iff.mp hfault).elim (absurd hyes) fun h => hsame (hlast.mpr h)
        have hgrown : before ++ [c] ++ rest = before ++ c :: rest := by
          rw [List.append_assoc, List.singleton_append]
        have hnext := ih (before ++ [c]) (hgrown ▸ hsmall) fun q hq => by
          rw [hgrown]
          rw [List.length_append, List.length_singleton] at hq
          rcases Nat.lt_succ_iff_lt_or_eq.mp hq with hlt | rfl
          · exact hpassed q hlt
          · exact hhere
        have hnow : lastNode (before ++ [c]) = some node := by
          rw [lastNode, List.getLast?_concat, Option.bind_some, hnode]
        rw [hgrown, hnow, List.length_append, List.length_singleton] at hnext
        show _ ∧ (∃ nodes, _ ∧ (if lastNode before = some node then _ else _) = _) ∨
          ∃ position d, _ ∧ (if lastNode before = some node then _ else _) = _
        rw [if_neg hsame]
        rcases hnext with ⟨hnone, nodes, htext, hread⟩ | ⟨position, d, hfirst, hread⟩
        · refine .inl ⟨hnone, node :: nodes, ?_, ?_⟩
          · rw [List.map_cons, hwritten, htext]
          · rw [hread]
            rfl
        · refine .inr ⟨position, d, hfirst, ?_⟩
          rw [hread]
          rfl

/-- A text is a code, or one of the reasons holds why it is none. -/
theorem parse_outcome (raw : String) :
    (Faultless (folded raw) ∧ 2 ≤ (folded raw).length ∧
        ∃ code, parse raw = .ok code ∧ code.text.toList = folded raw) ∨
      ∃ cause, Refuses (folded raw) cause ∧ parse raw = .error cause := by
  have houtcome := readNodes_outcome (String.ofList (folded raw)) (folded raw) []
    ne_capital_of_mem_folded nofun
  rcases houtcome with ⟨hnone, nodes, htext, hread⟩ | ⟨position, c, hfirst, hread⟩
  · have hlength : (folded raw).length = nodes.length := by rw [← htext, List.length_map]
    by_cases long : 2 ≤ nodes.length
    · have hcode : nodesOf raw =
          .ok (⟨nodes, long, (moving_of_readNodes hread).1⟩ : GlyphCode).nodes := hread
      exact .inl ⟨hnone, by omega, _, parse_of_nodes hcode, (toList_text _).trans htext⟩
    · exact .inr ⟨_, .tooShort hnone (by omega), parse_of_short hread long⟩
  · exact .inr ⟨_, hfirst.refuses, parse_of_error hread⟩

theorem restores (code : GlyphCode) : Json.Restores decode code.toJson [] code where
  reads := by
    intro depth hdepth
    rw [decode, toJson, (Json.restores_string code.text).reads hdepth]
    simp only [List.all_nil, if_true, bind, Except.bind, parse_text]
    rfl
  doubles := nofun

/-- A code is read back from its JSON form. -/
theorem ofText_compact (code : GlyphCode) :
    Json.ofText decode (textBytes code.toJson.compact) = .ok code :=
  code.restores.ofText nofun (Nat.zero_le _)

theorem toList_text_of_parse {raw : String} {code : GlyphCode} (h : parse raw = .ok code) :
    code.text.toList = folded raw := by
  rcases parse_outcome raw with ⟨_, _, other, hother, htext⟩ | ⟨cause, _, hcause⟩
  · rw [← Except.ok.inj (hother.symm.trans h), htext]
  · cases hcause.symm.trans h

/-- The texts of codes are those of the grammar, and for any other the leftmost fault is
reported.  A code that was read has the text it was read from, its letters small, is read
again from this text and from its JSON form, and no other text has its nodes. -/
theorem parse_grammar (raw : String) :
    ((∃ code, parse raw = .ok code) ↔ Faultless (folded raw) ∧ 2 ≤ (folded raw).length) ∧
      (∀ cause, parse raw = .error cause ↔ Refuses (folded raw) cause) ∧
      ∀ code, parse raw = .ok code →
        code.text.toList = folded raw ∧ parse code.text = .ok code ∧
          Json.ofText decode (textBytes code.toJson.compact) = .ok code ∧
          code.text.toList.map Node.ofChar? = code.nodes.map some ∧
          code.nodes.IsChain (· ≠ ·) ∧
          ∀ again other, parse again = .ok other → other.nodes = code.nodes →
            folded again = folded raw ∧ other = code := by
  refine ⟨?_, fun cause => ?_, fun code hcode => ?_⟩
  · rcases parse_outcome raw with ⟨hnone, hlength, code, hcode, _⟩ | ⟨cause, hrefuses, hcause⟩
    · exact iff_of_true ⟨code, hcode⟩ ⟨hnone, hlength⟩
    · refine iff_of_false ?_ hrefuses.not_sound
      rintro ⟨code, hcode⟩
      cases hcode.symm.trans hcause
  · rcases parse_outcome raw with ⟨hnone, hlength, code, hcode, _⟩ | ⟨other, hrefuses, hother⟩
    · refine iff_of_false (fun hcause => ?_) fun hrefuses => hrefuses.not_sound ⟨hnone, hlength⟩
      cases hcode.symm.trans hcause
    · constructor
      · intro hcause
        rwa [← Except.error.inj (hother.symm.trans hcause)]
      · intro hcause
        rw [hcause.unique hrefuses, hother]
  · refine ⟨toList_text_of_parse hcode, parse_text code, ofText_compact code,
      map_ofChar?_text code, isChain_of_moving code.moving, fun again other hother hnodes => ?_⟩
    have hsame : other = code := by
      cases other
      cases code
      cases hnodes
      rfl
    refine ⟨?_, hsame⟩
    rw [← toList_text_of_parse hother, ← toList_text_of_parse hcode, hsame]

/-- The centre twice, in both cases of its letter, in front of a character that is no node. -/
theorem parse_grammar_of_both_cases :
    FirstFault (folded "0aA?") 2 'a' ∧ parse "0aA?" = .error (.repeated "0aa?" 2) := by
  have hfirst : FirstFault (folded "0aA?") 2 'a' := ⟨rfl, by decide, by decide⟩
  exact ⟨hfirst, ((parse_grammar "0aA?").2.1 _).mpr (.repeated hfirst (by decide))⟩

end GlyphCode
end AnimatedGlyph
