/-
Glyph codes.

A glyph is a walk over the calibration nodes with at least two nodes, none of
which follows itself.  Both conditions are part of the type, so that every code
in the library can be drawn.

`GlyphCode.parse` reads a code from its text.  It goes from the left and reports
the first character that is no node or repeats the node before it; a code that is
too short is noticed last.
-/
import AnimatedGlyph.Grid.Node
import AnimatedGlyph.Text.Lowercase
import AnimatedGlyph.Text.Quoted
import AnimatedGlyph.Json.Record

namespace AnimatedGlyph

/-- No node follows itself. -/
def Moving : List Node → Prop
  | a :: b :: rest => a ≠ b ∧ Moving (b :: rest)
  | _ => True

/-- A walk over the nodes that can be drawn. -/
structure GlyphCode where
  /-- The nodes in drawing order. -/
  nodes : List Node
  /-- There is a stroke to draw. -/
  two_le_length : 2 ≤ nodes.length
  /-- Each step leads to another node. -/
  moving : Moving nodes
  deriving DecidableEq

/-- Why a text is no glyph code. -/
inductive CodeError where
  /-- Fewer than two nodes. -/
  | tooShort (code : String)
  /-- A character that is no node. -/
  | malformed (code : String) (character : Char)
  /-- A node that follows itself, at a position counted from zero. -/
  | repeated (code : String) (position : Nat)
  deriving DecidableEq

def CodeError.message : CodeError → String
  | .tooShort code =>
    "Glyph code too short: " ++ Text.quoted code ++ " (needs at least two nodes)"
  | .malformed code c =>
    "Malformed glyph code " ++ Text.quoted code ++ ": " ++ Text.quotedChar c ++
      " is not a calibration node"
  | .repeated code position =>
    "Glyph code " ++ Text.quoted code ++ " repeats a node at position " ++ toString position

namespace GlyphCode

def text (code : GlyphCode) : String :=
  String.ofList (code.nodes.map Node.char)

/-- Read the nodes of a text from `position` on, after the node `previous`.  Errors
name the whole text. -/
def readNodes (whole : String) (position : Nat) (previous : Option Node) :
    List Char → Except CodeError (List Node)
  | [] => .ok []
  | c :: rest =>
    match Node.ofChar? c with
    | none => .error (.malformed whole c)
    | some node =>
      if previous = some node then .error (.repeated whole position)
      else (readNodes whole (position + 1) (some node) rest).map (node :: ·)

/-- The nodes that are read never repeat the one before them. -/
theorem moving_of_readNodes {whole : String} {cs : List Char} :
    ∀ {position : Nat} {previous : Option Node} {nodes : List Node},
      readNodes whole position previous cs = .ok nodes →
        Moving nodes ∧ ∀ node ∈ nodes.head?, previous ≠ some node := by
  induction cs with
  | nil =>
    intro position previous nodes h
    cases h
    exact ⟨trivial, fun _ hn => nomatch hn⟩
  | cons c rest ih =>
    intro position previous nodes h
    rw [readNodes] at h
    split at h
    · cases h
    · rename_i node _
      split at h
      · cases h
      · rename_i hne
        cases hr : readNodes whole (position + 1) (some node) rest with
        | error e =>
          rw [hr] at h
          cases h
        | ok tail =>
          rw [hr] at h
          cases h
          have hm := ih hr
          refine ⟨?_, fun n hn => ?_⟩
          · cases tail with
            | nil => trivial
            | cons b more =>
              exact ⟨fun e => hm.2 b rfl (congrArg some e), hm.1⟩
          · cases hn
            exact hne

/-- Read a code from its text, in which a Latin capital counts as its small
letter. -/
def parse (raw : String) : Except CodeError GlyphCode :=
  let cs := raw.toList.map Text.lowerAscii
  let whole := String.ofList cs
  match h : readNodes whole 0 none cs with
  | .error e => .error e
  | .ok nodes =>
    if long : 2 ≤ nodes.length then
      .ok ⟨nodes, long, (moving_of_readNodes h).1⟩
    else .error (.tooShort whole)

/-- The code as a JSON text. -/
def toJson (code : GlyphCode) : Json :=
  .string code.text

/-- A code from its text. -/
def decode : Json.Decoder GlyphCode := fun depth draft => do
  match parse (← Json.decodeString depth draft) with
  | .ok code => return code
  | .error _ => .error .mismatch

end GlyphCode
end AnimatedGlyph
