/-
Reading a JSON text into a draft.

`readText` follows a text from the left as far as it can be followed and gives
the draft of its value, with a fault if more text comes after it.  The readers
below it take the text that is left and return the text after what they read, or
nothing when the text cannot be followed further.  Each nested value and each
next item comes after a byte that has been read, so the length of the text bounds
the depth of the recursion.
-/
import AnimatedGlyph.Json.Numeral
import AnimatedGlyph.Json.StringReader

namespace AnimatedGlyph
namespace Json

/-- Whether the byte is white space between the tokens of a text. -/
def isSpace (b : UInt8) : Bool :=
  b = 32 || b = 9 || b = 10 || b = 13

/-- The text after its white space. -/
def skipSpace (bs : List UInt8) : List UInt8 :=
  bs.dropWhile isSpace

/-- Read the letters of a word, of which the first has been read. -/
def readWord (value : Draft) : List UInt8 → List UInt8 → Draft × Option (List UInt8)
  | [], bs => (value, some bs)
  | _ :: _, [] => (.missing .truncated, none)
  | letter :: word, b :: bs =>
    if b = letter then readWord value word bs else (.missing .malformed, none)

mutual
def readValue : Nat → List UInt8 → Draft × Option (List UInt8)
  | 0, _ => (.missing .malformed, none)
  | fuel + 1, bs =>
    match skipSpace bs with
    | [] => (.missing .truncated, none)
    | b :: rest =>
      if b = 110 then readWord .null [117, 108, 108] rest
      else if b = 116 then readWord (.bool true) [114, 117, 101] rest
      else if b = 102 then readWord (.bool false) [97, 108, 115, 101] rest
      else if b = 34 then
        let (leaf, rest) := readString rest
        (.string leaf, rest)
      else if b = 45 || isDigit b then
        let (leaf, rest) := readNumber (b :: rest)
        (.number leaf, rest)
      else if b = 91 then
        match skipSpace rest with
        | [] => (.array [] (some .truncated), none)
        | c :: more =>
          if c = 93 then (.array [] none, some more)
          else
            let (items, stop, rest) := readItems fuel (c :: more)
            (.array items stop, rest)
      else if b = 123 then
        match skipSpace rest with
        | [] => (.object [] (some .truncated), none)
        | c :: more =>
          if c = 125 then (.object [] none, some more)
          else
            let (members, stop, rest) := readMembers fuel (c :: more)
            (.object members stop, rest)
      else (.missing .malformed, none)

/-- Read an item of an array and those after it. -/
def readItems : Nat → List UInt8 → List Draft × Option Fault × Option (List UInt8)
  | 0, _ => ([], some .malformed, none)
  | fuel + 1, bs =>
    let (item, rest) := readValue fuel bs
    match rest with
    | none => ([item], none, none)
    | some rest =>
      match skipSpace rest with
      | [] => ([item], some .truncated, none)
      | b :: rest =>
        if b = 44 then
          let (items, stop, rest) := readItems fuel rest
          (item :: items, stop, rest)
        else if b = 93 then ([item], none, some rest)
        else ([item], some .malformed, none)

/-- Read a member of an object and those after it. -/
def readMembers :
    Nat → List UInt8 → List (Leaf String × Draft) × Option Fault × Option (List UInt8)
  | 0, _ => ([], some .malformed, none)
  | fuel + 1, bs =>
    match skipSpace bs with
    | [] => ([], some .truncated, none)
    | b :: rest =>
      if b = 34 then
        let (name, rest) := readString rest
        match rest with
        | none => ([(name, .missing .malformed)], none, none)
        | some rest =>
          match skipSpace rest with
          | [] => ([(name, .missing .truncated)], none, none)
          | b :: rest =>
            if b = 58 then
              let (value, rest) := readValue fuel rest
              match rest with
              | none => ([(name, value)], none, none)
              | some rest =>
                match skipSpace rest with
                | [] => ([(name, value)], some .truncated, none)
                | b :: rest =>
                  if b = 44 then
                    let (members, stop, rest) := readMembers fuel rest
                    ((name, value) :: members, stop, rest)
                  else if b = 125 then ([(name, value)], none, some rest)
                  else ([(name, value)], some .malformed, none)
            else ([(name, .missing .malformed)], none, none)
      else ([], some .malformed, none)
end

/-- The draft of a text, and the fault of text after its value. -/
def readText (bs : List UInt8) : Draft × Option Fault :=
  let (draft, rest) := readValue (2 * bs.length + 2) bs
  match rest with
  | none => (draft, none)
  | some rest => (draft, if (skipSpace rest).isEmpty then none else some .malformed)

end Json
end AnimatedGlyph
