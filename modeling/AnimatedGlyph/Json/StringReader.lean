/-
Reading the strings of a JSON text.

A string is a run of bytes up to the closing quotation mark.  Escapes stand for
characters, a character above U+FFFF being written as a pair of surrogates.  A
reader that wants the string asks that surrogates come in pairs and that the
bytes are UTF-8; one that passes over it asks neither.  Controls are refused
either way.
-/
import AnimatedGlyph.Json.Draft

namespace AnimatedGlyph
namespace Json

/-- The number of a hexadecimal digit. -/
def hexByteValue? (b : UInt8) : Option Nat :=
  if 48 ≤ b ∧ b ≤ 57 then some (b.toNat - 48)
  else if 97 ≤ b ∧ b ≤ 102 then some (b.toNat - 87)
  else if 65 ≤ b ∧ b ≤ 70 then some (b.toNat - 55)
  else none

/-- The number of four hexadecimal digits. -/
def hexUnit? (a b c d : UInt8) : Option Nat := do
  let a ← hexByteValue? a
  let b ← hexByteValue? b
  let c ← hexByteValue? c
  let d ← hexByteValue? d
  return 4096 * a + 256 * b + 16 * c + d

/-- The byte that a letter after a backslash stands for. -/
def escapedByte? (b : UInt8) : Option UInt8 :=
  if b = 34 ∨ b = 92 ∨ b = 47 then some b
  else if b = 98 then some 8
  else if b = 102 then some 12
  else if b = 110 then some 10
  else if b = 114 then some 13
  else if b = 116 then some 9
  else none

/-- What has been read of a string: its bytes, the last one first, and the first
half of a surrogate pair that still lacks its second.  After a fault that passing
over the string does not meet, only the fault is kept. -/
structure StringSoFar where
  /-- The bytes, the last one first, or the fault that a reader would report. -/
  bytes : Except Fault (List UInt8)
  /-- The first half of a surrogate pair. -/
  high : Option Nat

namespace StringSoFar

/-- Nothing yet. -/
def empty : StringSoFar :=
  ⟨.ok [], none⟩

/-- The string cannot be read any more. -/
def spoil (s : StringSoFar) : StringSoFar :=
  match s.bytes with
  | .ok _ => ⟨.error .malformed, none⟩
  | .error _ => ⟨s.bytes, none⟩

/-- One more byte.  It may not come between the halves of a pair. -/
def push (s : StringSoFar) (b : UInt8) : StringSoFar :=
  match s.bytes, s.high with
  | .ok bytes, none => ⟨.ok (b :: bytes), none⟩
  | _, _ => s.spoil

/-- The character of a code point, which is no surrogate. -/
def pushCode (s : StringSoFar) (n : Nat) : StringSoFar :=
  match s.bytes with
  | .ok bytes => ⟨.ok ((String.utf8EncodeChar (Char.ofNat n)).reverse ++ bytes), none⟩
  | .error _ => s

/-- One more unit of sixteen bits, given by its number. -/
def pushUnit (s : StringSoFar) (n : Nat) : StringSoFar :=
  match s.high with
  | some high =>
    if 0xdc00 ≤ n ∧ n ≤ 0xdfff then
      s.pushCode (0x10000 + 0x400 * (high - 0xd800) + (n - 0xdc00))
    else s.spoil
  | none =>
    if 0xdc00 ≤ n ∧ n ≤ 0xdfff then s.spoil
    else if 0xd800 ≤ n ∧ n ≤ 0xdbff then
      match s.bytes with
      | .ok _ => ⟨s.bytes, some n⟩
      | .error _ => s
    else s.pushCode n

/-- The fault of a string that ends in a given fault for every reader. -/
def faultOr (s : StringSoFar) (fault : Fault) : Fault :=
  match s.bytes with
  | .ok _ => fault
  | .error earlier => earlier

/-- The string, when its closing mark has come. -/
def close (s : StringSoFar) : Except Fault String :=
  match s.bytes, s.high with
  | .ok bytes, none =>
    match String.fromUTF8? ⟨bytes.reverse.toArray⟩ with
    | some text => .ok text
    | none => .error .malformed
  | .ok _, some _ => .error .malformed
  | .error fault, _ => .error fault

/-- The leaf of a string after which the text cannot be followed. -/
def broken (s : StringSoFar) (fault : Fault) : Leaf String × Option (List UInt8) :=
  (⟨.error (s.faultOr fault), some fault⟩, none)

end StringSoFar

/-- Read on in a string up to its closing mark. -/
def readStringFrom (s : StringSoFar) : List UInt8 → Leaf String × Option (List UInt8)
  | [] => s.broken .truncated
  | b :: rest =>
    if b = 34 then (⟨s.close, none⟩, some rest)
    else if b = 92 then
      match rest with
      | [] => s.broken .truncated
      | e :: rest =>
        if e = 117 then
          match rest with
          | w :: x :: y :: z :: rest =>
            match hexUnit? w x y z with
            | some n => readStringFrom (s.pushUnit n) rest
            | none => s.broken .malformed
          | _ => s.broken .truncated
        else
          match escapedByte? e with
          | some c => readStringFrom (s.push c) rest
          | none => s.broken .malformed
    else if b < 32 then s.broken .malformed
    else readStringFrom (s.push b) rest

/-- Read a string whose opening mark has been read. -/
def readString (bs : List UInt8) : Leaf String × Option (List UInt8) :=
  readStringFrom .empty bs

end Json
end AnimatedGlyph
