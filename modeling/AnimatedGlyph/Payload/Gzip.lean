/-
Gzip members.

A member is a header, compressed data, and a trailer with the checksum and the
length of what was compressed.  The header may carry further fields, and a flag says
for each whether it is there.

For the checksum bytes are taken as a polynomial over the two-element field, lowest bit
first.  It is the remainder on division by a fixed polynomial of degree 32, with all
bits turned over before and after.

`gunzip?` reads one member of any kind and leaves what follows it.  `gzip` stores its
data in blocks without compressing it.  It stands for an encoder that compresses as well
as it can: the bytes of a member and their number are other ones than that encoder would
give, and only what a reader gets back from them is the same.
-/
import AnimatedGlyph.Bytes.WordOrder
import AnimatedGlyph.Payload.Inflate

namespace AnimatedGlyph
namespace Payload

open Bytes

/-! ## Checksums -/

/-- The divisor, lowest degree in the highest bit. -/
def divisor : UInt32 := 0xedb88320

/-- Divide on by one bit. -/
def shiftOut (register : UInt32) : UInt32 :=
  if register &&& 1 = 1 then (register >>> 1) ^^^ divisor else register >>> 1

/-- Divide on by `n` bits. -/
def shiftOutBits : Nat → UInt32 → UInt32
  | 0, register => register
  | n + 1, register => shiftOutBits n (shiftOut register)

/-- Take in a byte. -/
def absorb (register : UInt32) (b : UInt8) : UInt32 :=
  shiftOutBits 8 (register ^^^ b.toUInt32)

/-- The checksum of some bytes. -/
def checksum (bs : List UInt8) : UInt32 :=
  bs.foldl absorb 0xffffffff ^^^ 0xffffffff

/-! ## Writing -/

/-- The longest run of bytes that a stored block can hold. -/
def storedLimit : Nat := 65535

def storedBlock (last : Bool) (bytes : List UInt8) : List UInt8 :=
  UInt8.ofNat last.toNat :: littleEndian 2 bytes.length ++
    littleEndian 2 (65535 - bytes.length) ++ bytes

/-- Stored blocks, the last of which is marked. -/
def storedBlocks : List (List UInt8) → List UInt8
  | [] => storedBlock true []
  | [bytes] => storedBlock true bytes
  | bytes :: rest => storedBlock false bytes ++ storedBlocks rest

/-- The header without further fields, written by no system in particular. -/
def plainHeader : List UInt8 :=
  [0x1f, 0x8b, 8, 0, 0, 0, 0, 0, 2, 0xff]

def trailer (bytes : List UInt8) : List UInt8 :=
  littleEndian 4 (checksum bytes).toNat ++ littleEndian 4 (bytes.length % UInt32.size)

/-- A member that holds some bytes. -/
def gzip (bytes : List UInt8) : List UInt8 :=
  plainHeader ++ storedBlocks (groups storedLimit bytes) ++ trailer bytes

/-! ## Reading -/

/-- The longest text that a header can hold. -/
def headerTextLimit : Nat := 65535

/-- What follows a text that ends with a zero byte. -/
def skipText? (bytes : List UInt8) : Option (List UInt8) :=
  let text := bytes.takeWhile (· != 0)
  if headerTextLimit < text.length then none
  else
    match bytes.drop text.length with
    | _ :: rest => some rest
    | [] => none

/-- What follows a field that starts with its length. -/
def skipSized? : List UInt8 → Option (List UInt8)
  | a :: b :: rest =>
    let length := ofLittleEndian [a, b]
    if length ≤ rest.length then some (rest.drop length) else none
  | _ => none

/-- What follows the checksum of the header, which ends where `bytes` starts. -/
def skipCheck? (whole bytes : List UInt8) : Option (List UInt8) :=
  match bytes with
  | a :: b :: rest =>
    let header := whole.take (whole.length - bytes.length)
    if ofLittleEndian [a, b] = (checksum header).toNat % 65536 then some rest else none
  | _ => none

/-- Skip a field if its flag is set. -/
def skipIf (flags bit : Nat) (skip : List UInt8 → Option (List UInt8)) (bytes : List UInt8) :
    Option (List UInt8) :=
  if flags.testBit bit then skip bytes else some bytes

/-- What follows the header. -/
def skipHeader? (whole : List UInt8) : Option (List UInt8) :=
  match whole with
  | 0x1f :: 0x8b :: 8 :: flags :: _ :: _ :: _ :: _ :: _ :: _ :: rest => do
    if 32 ≤ flags.toNat then none
    else
      let rest ← skipIf flags.toNat 2 skipSized? rest
      let rest ← skipIf flags.toNat 3 skipText? rest
      let rest ← skipIf flags.toNat 4 skipText? rest
      skipIf flags.toNat 1 (skipCheck? whole) rest
  | _ => none

/-- The bytes that the first member of some data holds. -/
def gunzip? (data : List UInt8) : Option (List UInt8) := do
  let packed ← skipHeader? data
  let (bytes, rest) ← inflate? packed
  if 8 ≤ rest.length ∧ rest.take 8 = trailer bytes then some bytes else none

end Payload
end AnimatedGlyph
