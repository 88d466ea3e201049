/-
Unpacking compressed data.

Compressed data is a sequence of blocks, the last of which is marked.  A block is
either stored as it is, or written with two prefix codes: one for literal bytes, the
end of the block and the lengths of copies, and one for the distances of copies.  A
copy repeats bytes that have been unpacked before; before the first of them there are
zeros, as if the window into which a copy reaches had been cleared.  The two codes are
either fixed or described at the start of the block, by lengths that are themselves
written with a prefix code.

Every loop reads at least one bit in each round, so the bits that are left bound the
number of rounds.
-/
import AnimatedGlyph.Payload.PrefixCode

namespace AnimatedGlyph
namespace Payload

/-! ## Copies -/

/-- The least length of a copy and the number of bits that add to it, for each
length symbol. -/
def lengthTable : Array (Nat × Nat) :=
  #[(3, 0), (4, 0), (5, 0), (6, 0), (7, 0), (8, 0), (9, 0), (10, 0), (11, 1), (13, 1), (15, 1),
    (17, 1), (19, 2), (23, 2), (27, 2), (31, 2), (35, 3), (43, 3), (51, 3), (59, 3), (67, 4),
    (83, 4), (99, 4), (115, 4), (131, 5), (163, 5), (195, 5), (227, 5), (258, 0)]

/-- The least distance of a copy and the number of bits that add to it, for each
distance symbol. -/
def distanceTable : Array (Nat × Nat) :=
  #[(1, 0), (2, 0), (3, 0), (4, 0), (5, 1), (7, 1), (9, 2), (13, 2), (17, 3), (25, 3), (33, 4),
    (49, 4), (65, 5), (97, 5), (129, 6), (193, 6), (257, 7), (385, 7), (513, 8), (769, 8),
    (1025, 9), (1537, 9), (2049, 10), (3073, 10), (4097, 11), (6145, 11), (8193, 12), (12289, 12),
    (16385, 13), (24577, 13)]

/-- The amount that an entry of a table and the bits after it make. -/
def readAmount? (table : Array (Nat × Nat)) (symbol : Nat) (source : BitSource) :
    Option (Nat × BitSource) := do
  let (least, bits) ← table[symbol]?
  let (more, source) ← source.number? bits
  return (least + more, source)

/-- The byte that lies `distance` bytes back, zero if that is before the first. -/
def byteBack (distance : Nat) (out : Array UInt8) : UInt8 :=
  if distance ≤ out.size then out.getD (out.size - distance) 0 else 0

/-- Repeat `length` bytes from `distance` bytes back. -/
def copyBack (distance : Nat) : Nat → Array UInt8 → Array UInt8
  | 0, out => out
  | length + 1, out => copyBack distance length (out.push (byteBack distance out))

/-! ## Blocks -/

/-- The symbol that ends a block. -/
def endOfBlock : Nat := 256

/-- Unpack a block with its two codes, in at most so many rounds. -/
def readCoded? (literals distances : PrefixCode) :
    Nat → BitSource → Array UInt8 → Option (BitSource × Array UInt8)
  | 0, _, _ => none
  | rounds + 1, source, out => do
    let (symbol, source) ← literals.read? source
    if symbol < endOfBlock then
      readCoded? literals distances rounds source (out.push (UInt8.ofNat symbol))
    else if symbol = endOfBlock then some (source, out)
    else
      let (length, source) ← readAmount? lengthTable (symbol - endOfBlock - 1) source
      let (symbol, source) ← distances.read? source
      let (distance, source) ← readAmount? distanceTable symbol source
      readCoded? literals distances rounds source (copyBack distance length out)

/-- Unpack a stored block: its length, the same length with all bits turned over,
and the bytes. -/
def readStored? (source : BitSource) (out : Array UInt8) : Option (BitSource × Array UInt8) :=
  match source.wholeBytes with
  | a :: b :: c :: d :: bytes =>
    let length := a.toNat + 256 * b.toNat
    let check := c.toNat + 256 * d.toNat
    if length + check = 65535 ∧ length ≤ bytes.length then
      some (.ofBytes (bytes.drop length), out ++ (bytes.take length).toArray)
    else none
  | _ => none

/-- The fixed code of literals and lengths. -/
def fixedLiterals : PrefixCode :=
  .ofLengths (List.replicate 144 8 ++ List.replicate 112 9 ++ List.replicate 24 7 ++
    List.replicate 8 8)

def fixedDistances : PrefixCode :=
  .ofLengths (List.replicate 32 5)

/-- The order in which the lengths of the code for lengths are written. -/
def lengthOrder : List Nat :=
  [16, 17, 18, 0, 8, 7, 9, 6, 10, 5, 11, 4, 12, 3, 13, 2, 14, 1, 15]

/-- Numbers of three bits. -/
def readTriples? : Nat → BitSource → Option (List Nat × BitSource)
  | 0, source => some ([], source)
  | n + 1, source => do
    let (first, source) ← source.number? 3
    let (rest, source) ← readTriples? n source
    return (first :: rest, source)

/-- Lengths of words until there are `wanted` of them, in at most so many rounds.
`done` holds those read so far, the last first.  Three symbols repeat: 16 the last
length, 17 and 18 a length of zero. -/
def readLengths? (code : PrefixCode) (wanted : Nat) :
    Nat → BitSource → List Nat → Option (List Nat × BitSource)
  | 0, _, _ => none
  | rounds + 1, source, done =>
    if done.length = wanted then some (done.reverse, source)
    else if wanted < done.length then none
    else do
      let (symbol, source) ← code.read? source
      if symbol < 16 then readLengths? code wanted rounds source (symbol :: done)
      else if symbol = 16 then
        let last ← done.head?
        let (more, source) ← source.number? 2
        readLengths? code wanted rounds source (List.replicate (3 + more) last ++ done)
      else if symbol = 17 then
        let (more, source) ← source.number? 3
        readLengths? code wanted rounds source (List.replicate (3 + more) 0 ++ done)
      else
        let (more, source) ← source.number? 7
        readLengths? code wanted rounds source (List.replicate (11 + more) 0 ++ done)

/-- The two codes that are described at the start of a block. -/
def readCodes? (source : BitSource) : Option (PrefixCode × PrefixCode × BitSource) := do
  let (literalCount, source) ← source.number? 5
  let (distanceCount, source) ← source.number? 5
  let (lengthCount, source) ← source.number? 4
  let literalCount := literalCount + 257
  let distanceCount := distanceCount + 1
  if 286 < literalCount ∨ 30 < distanceCount then none
  else
    let (written, source) ← readTriples? (lengthCount + 4) source
    let placed := lengthOrder.zip written
    let lengths := (List.range 19).map fun symbol => (placed.lookup symbol).getD 0
    let code ← PrefixCode.complete? lengths
    let wanted := literalCount + distanceCount
    let (lengths, source) ← readLengths? code wanted (wanted + 1) source []
    let literals ← PrefixCode.ofLengths? (lengths.take literalCount)
    let distances ← PrefixCode.ofLengths? (lengths.drop literalCount)
    return (literals, distances, source)

/-- Unpack a block of a given type. -/
def readBlock? (type : Nat) (source : BitSource) (out : Array UInt8) :
    Option (BitSource × Array UInt8) :=
  match type with
  | 0 => readStored? source out
  | 1 => readCoded? fixedLiterals fixedDistances (source.size + 1) source out
  | 2 => do
    let (literals, distances, source) ← readCodes? source
    readCoded? literals distances (source.size + 1) source out
  | _ => none

/-- Unpack blocks up to the last, in at most so many rounds. -/
def readBlocks? : Nat → BitSource → Array UInt8 → Option (BitSource × Array UInt8)
  | 0, _, _ => none
  | rounds + 1, source, out => do
    let (last, source) ← source.next?
    let (type, source) ← source.number? 2
    let (source, out) ← readBlock? type source out
    if last then some (source, out) else readBlocks? rounds source out

/-- Unpack data, and the bytes that follow it. -/
def inflate? (bytes : List UInt8) : Option (List UInt8 × List UInt8) := do
  let source := BitSource.ofBytes bytes
  let (rest, out) ← readBlocks? (source.size + 1) source #[]
  return (out.toList, rest.wholeBytes)

end Payload
end AnimatedGlyph
