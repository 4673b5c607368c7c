import DexAtlas.Zip.Huffman

/-!
Unpacking of deflated content: a sequence of blocks, each either stored or coded with two codes, one
for literal bytes and lengths of copies and one for the distances back to what is copied.
-/
namespace DexAtlas

namespace Inflate

open BitReader (bit bits align require require?)
open Huffman (Code)

/-! ## Copies -/

/-- The least length of a copy and its number of extra bits, by symbol from 257 on. -/
def lengths : Array (Nat × Nat) := #[
  (3, 0), (4, 0), (5, 0), (6, 0), (7, 0), (8, 0), (9, 0), (10, 0),
  (11, 1), (13, 1), (15, 1), (17, 1), (19, 2), (23, 2), (27, 2), (31, 2),
  (35, 3), (43, 3), (51, 3), (59, 3), (67, 4), (83, 4), (99, 4), (115, 4),
  (131, 5), (163, 5), (195, 5), (227, 5), (258, 0)]

/-- The least distance of a copy and its number of extra bits, by symbol. -/
def distances : Array (Nat × Nat) := #[
  (1, 0), (2, 0), (3, 0), (4, 0), (5, 1), (7, 1), (9, 2), (13, 2),
  (17, 3), (25, 3), (33, 4), (49, 4), (65, 5), (97, 5), (129, 6), (193, 6),
  (257, 7), (385, 7), (513, 8), (769, 8), (1025, 9), (1537, 9), (2049, 10), (3073, 10),
  (4097, 11), (6145, 11), (8193, 12), (12289, 12), (16385, 13), (24577, 13)]

/-- A number given by a symbol and the extra bits after it. -/
def extended (table : Array (Nat × Nat)) (symbol : Nat) : BitReader Nat := do
  let (least, extra) ← require? table[symbol]?
  return least + (← bits extra)

/-- The byte `distance` places back. Before the first byte there are zeros. -/
def back (output : Bytes) (distance : Nat) : UInt8 :=
  if distance ≤ output.size then output.getD (output.size - distance) 0 else 0

/-- Repeats what stands `distance` places back, byte by byte, so that a copy may go on into what it
has itself produced. -/
def copy (distance : Nat) : Nat → Bytes → Bytes
  | 0, output => output
  | length + 1, output => copy distance length (output.push (back output distance))

/-! ## Blocks -/

/-- The symbol that ends a block. -/
def endOfBlock : Nat := 256

/-- Literals and copies up to the end of the block. Every symbol takes at least one bit, so the
number of bits left bounds their number. -/
def coded (literals distanceCode : Code) : Nat → Bytes → BitReader Bytes
  | 0, _ => throw .incomplete
  | left + 1, output => do
    let symbol ← literals.symbol
    if symbol < endOfBlock then coded literals distanceCode left (output.push (UInt8.ofNat symbol))
    else if symbol = endOfBlock then return output
    else
      let length ← extended lengths (symbol - endOfBlock - 1)
      let distance ← extended distances (← distanceCode.symbol)
      coded literals distanceCode left (copy distance length output)

/-- A stored block: its length, the same with all bits flipped, and the bytes. -/
def stored (output : Bytes) : BitReader Bytes := do
  align
  let length ← bits 16
  let flipped ← bits 16
  require (length + flipped = 0xFFFF)
  let start := (← get) / 8
  let bytes ← read
  if bytes.size < start + length then throw .incomplete
  set (8 * (start + length))
  return output ++ bytes.extract start (start + length)

def fixedLiterals : Code :=
  .ofLengths (.replicate 144 8 ++ .replicate 112 9 ++ .replicate 24 7 ++ .replicate 8 8)

def fixedDistances : Code :=
  .ofLengths (.replicate 32 5)

/-- The order in which a block lists the lengths of the code for lengths. -/
def lengthOrder : List Nat :=
  [16, 17, 18, 0, 8, 7, 9, 6, 10, 5, 11, 4, 12, 3, 13, 2, 14, 1, 15]

/-- Reads code lengths until there are `total` of them: a length by itself, the last length again,
or a run of zeros. A run that goes past the end is refused. The second number bounds the symbols. -/
def codeLengths (code : Code) (total : Nat) : Nat → Array Nat → BitReader (Array Nat)
  | left + 1, found =>
    if total ≤ found.size then exactly found
    else do
      let symbol ← code.symbol
      if symbol < 16 then codeLengths code total left (found.push symbol)
      else if symbol = 16 then
        let last ← require? found.back?
        let count ← bits 2
        codeLengths code total left (found ++ Array.replicate (3 + count) last)
      else
        let count ← if symbol = 17 then (3 + ·) <$> bits 3 else (11 + ·) <$> bits 7
        codeLengths code total left (found ++ Array.replicate count 0)
  | 0, found => exactly found
where
  exactly (found : Array Nat) : BitReader (Array Nat) := do
    require (found.size = total)
    return found

/-- A code given by lengths. Only one without alternatives may leave bit sequences unused. -/
def codeOf (lengths : List Nat) : BitReader Code := do
  require (Huffman.isComplete lengths || Huffman.isTrivial lengths)
  return .ofLengths lengths

/-- The two codes at the start of a block. -/
def tables : BitReader (Code × Code) := do
  let literals := 257 + (← bits 5)
  let distances := 1 + (← bits 5)
  let listed := 4 + (← bits 4)
  require (literals ≤ 286 && distances ≤ 30)
  let given ← (lengthOrder.take listed).mapM fun symbol => return (symbol, ← bits 3)
  let short := (List.range 19).map fun symbol => (given.lookup symbol).getD 0
  require (Huffman.isComplete short)
  let total := literals + distances
  let lengths ← codeLengths (.ofLengths short) total total #[]
  let literalCode ← codeOf (lengths.toList.take literals)
  let distanceCode ← codeOf (lengths.toList.drop literals)
  return (literalCode, distanceCode)

/-- Blocks up to the one marked as the last. A block takes at least three bits. -/
def blocks : Nat → Bytes → BitReader Bytes
  | 0, _ => throw .incomplete
  | left + 1, output => do
    let last ← bit
    let kind ← bits 2
    let size := 8 * (← read).size
    let output ← match kind with
      | 0 => stored output
      | 1 => coded fixedLiterals fixedDistances size output
      | 2 => do
        let (literals, distances) ← tables
        coded literals distances size output
      | _ => throw .corrupt
    if last = 1 then return output else blocks left output

end Inflate

/-- Unpacks deflated content. What follows the last block is passed over. -/
def inflate (packed : Bytes) : Except DeflateFault Bytes :=
  (·.1) <$> Inflate.blocks (8 * packed.size) #[] packed 0

end DexAtlas
