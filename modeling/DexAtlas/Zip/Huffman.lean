import DexAtlas.Archive.Fault
import DexAtlas.Bytes

/-!
Reading bits, and codes of variable length that are fixed by the lengths alone. Codes of one length
are consecutive numbers in the order of their symbols, and shorter codes come first, so the count of
symbols of every length and the symbols in that order are all there is to a code.
-/
namespace DexAtlas

/-- Reads bits of a byte sequence, lowest bit of a byte first. The state is the number of bits
read. -/
abbrev BitReader := ReaderT Bytes (StateT Nat (Except DeflateFault))

namespace BitReader

/-- The next bit, if the bytes have not run out. -/
def bit : BitReader Nat := fun bytes pos =>
  match bytes[pos / 8]? with
  | some byte => .ok ((byte.toNat >>> (pos % 8)) % 2, pos + 1)
  | none => .error .incomplete

/-- A number of `count` bits, lowest bit first. -/
def bits : Nat → BitReader Nat
  | 0 => pure 0
  | count + 1 => do
    let low ← bit
    let high ← bits count
    return low + 2 * high

/-- Goes on to the next whole byte. -/
def align : BitReader Unit :=
  modify fun pos => (pos + 7) / 8 * 8

def require (holds : Bool) : BitReader Unit :=
  if holds then pure () else throw .corrupt

def require? {α : Type} : Option α → BitReader α
  | some value => pure value
  | none => throw .corrupt

end BitReader

namespace Huffman

/-- The longest code. -/
def maxLength : Nat := 15

structure Code where
  /-- How many symbols have a code of one bit, of two bits, and so on. -/
  counts : List Nat
  /-- The symbols by length of code, and then by number. -/
  symbols : Array Nat
  deriving Repr

/-- The symbols whose codes have the given length. -/
def symbolsOf (lengths : List Nat) (length : Nat) : List Nat :=
  (lengths.zipIdx.filter fun entry => entry.1 = length).map (·.2)

/-- The code in which symbol `i` has the `i`-th length; zero stands for no code. No length beyond
the longest in use is listed, but always that of one bit. -/
def Code.ofLengths (lengths : List Nat) : Code :=
  let longest := lengths.foldl max 1
  let groups := (List.range' 1 longest).map (symbolsOf lengths)
  ⟨groups.map List.length, groups.flatten.toArray⟩

/-- The share of all bit sequences that a code uses up, in units of one longest code. -/
def space (lengths : List Nat) : Nat :=
  (lengths.filter (0 < ·)).foldr (fun length used => 1 <<< (maxLength - length) + used) 0

/-- Every bit sequence starts with exactly one code. -/
def isComplete (lengths : List Nat) : Bool :=
  space lengths = 1 <<< maxLength

/-- At most one symbol has a code, and that code is a single bit. -/
def isTrivial (lengths : List Nat) : Bool :=
  match lengths.filter (0 < ·) with
  | [] | [1] => true
  | _ => false

/-- Looks for the code among those of the lengths left, given the lowest code of the next length
without its last bit, the position of that code's symbol, and the bits read so far. -/
def Code.search (code : Code) : List Nat → Nat → Nat → Nat → BitReader Nat
  | [], _, _, _ => throw .corrupt
  | count :: longer, first, index, value => do
    let next ← BitReader.bit
    let value := 2 * value + next
    let first := 2 * first
    if value < first + count then
      BitReader.require? code.symbols[index + (value - first)]?
    else code.search longer (first + count) (index + count) value

/-- The next symbol. -/
def Code.symbol (code : Code) : BitReader Nat :=
  code.search code.counts 0 0 0

end Huffman

end DexAtlas
