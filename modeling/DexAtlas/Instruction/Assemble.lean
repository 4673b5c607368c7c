import DexAtlas.Instruction.Basic

/-!
From instructions to code units, the way back from decoding. A format says where in its units the
opcode and the operands stand; bits that no operand uses are zero. An operand larger than its field
is cut to the field.
-/
namespace DexAtlas.Instruction

/-! ## Fields of code units -/

/-- A unit of two bytes. -/
def bytePair (low high : Nat) : UInt16 := UInt16.ofNat (low + 0x100 * high)

/-- A unit of a byte and two nibbles. -/
def nibblePair (low a b : Nat) : UInt16 := UInt16.ofNat (low + 0x100 * a + 0x1000 * b)

/-- A signed number in `bits` bits. -/
def complement (bits : Nat) (i : Int) : Nat := (i % (1 <<< bits : Nat)).toNat

/-- The lowest `count` units of a number, lowest first. -/
def unitsOf : Nat → Nat → List UInt16
  | 0, _ => []
  | count + 1, n => UInt16.ofNat n :: unitsOf count (n / 0x10000)

/-- A signed number in two units. -/
def integerUnits (i : Int) : List UInt16 := unitsOf 2 (complement 32 i)

/-- The first unit and the register unit of a call with at most five registers. -/
def listUnits (value : Nat) (registers : List Nat) : UInt16 × UInt16 :=
  let register (i : Nat) : Nat := registers[i]?.getD 0
  (nibblePair value (register 4) registers.length,
    UInt16.ofNat (register 0 + 0x10 * register 1 + 0x100 * register 2 + 0x1000 * register 3))

/-! ## Instructions -/

/-- The units of an instruction of a fixed format, if it has the operands of that format. -/
def fixedUnits (value : Nat) : Format → List Operand → Option (List UInt16)
  | .f10x, [] => some [bytePair value 0]
  | .f10t, [.target t] => some [bytePair value (complement 8 t)]
  | .f11x, [.register a] => some [bytePair value a]
  | .f11n, [.register a, .literal i] => some [nibblePair value a (complement 4 i)]
  | .f12x, [.register a, .register b] => some [nibblePair value a b]
  | .f20t, [.target t] => some (bytePair value 0 :: unitsOf 1 (complement 16 t))
  | .f21c, [.register a, .reference r] => some (bytePair value a :: unitsOf 1 r.index)
  | .f21ih, [.register a, .literal i] =>
    some (bytePair value a :: unitsOf 1 (complement 16 (i / 0x10000)))
  | .f21lh, [.register a, .literal i] =>
    some (bytePair value a :: unitsOf 1 (complement 16 (i / 0x1000000000000)))
  | .f21s, [.register a, .literal i] => some (bytePair value a :: unitsOf 1 (complement 16 i))
  | .f21t, [.register a, .target t] => some (bytePair value a :: unitsOf 1 (complement 16 t))
  | .f22b, [.register a, .register b, .literal i] =>
    some [bytePair value a, bytePair b (complement 8 i)]
  | .f22c, [.register a, .register b, .reference r] =>
    some (nibblePair value a b :: unitsOf 1 r.index)
  | .f22s, [.register a, .register b, .literal i] =>
    some (nibblePair value a b :: unitsOf 1 (complement 16 i))
  | .f22t, [.register a, .register b, .target t] =>
    some (nibblePair value a b :: unitsOf 1 (complement 16 t))
  | .f22x, [.register a, .register b] => some (bytePair value a :: unitsOf 1 b)
  | .f23x, [.register a, .register b, .register c] => some [bytePair value a, bytePair b c]
  | .f30t, [.target t] => some (bytePair value 0 :: integerUnits t)
  | .f31c, [.register a, .reference r] => some (bytePair value a :: unitsOf 2 r.index)
  | .f31i, [.register a, .literal i] => some (bytePair value a :: integerUnits i)
  | .f31t, [.register a, .target t] => some (bytePair value a :: integerUnits t)
  | .f32x, [.register a, .register b] => some (bytePair value 0 :: unitsOf 1 a ++ unitsOf 1 b)
  | .f35c, [.registers registers, .reference r] =>
    let (first, last) := listUnits value registers
    some (first :: unitsOf 1 r.index ++ [last])
  | .f3rc, [.registerRange start count, .reference r] =>
    some (bytePair value count :: unitsOf 1 r.index ++ unitsOf 1 start)
  | .f45cc, [.registers registers, .reference r, .reference proto] =>
    let (first, last) := listUnits value registers
    some (first :: unitsOf 1 r.index ++ last :: unitsOf 1 proto.index)
  | .f4rcc, [.registerRange start count, .reference r, .reference proto] =>
    some (bytePair value count :: unitsOf 1 r.index ++ unitsOf 1 start ++ unitsOf 1 proto.index)
  | .f51l, [.register a, .literal i] => some (bytePair value a :: unitsOf 4 (complement 64 i))
  | _, _ => none

/-- Bytes two by two as units; a last byte by itself is filled up with zero. -/
def dataUnits : List UInt8 → List UInt16
  | low :: high :: rest => bytePair low.toNat high.toNat :: dataUnits rest
  | [low] => [bytePair low.toNat 0]
  | [] => []

/-- The units of a table. -/
def payloadUnits (value : Nat) : Payload → List UInt16
  | .packedSwitch firstKey targets =>
    UInt16.ofNat value :: unitsOf 1 targets.length ++ integerUnits firstKey ++
      targets.flatMap integerUnits
  | .sparseSwitch keys targets =>
    UInt16.ofNat value :: unitsOf 1 keys.length ++ keys.flatMap integerUnits ++
      targets.flatMap integerUnits
  | .arrayData width count data =>
    UInt16.ofNat value :: unitsOf 1 width ++ unitsOf 2 count ++ dataUnits data

/-- The units of an instruction in a version that has it. -/
def assemble (version : Nat) (insn : Instruction) : Option (List UInt16) := do
  let value ← insn.opcode.valueAt? version
  match insn.payload with
  | some table => return payloadUnits value table
  | none => fixedUnits value insn.format insn.operands

/-- The units of a sequence of instructions. -/
def assembleAll (version : Nat) (insns : List Instruction) : Option (List UInt16) :=
  (insns.mapM (assemble version)).map List.flatten

end DexAtlas.Instruction
