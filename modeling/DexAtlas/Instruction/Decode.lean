import DexAtlas.Instruction.Basic
import DexAtlas.Opcode.Table

/-!
From code units to instructions. The sweep takes one instruction after another from the first
unit on; what it returns covers the code without gap or overlap. At the end every switch and
array instruction must point at a table of its kind.
-/
namespace DexAtlas

/-- Gives an index its meaning, or says why it has none. -/
abbrev Resolver := PoolKind → Nat → Except Error Reference

/-- Indexes of call sites and method handles are kept as they are; all others are looked up. -/
def Pools.resolve (pools : Pools) : Resolver
  | .string, index => found "string" index (pools.string? index) (.string index)
  | .type, index => found "type" index (pools.typeDescriptor? index) (.type index)
  | .field, index => found "field" index (pools.field? index) (.field index)
  | .method, index => found "method" index (pools.method? index) (.method index)
  | .proto, index => found "proto" index (pools.protoDescriptor? index) (.proto index)
  | .callSite, index => .ok (.callSite index)
  | .methodHandle, index => .ok (.methodHandle index)
where
  found {α : Type} (pool : String) (index : Nat) (entry : Option α) (make : α → Reference) :
      Except Error Reference :=
    match entry with
    | some value => .ok (make value)
    | none => .error (.of (.unresolved pool index))

namespace Instruction

/-! ## Fields of code units -/

def lowByte (unit : UInt16) : Nat := unit.toNat % 0x100

def highByte (unit : UInt16) : Nat := unit.toNat / 0x100

/-- Bits 8 to 11. -/
def nibbleA (unit : UInt16) : Nat := unit.toNat / 0x100 % 0x10

/-- Bits 12 to 15. -/
def nibbleB (unit : UInt16) : Nat := unit.toNat / 0x1000

/-- The number whose units are given, lowest first. -/
def unitsValue : List UInt16 → Nat
  | [] => 0
  | unit :: rest => unit.toNat + 0x10000 * unitsValue rest

/-- The number of `bits` bits that is congruent to `n`, with its sign. -/
def signExtend (bits : Nat) (n : Nat) : Int := Int.bmod n (1 <<< bits)

def signed16 (unit : UInt16) : Int := signExtend 16 unit.toNat

def signed32 (low high : UInt16) : Int := signExtend 32 (unitsValue [low, high])

/-! ## Operands -/

def resolveIndex (resolve : Resolver) (kind : Option PoolKind) (index : Nat) :
    Except Error Operand :=
  match kind with
  | none => .error (.of (.noReferenceKind index))
  | some kind => (resolve kind index).map .reference

/-- The registers of a call, four in a unit of their own and a fifth in the first unit. -/
def listedRegisters (first registers : UInt16) : Except Error Operand :=
  let count := nibbleB first
  if 5 < count then .error (.of (.registerCount count))
  else
    let n := registers.toNat
    .ok (.registers ([n % 0x10, n / 0x10 % 0x10, n / 0x100 % 0x10, n / 0x1000, nibbleA first].take
      count))

/-- The operands of an instruction whose units are at the head of the list. -/
def operandsOf (resolve : Resolver) (opcode : Opcode) (units : List UInt16) :
    Except Error (List Operand) :=
  let index := resolveIndex resolve opcode.reference
  match opcode.format, units with
  | .f10x, _ :: _ => .ok []
  | .f10t, u :: _ => .ok [.target (signExtend 8 (highByte u))]
  | .f11x, u :: _ => .ok [.register (highByte u)]
  | .f11n, u :: _ => .ok [.register (nibbleA u), .literal (signExtend 4 (nibbleB u))]
  | .f12x, u :: _ => .ok [.register (nibbleA u), .register (nibbleB u)]
  | .f20t, _ :: v :: _ => .ok [.target (signed16 v)]
  | .f21c, u :: v :: _ => do
    return [.register (highByte u), ← index v.toNat]
  | .f21ih, u :: v :: _ => .ok [.register (highByte u), .literal (signed16 v * 0x10000)]
  | .f21lh, u :: v :: _ => .ok [.register (highByte u), .literal (signed16 v * 0x1000000000000)]
  | .f21s, u :: v :: _ => .ok [.register (highByte u), .literal (signed16 v)]
  | .f21t, u :: v :: _ => .ok [.register (highByte u), .target (signed16 v)]
  | .f22b, u :: v :: _ =>
    .ok [.register (highByte u), .register (lowByte v), .literal (signExtend 8 (highByte v))]
  | .f22c, u :: v :: _ => do
    return [.register (nibbleA u), .register (nibbleB u), ← index v.toNat]
  | .f22s, u :: v :: _ =>
    .ok [.register (nibbleA u), .register (nibbleB u), .literal (signed16 v)]
  | .f22t, u :: v :: _ => .ok [.register (nibbleA u), .register (nibbleB u), .target (signed16 v)]
  | .f22x, u :: v :: _ => .ok [.register (highByte u), .register v.toNat]
  | .f23x, u :: v :: _ =>
    .ok [.register (highByte u), .register (lowByte v), .register (highByte v)]
  | .f30t, _ :: v :: w :: _ => .ok [.target (signed32 v w)]
  | .f31c, u :: v :: w :: _ => do
    return [.register (highByte u), ← index (unitsValue [v, w])]
  | .f31i, u :: v :: w :: _ => .ok [.register (highByte u), .literal (signed32 v w)]
  | .f31t, u :: v :: w :: _ => .ok [.register (highByte u), .target (signed32 v w)]
  | .f32x, _ :: v :: w :: _ => .ok [.register v.toNat, .register w.toNat]
  | .f35c, u :: v :: w :: _ => do
    return [← listedRegisters u w, ← index v.toNat]
  | .f3rc, u :: v :: w :: _ => do
    return [.registerRange w.toNat (highByte u), ← index v.toNat]
  | .f45cc, u :: v :: w :: x :: _ => do
    return [← listedRegisters u w, ← index v.toNat,
      ← resolveIndex resolve (opcode.reference2 <|> some .proto) x.toNat]
  | .f4rcc, u :: v :: w :: x :: _ => do
    return [.registerRange w.toNat (highByte u), ← index v.toNat,
      ← resolveIndex resolve (opcode.reference2 <|> some .proto) x.toNat]
  | .f51l, u :: v :: w :: x :: y :: _ =>
    .ok [.register (highByte u), .literal (signExtend 64 (unitsValue [v, w, x, y]))]
  | format, _ => .error (.of (.noFixedOperands format.label))

/-! ## Tables -/

/-- Fails unless `need` units are left. -/
def needUnits (what : String) (pc need : Nat) (units : List UInt16) : Except Error Unit :=
  if (units.take need).length = need then .ok ()
  else .error (.of (.truncatedCode what pc need units.length))

/-- Pairs of units as signed numbers. -/
def integersOf : List UInt16 → List Int
  | low :: high :: rest => signed32 low high :: integersOf rest
  | _ => []

/-- Each unit as two bytes, the low one first. -/
def bytesOf (units : List UInt16) : List UInt8 :=
  units.flatMap fun unit => Bytes.toLittleEndian 2 unit.toNat

/-- A table with a first key and a target for each key from there on. -/
def packedSwitchAt (pc : Nat) (units : List UInt16) : Except Error (Payload × Nat) := do
  needUnits "packed-switch header" pc 4 units
  let size := unitsValue ((units.drop 1).take 1)
  let body := units.drop 4
  needUnits "packed-switch targets" (pc + 4) (size * 2) body
  let firstKey := signExtend 32 (unitsValue ((units.drop 2).take 2))
  return (.packedSwitch firstKey (integersOf (body.take (size * 2))), 4 + size * 2)

/-- A table with all keys and then all targets. -/
def sparseSwitchAt (pc : Nat) (units : List UInt16) : Except Error (Payload × Nat) := do
  needUnits "sparse-switch header" pc 2 units
  let size := unitsValue ((units.drop 1).take 1)
  let body := units.drop 2
  needUnits "sparse-switch entries" (pc + 2) (size * 4) body
  let keys := integersOf (body.take (size * 2))
  let targets := integersOf ((body.drop (size * 2)).take (size * 2))
  return (.sparseSwitch keys targets, 2 + size * 4)

/-- Elements of one, two, four or eight bytes, filled up to whole units. -/
def arrayDataAt (pc : Nat) (units : List UInt16) : Except Error (Payload × Nat) := do
  needUnits "array-data header" pc 4 units
  let width := unitsValue ((units.drop 1).take 1)
  let count := unitsValue ((units.drop 2).take 2)
  unless width ∈ [1, 2, 4, 8] do
    throw (Error.of (.elementWidth width))
  let bytes := width * count
  let dataUnits := (bytes + 1) / 2
  let body := units.drop 4
  needUnits "array-data elements" (pc + 4) dataUnits body
  return (.arrayData width count ((bytesOf (body.take dataUnits)).take bytes), 4 + dataUnits)

/-! ## The sweep -/

/-- The value that an instruction's row is found under: the whole unit for a table, the low byte
for all others. -/
def keyOf (first : UInt16) : Nat :=
  if lowByte first = 0 ∧ highByte first ≠ 0 then first.toNat else lowByte first

def opcodeAt (version pc : Nat) (first : UInt16) : Except Error Opcode :=
  let key := keyOf first
  match InstructionSet.lookup? version key with
  | some opcode => .ok opcode
  | none =>
    if 0xFF < key then .error (.of (.unknownPayload key pc))
    else .error (.of (.unknownOpcode key pc version))

/-- What follows the opcode: operands or a table, and the width in units. -/
def bodyAt (resolve : Resolver) (opcode : Opcode) (pc : Nat) (units : List UInt16) :
    Except Error (List Operand × Option Payload × Nat) :=
  match opcode.format with
  | .packedSwitchPayload => do
    let (table, width) ← packedSwitchAt pc units
    return ([], some table, width)
  | .sparseSwitchPayload => do
    let (table, width) ← sparseSwitchAt pc units
    return ([], some table, width)
  | .arrayPayload => do
    let (table, width) ← arrayDataAt pc units
    return ([], some table, width)
  | format => do
    let width := format.width?.getD 0
    needUnits opcode.name pc width units
    match operandsOf resolve opcode units with
    | .ok operands => return (operands, none, width)
    | .error e => throw (e.within (.instruction opcode.name pc))

/-- The instruction at address `pc`, where `first :: rest` is the code from there on, and how many
units it takes. -/
def decodeAt (version : Nat) (resolve : Resolver) (pc : Nat) (first : UInt16)
    (rest : List UInt16) : Except Error (Instruction × Nat) := do
  let opcode ← opcodeAt version pc first
  let (operands, payload, width) ← bodyAt resolve opcode pc (first :: rest)
  return ({
    offset := pc * 2 % UInt32.size
    code := lowByte first
    opcode
    length := width % UInt32.size
    operands
    payload }, width)

/-- Decodes the units from address `pc` on, after passing over the `skip` units that belong to
the instruction before. -/
def sweep (version : Nat) (resolve : Resolver) :
    (pc skip : Nat) → List UInt16 → Array Instruction → Except Error (Array Instruction)
  | _, _, [], done => .ok done
  | pc, skip + 1, _ :: rest, done => sweep version resolve (pc + 1) skip rest done
  | pc, 0, first :: rest, done =>
    match decodeAt version resolve pc first rest with
    | .ok (insn, width) => sweep version resolve (pc + 1) (width - 1) rest (done.push insn)
    | .error e => .error e

/-- The kind of table that an instruction of format `31t` uses. -/
def tableFormat (name : String) : Format :=
  if name = "packed-switch" then .packedSwitchPayload
  else if name = "sparse-switch" then .sparseSwitchPayload
  else .arrayPayload

/-- The place that is left for an address among the `size` instructions from place `base` on, which
stand in the order of their addresses. Half of them are ruled out at a time. -/
def narrow (insns : Array Instruction) (address base size : Nat) : Nat :=
  if 1 < size then
    let middle := base + size / 2
    if insns[middle]?.any fun insn => address < insn.address then
      narrow insns address base (size - size / 2)
    else narrow insns address middle (size - size / 2)
  else base
termination_by size

/-- The instruction at an address, found by halving. -/
def atAddress? (insns : Array Instruction) (address : Nat) : Option Instruction :=
  insns[narrow insns address 0 insns.size]?.filter fun insn => insn.address == address

/-- Whether the instruction points at a table of its kind among `insns`. -/
def pointsAtTable (insns : Array Instruction) (insn : Instruction) : Bool :=
  match insn.targetAddress? with
  | none => false
  | some target => (atAddress? insns target).any fun other => other.format == tableFormat insn.name

/-- The first instruction that needs a table and does not point at one. -/
def strayTarget? (insns : Array Instruction) : Option Instruction :=
  insns.find? fun insn => insn.format == .f31t && !pointsAtTable insns insn

/-- Decodes the code of a method. -/
def decode (version : Nat) (resolve : Resolver) (code : List UInt16) :
    Except Error (Array Instruction) := do
  let insns ← sweep version resolve 0 0 code #[]
  match strayTarget? insns with
  | none => return insns
  | some insn =>
    throw (Error.of (.payloadTarget insn.name insn.offset (tableFormat insn.name).label))

end Instruction

end DexAtlas
