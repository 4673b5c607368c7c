import DexAtlas.Error
import DexAtlas.Opcode.Basic
import DexAtlas.Pools
import DexAtlas.Text.Escape

/-!
Decoded instructions: an opcode at an offset with its operands, or a table of data that stands
between instructions. Indexes into the pools are kept together with what they resolve to.
-/
namespace DexAtlas

/-- A pool index and what it stands for. -/
inductive Reference where
  | string (index : Nat) (value : String)
  | type (index : Nat) (descriptor : String)
  | field (index : Nat) (member : Pools.Member)
  | method (index : Nat) (member : Pools.Member)
  | proto (index : Nat) (descriptor : String)
  | callSite (index : Nat)
  | methodHandle (index : Nat)
  deriving DecidableEq, Repr

namespace Reference

def index : Reference → Nat
  | .string index _ | .type index _ | .field index _ | .method index _ | .proto index _
  | .callSite index | .methodHandle index => index

def fieldName? : Reference → Option String
  | .field _ member => some member.fieldName
  | _ => none

def methodName? : Reference → Option String
  | .method _ member => some member.methodName
  | _ => none

def text : Reference → String
  | .string _ value => Text.Escape.quoted value
  | .type _ descriptor => descriptor
  | .field _ member => member.fieldName
  | .method _ member => member.methodName
  | .proto _ descriptor => descriptor
  | .callSite index => s!"call_site@{index}"
  | .methodHandle index => s!"method_handle@{index}"

end Reference

inductive Operand where
  | register (number : Nat)
  | registers (numbers : List Nat)
  /-- `count` registers from `first` on. -/
  | registerRange (first count : Nat)
  | literal (value : Int)
  /-- A distance in code units from the start of the instruction. -/
  | target (distance : Int)
  | reference (value : Reference)
  deriving DecidableEq, Repr

def Operand.text : Operand → String
  | .register number => s!"v{number}"
  | .registers numbers =>
    "\x7b" ++ ", ".intercalate (numbers.map fun number => s!"v{number}") ++ "\x7d"
  | .registerRange first count =>
    if count = 0 then "\x7b\x7d"
    else s!"\x7bv{first} .. v{first + count - 1}\x7d"
  | .literal value => s!"#{value}"
  | .target distance => Text.signed distance
  | .reference value => value.text

/-- A table placed in the code. The targets of a switch count from the switch instruction. -/
inductive Payload where
  | packedSwitch (firstKey : Int) (targets : List Int)
  | sparseSwitch (keys targets : List Int)
  | arrayData (width count : Nat) (data : List UInt8)
  deriving DecidableEq, Repr

structure Instruction where
  /-- Offset in bytes from the start of the code, in 32 bits. -/
  offset : Nat
  /-- The low byte of the first unit. -/
  code : Nat
  opcode : Opcode
  /-- Width in code units, in 32 bits. -/
  length : Nat
  operands : List Operand
  payload : Option Payload
  deriving DecidableEq, Repr

namespace Instruction

def name (insn : Instruction) : String := insn.opcode.name

def format (insn : Instruction) : Format := insn.opcode.format

/-- Offset in code units, the measure of targets. -/
def address (insn : Instruction) : Nat := insn.offset / 2

def references (insn : Instruction) : List Reference :=
  insn.operands.filterMap fun
    | .reference value => some value
    | _ => none

def isPayload (insn : Instruction) : Bool := insn.payload.isSome

def isInvoke (insn : Instruction) : Bool := insn.opcode.has .invoke

def readsField (insn : Instruction) : Bool := insn.opcode.has .fieldRead

def writesField (insn : Instruction) : Bool := insn.opcode.has .fieldWrite

/-- The address a target operand points at, in 32 bits. -/
def targetAddress? (insn : Instruction) : Option Nat :=
  insn.operands.findSome? fun
    | .target distance => some ((insn.address + distance) % UInt32.size).toNat
    | _ => none

def integers (values : List Int) : String :=
  Text.bracketed (values.map fun value => toString value)

/-- One line of a listing. -/
def text (insn : Instruction) : String :=
  match insn.payload with
  | some (.packedSwitch firstKey targets) =>
    s!"{insn.name} first_key={firstKey} targets={integers targets}"
  | some (.sparseSwitch keys targets) =>
    s!"{insn.name} keys={integers keys} targets={integers targets}"
  | some (.arrayData width count _) => s!"{insn.name} width={width} count={count}"
  | none =>
    match insn.operands with
    | [] => insn.name
    | operands => insn.name ++ " " ++ ", ".intercalate (operands.map Operand.text)

end Instruction

end DexAtlas
