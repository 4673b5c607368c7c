import DexAtlas.Opcode.Format

/-!
An opcode is a row of the instruction set: a mnemonic with its layout, the pools that its indexes
point into, its effects, and the value that stands for it in each version of the format.
-/
namespace DexAtlas

/-- What an index operand points into. -/
inductive PoolKind where
  | string
  | type
  | field
  | method
  | callSite
  | proto
  | methodHandle
  deriving DecidableEq, Repr

inductive Effect where
  | canThrow
  /-- Execution may go on with the next instruction. -/
  | canContinue
  | setsResult
  | setsRegister
  | setsWideRegister
  | staticFieldAccessor
  | canInitializeReference
  | fieldRead
  | fieldWrite
  | invoke
  | branch
  deriving DecidableEq, Repr

/-- The bit that stands for an effect in a set of flags. -/
def Effect.bit : Effect → Nat
  | .canThrow => 0x1
  | .canContinue => 0x4
  | .setsResult => 0x8
  | .setsRegister => 0x10
  | .setsWideRegister => 0x20
  | .staticFieldAccessor => 0x100
  | .canInitializeReference => 0x400
  | .fieldRead => 0x800
  | .fieldWrite => 0x1000
  | .invoke => 0x2000
  | .branch => 0x4000

/-- The set of flags of a list of distinct effects. -/
def Effect.bits (effects : List Effect) : Nat :=
  effects.foldr (fun effect bits => effect.bit + bits) 0

/-- The versions `low` to `high` and the value an opcode has there. -/
structure VersionSpan where
  low : Nat
  high : Nat
  value : Nat
  deriving DecidableEq, Repr

namespace VersionSpan

/-- From `version` on. -/
def since (version value : Nat) : VersionSpan := ⟨version, 0xFFFFFFFF, value⟩

def always (value : Nat) : VersionSpan := since 0 value

/-- The value at a version; of two spans that hold it the later one counts. -/
def valueAt? (spans : List VersionSpan) (version : Nat) : Option Nat :=
  spans.foldl (fun found span =>
    if span.low ≤ version ∧ version ≤ span.high then some span.value else found) none

end VersionSpan

structure Opcode where
  name : String
  format : Format
  reference : Option PoolKind
  /-- The pool of the second index, where there is one. -/
  reference2 : Option PoolKind
  effects : List Effect
  spans : List VersionSpan
  deriving DecidableEq, Repr

namespace Opcode

def valueAt? (opcode : Opcode) (version : Nat) : Option Nat :=
  VersionSpan.valueAt? opcode.spans version

def has (opcode : Opcode) (effect : Effect) : Bool :=
  decide (effect ∈ opcode.effects)

end Opcode

end DexAtlas
