import DexAtlas.Bytes
import DexAtlas.Descriptor

/-!
The five pools of an image: strings, types, prototypes, fields and methods. Entries refer to each
other by id. Nothing here assumes that an id is in range, so each look-up may find nothing.
-/
namespace DexAtlas

/-- A prototype: the string of its short form, its result type and its parameter types. -/
structure ProtoItem where
  shorty : Nat
  result : Nat
  parameters : List Nat
  deriving DecidableEq, Repr

/-- A field: its class, its type and its name. -/
structure FieldItem where
  owner : Nat
  type : Nat
  name : Nat
  deriving DecidableEq, Repr

/-- A method: its class, its prototype and its name. -/
structure MethodItem where
  owner : Nat
  proto : Nat
  name : Nat
  deriving DecidableEq, Repr

structure Pools where
  strings : Array String := #[]
  /-- The string that spells each type. -/
  types : Array Nat := #[]
  protos : Array ProtoItem := #[]
  fields : Array FieldItem := #[]
  methods : Array MethodItem := #[]
  deriving DecidableEq, Repr

namespace Pools

def string? (pools : Pools) (id : Nat) : Option String :=
  pools.strings[id]?

def typeDescriptor? (pools : Pools) (id : Nat) : Option String := do
  pools.string? (← pools.types[id]?)

/-- The descriptor of a prototype, parameters in parentheses and then the result. -/
def protoDescriptor? (pools : Pools) (id : Nat) : Option String := do
  let proto ← pools.protos[id]?
  let parameters ← proto.parameters.mapM pools.typeDescriptor?
  let result ← pools.typeDescriptor? proto.result
  return "(" ++ String.join parameters ++ ")" ++ result

/-- A member taken apart: its class, its name, and its prototype or type. -/
structure Member where
  owner : String
  name : String
  descriptor : String
  deriving DecidableEq, Repr

def method? (pools : Pools) (id : Nat) : Option Member := do
  let item ← pools.methods[id]?
  return ⟨← pools.typeDescriptor? item.owner, ← pools.string? item.name,
    ← pools.protoDescriptor? item.proto⟩

def field? (pools : Pools) (id : Nat) : Option Member := do
  let item ← pools.fields[id]?
  return ⟨← pools.typeDescriptor? item.owner, ← pools.string? item.name,
    ← pools.typeDescriptor? item.type⟩

def Member.methodName (member : Member) : String :=
  Descriptor.methodName member.owner member.name member.descriptor

def Member.fieldName (member : Member) : String :=
  Descriptor.fieldName member.owner member.name member.descriptor

def methodName? (pools : Pools) (id : Nat) : Option String :=
  (pools.method? id).map Member.methodName

def fieldName? (pools : Pools) (id : Nat) : Option String :=
  (pools.field? id).map Member.fieldName

end Pools

end DexAtlas
