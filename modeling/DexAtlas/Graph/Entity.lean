import DexAtlas.Descriptor
import DexAtlas.Graph.Registry

/-!
What is known of the classes, methods, fields and string literals of a package. Each entity lists
where it is used; a method also lists what its own code uses.
-/
namespace DexAtlas

/-- A place in code: the method and the byte offset of the instruction. -/
structure Site where
  method : MethodKey
  offset : Nat
  deriving DecidableEq, Repr

/-- What an instruction uses. -/
inductive Target where
  | ofClass (key : ClassKey)
  | ofMethod (key : MethodKey)
  | ofField (key : FieldKey)
  | ofString (key : StringKey)
  deriving DecidableEq, Repr

def Target.ofKey : (kind : EntityKind) → Key kind → Target
  | .classes => ofClass
  | .methods => ofMethod
  | .fields => ofField
  | .strings => ofString

/-- A use made by the code of a method. -/
structure Use where
  offset : Nat
  target : Target
  deriving DecidableEq, Repr

/-- Where a class is defined: the image and the position among its definitions. -/
structure Origin where
  image : Nat
  position : Nat
  deriving DecidableEq, Repr

/-- A superclass or interface, inside the package or outside. -/
inductive Link where
  | inside (key : ClassKey)
  | outside (name : String)
  deriving DecidableEq, Repr

/-- How a class is used. -/
inductive ClassUse where
  | newInstance
  | constClass
  | typeCheck
  | newArray
  | methodCall
  | fieldAccess
  deriving DecidableEq, Repr

/-- The use that an instruction with a type operand makes of it. -/
def ClassUse.ofMnemonic? : String → Option ClassUse
  | "new-instance" => some .newInstance
  | "const-class" => some .constClass
  | "check-cast" | "instance-of" => some .typeCheck
  | "new-array" | "filled-new-array" | "filled-new-array/range" => some .newArray
  | _ => none

/-- A use of one class by another, kept at both ends. -/
structure ClassEdge where
  /-- The class at the other end. -/
  other : ClassKey
  use : ClassUse
  site : Site
  deriving DecidableEq, Repr

structure ClassEntity where
  key : ClassKey
  /-- The descriptor. -/
  name : String
  /-- Used, but defined by no image of the package. -/
  external : Bool
  access : Nat := 0
  /-- All definitions in order; the first one supplies access flags and ancestors. -/
  definitions : Array Origin := #[]
  superclass : Option Link := none
  interfaces : List Link := []
  /-- Declared members in order, then those that are only used, by first use. -/
  methods : Array MethodKey := #[]
  fields : Array FieldKey := #[]
  /-- Uses of this class by others, and of others by this class. -/
  incoming : Array ClassEdge := #[]
  outgoing : Array ClassEdge := #[]
  deriving DecidableEq, Repr

namespace ClassEntity

/-- The name with dots, if it is that of a class. -/
def javaName (c : ClassEntity) : String :=
  match ClassName.ofDescriptor? c.name with
  | some name => name.java
  | none => c.name

def origin? (c : ClassEntity) : Option Origin := c.definitions[0]?

def isInterface (c : ClassEntity) : Bool := c.access.testBit 9

/-- Adds a definition. The first one supplies access flags and ancestors. -/
def define (c : ClassEntity) (origin : Origin) (access : Nat) (superclass : Option String)
    (interfaces : List String) : ClassEntity :=
  if c.definitions.isEmpty then
    { c with
      external := false
      definitions := c.definitions.push origin
      access
      superclass := superclass.map .outside
      interfaces := interfaces.map .outside }
  else { c with external := false, definitions := c.definitions.push origin }

end ClassEntity

structure MethodEntity where
  key : MethodKey
  /-- The class; an array type as receiver has none. -/
  owner : Option ClassKey
  ownerName : String
  name : String
  /-- The prototype. -/
  descriptor : String
  access : Nat := 0
  /-- The declaration that counts has no code. -/
  external : Bool
  /-- The declaration that counts, absent for methods that are only used. -/
  location : Option Record
  callers : Array Site := #[]
  /-- What the code uses, in the order of its instructions. -/
  uses : Array Use := #[]
  deriving DecidableEq, Repr

namespace MethodEntity

def fullName (m : MethodEntity) : String :=
  Descriptor.methodName m.ownerName m.name m.descriptor

def signature? (m : MethodEntity) : Option MethodType :=
  MethodType.ofDescriptor? m.descriptor

/-- The methods that the code calls, with the offset of each call. -/
def callees (m : MethodEntity) : List (Nat × MethodKey) :=
  m.uses.toList.filterMap fun use =>
    match use.target with
    | .ofMethod key => some (use.offset, key)
    | _ => none

def isConstructor (m : MethodEntity) : Bool :=
  m.name == "<init>" || m.name == "<clinit>"

end MethodEntity

structure FieldEntity where
  key : FieldKey
  owner : Option ClassKey
  ownerName : String
  name : String
  descriptor : String
  access : Nat := 0
  external : Bool
  location : Option Record
  reads : Array Site := #[]
  writes : Array Site := #[]
  deriving DecidableEq, Repr

namespace FieldEntity

def fullName (f : FieldEntity) : String :=
  Descriptor.fieldName f.ownerName f.name f.descriptor

/-- All accesses, reads first. -/
def accesses (f : FieldEntity) : Array Site := f.reads ++ f.writes

end FieldEntity

structure StringEntity where
  key : StringKey
  value : String
  /-- The instructions that load the literal. -/
  loads : Array Site := #[]
  deriving DecidableEq, Repr

/-- The entities of a sort. -/
abbrev Entity : EntityKind → Type
  | .classes => ClassEntity
  | .methods => MethodEntity
  | .fields => FieldEntity
  | .strings => StringEntity

/-- The entities of a package. -/
structure Graph where
  classes : Registry .classes ClassEntity := {}
  methods : Registry .methods MethodEntity := {}
  fields : Registry .fields FieldEntity := {}
  strings : Registry .strings StringEntity := {}

namespace Graph

/-- The registry of a sort. -/
def registry (graph : Graph) : (kind : EntityKind) → Registry kind (Entity kind)
  | .classes => graph.classes
  | .methods => graph.methods
  | .fields => graph.fields
  | .strings => graph.strings

/-- Changes the registry of a sort and yields what the change returns. -/
def modifyGet {β : Type} : Graph → (kind : EntityKind) →
    (Registry kind (Entity kind) → β × Registry kind (Entity kind)) → β × Graph
  | ⟨classes, methods, fields, strings⟩, .classes, f =>
    let (b, classes) := f classes
    (b, ⟨classes, methods, fields, strings⟩)
  | ⟨classes, methods, fields, strings⟩, .methods, f =>
    let (b, methods) := f methods
    (b, ⟨classes, methods, fields, strings⟩)
  | ⟨classes, methods, fields, strings⟩, .fields, f =>
    let (b, fields) := f fields
    (b, ⟨classes, methods, fields, strings⟩)
  | ⟨classes, methods, fields, strings⟩, .strings, f =>
    let (b, strings) := f strings
    (b, ⟨classes, methods, fields, strings⟩)

end Graph

end DexAtlas
