import DexAtlas.Container.CodeItem

/-!
Class definitions and the members that they declare. Members come in four lists, each with ids
that increase; an id is stored as the distance from the one before.
-/
namespace DexAtlas

structure EncodedField where
  id : Nat
  access : Nat
  deriving DecidableEq, Repr

structure EncodedMethod where
  id : Nat
  access : Nat
  code : Option CodeItem
  deriving DecidableEq, Repr

structure ClassData where
  staticFields : List EncodedField
  instanceFields : List EncodedField
  directMethods : List EncodedMethod
  virtualMethods : List EncodedMethod
  deriving DecidableEq, Repr

/-- How many entries the pools have that class definitions refer to. -/
structure PoolSizes where
  strings : Nat
  types : Nat
  fields : Nat
  methods : Nat
  deriving DecidableEq, Repr

def Pools.sizes (pools : Pools) : PoolSizes :=
  ⟨pools.strings.size, pools.types.size, pools.fields.size, pools.methods.size⟩

namespace ClassData

/-- Direct methods, then virtual ones. -/
def methods (data : ClassData) : List EncodedMethod :=
  data.directMethods ++ data.virtualMethods

/-- Static fields, then instance fields. -/
def fields (data : ClassData) : List EncodedField :=
  data.staticFields ++ data.instanceFields

/-- The id after `previous` at a given distance. -/
def nextId (what : String) (previous : Option Nat) (distance : Nat) : Except Cause Nat :=
  match previous with
  | none => .ok distance
  | some id =>
    if distance = 0 then .error (.idOrder what)
    else if id + distance < UInt32.size then .ok (id + distance)
    else .error (.idOverflow what)

/-- A list of `count` members of a pool of `size` entries, where `entry` reads what follows the id.
Each member takes at least `width` bytes, so a longer list than fits is refused at once. -/
def members {α : Type} (what : String) (width size count : Nat) (entry : Nat → Reader α) :
    Reader (List α) := do
  let limit ← Reader.bufferSize
  Reader.ensure (count ≤ limit / width) (.countTooLarge what count)
  more count none #[]
where
  more : Nat → Option Nat → Array α → Reader (List α)
    | 0, _, done => pure done.toList
    | left + 1, previous, done => do
      let distance ← Reader.uleb128
      match nextId what previous distance with
      | .error cause => Reader.fail cause
      | .ok id =>
        Tables.checkId what size id
        let item ← entry id
        more left (some id) (done.push item)

def encodedField (id : Nat) : Reader EncodedField := do
  let access ← Reader.uleb128
  return ⟨id, access⟩

def codeAt (what : String) (sizes : PoolSizes) (id offset : Nat) : Reader (Option CodeItem) :=
  if offset = 0 then pure none
  else
    some <$> Reader.within (.member what id offset)
      (Reader.elsewhere offset (CodeItem.read sizes.strings sizes.types))

def encodedMethod (what : String) (sizes : PoolSizes) (id : Nat) : Reader EncodedMethod := do
  let access ← Reader.uleb128
  let offset ← Reader.uleb128
  let code ← codeAt what sizes id offset
  return ⟨id, access, code⟩

def fieldList (what : String) (sizes : PoolSizes) (count : Nat) : Reader (List EncodedField) :=
  members what 2 sizes.fields count encodedField

def methodList (what : String) (sizes : PoolSizes) (count : Nat) : Reader (List EncodedMethod) :=
  members what 3 sizes.methods count (encodedMethod what sizes)

def read (sizes : PoolSizes) : Reader ClassData := do
  let staticCount ← Reader.uleb128
  let instanceCount ← Reader.uleb128
  let directCount ← Reader.uleb128
  let virtualCount ← Reader.uleb128
  let staticFields ← fieldList "static field" sizes staticCount
  let instanceFields ← fieldList "instance field" sizes instanceCount
  let directMethods ← methodList "direct method" sizes directCount
  let virtualMethods ← methodList "virtual method" sizes virtualCount
  return { staticFields, instanceFields, directMethods, virtualMethods }

end ClassData

structure ClassDef where
  type : Nat
  access : Nat
  superclass : Option Nat
  interfaces : List Nat
  sourceFile : Option Nat
  /-- Where annotations and initial values are; they are not read. -/
  annotationsOffset : Nat
  staticValuesOffset : Nat
  data : Option ClassData
  deriving DecidableEq, Repr

namespace ClassDef

def methods (classDef : ClassDef) : List EncodedMethod :=
  match classDef.data with
  | some data => data.methods
  | none => []

def fields (classDef : ClassDef) : List EncodedField :=
  match classDef.data with
  | some data => data.fields
  | none => []

def dataAt (sizes : PoolSizes) (offset : Nat) : Reader (Option ClassData) :=
  if offset = 0 then pure none
  else some <$> Reader.elsewhere offset (ClassData.read sizes)

def read (sizes : PoolSizes) : Reader ClassDef := do
  let type ← Reader.u4
  Tables.checkId "class_def type" sizes.types type
  let access ← Reader.u4
  let superclassId ← Reader.u4
  let superclass ← Tables.optionalId "superclass type" sizes.types superclassId
  let interfacesOffset ← Reader.u4
  let interfaces ← Tables.typeListAt sizes.types interfacesOffset
  let sourceFileId ← Reader.u4
  let sourceFile ← Tables.optionalId "source file string" sizes.strings sourceFileId
  let annotationsOffset ← Reader.u4
  let dataOffset ← Reader.u4
  let data ← dataAt sizes dataOffset
  let staticValuesOffset ← Reader.u4
  return { type, access, superclass, interfaces, sourceFile, annotationsOffset,
           staticValuesOffset, data }

end ClassDef

end DexAtlas
