import DexAtlas.Container.Basic

/-!
Images written out, the way back from reading. Tables follow the header in their fixed order, and
behind them stands the data that they point into: the string items, then the type lists.
-/
namespace DexAtlas

open Bytes (toLittleEndian)

/-! ## Code items -/

def TryBlock.bytes (block : TryBlock) : List UInt8 :=
  toLittleEndian 4 block.start ++ toLittleEndian 2 block.count ++
    toLittleEndian 2 block.handlerOffset

def TypedHandler.bytes (handler : TypedHandler) : List UInt8 :=
  Leb128.encode handler.type ++ Leb128.encode handler.address

namespace CatchHandler

/-- The number of typed entries, negated when an address for all other exceptions follows. -/
def size (handler : CatchHandler) : Int :=
  if handler.catchAll.isSome then -handler.handlers.length else handler.handlers.length

def bytes (handler : CatchHandler) : List UInt8 :=
  Leb128.encodeSigned handler.size ++ handler.handlers.flatMap TypedHandler.bytes ++
    (handler.catchAll.map Leb128.encode).getD []

/-- The handler list of a code item. -/
def listBytes (handlers : List CatchHandler) : List UInt8 :=
  Leb128.encode handlers.length ++ handlers.flatMap bytes

end CatchHandler

namespace CodeItem

/-- Try blocks and handlers, with the unit before them that makes the number of units even. -/
def guardBytes (item : CodeItem) : List UInt8 :=
  if item.tries.isEmpty then []
  else
    (if item.code.length % 2 = 1 then [0, 0] else []) ++ item.tries.flatMap TryBlock.bytes ++
      CatchHandler.listBytes item.handlers

/-- A code item without debug information. -/
def bytes (item : CodeItem) : List UInt8 :=
  toLittleEndian 2 item.registers ++ toLittleEndian 2 item.ins ++ toLittleEndian 2 item.outs ++
    toLittleEndian 2 item.tries.length ++ toLittleEndian 4 0 ++
    toLittleEndian 4 item.code.length ++
    item.code.flatMap (fun unit => toLittleEndian 2 unit.toNat) ++ item.guardBytes

end CodeItem

/-! ## Class data -/

/-- Each id as its distance from the one before. -/
def ClassData.distances : Nat → List Nat → List Nat
  | _, [] => []
  | previous, id :: rest => (id - previous) :: distances id rest

def EncodedField.entryBytes (field : EncodedField) : List UInt8 :=
  Leb128.encode field.access

/-- A method points at its code item; offset zero stands for none. -/
def EncodedMethod.entryBytes (method : EncodedMethod) : List UInt8 :=
  Leb128.encode method.access ++ Leb128.encode ((method.code.map CodeItem.offset).getD 0)

namespace ClassData

/-- A list of members, each with what follows its id. -/
def memberBytes (members : List (Nat × List UInt8)) : List UInt8 :=
  ((distances 0 (members.map (·.1))).zip members).flatMap fun (distance, member) =>
    Leb128.encode distance ++ member.2

def fieldBytes (fields : List EncodedField) : List UInt8 :=
  memberBytes (fields.map fun field => (field.id, field.entryBytes))

def methodBytes (methods : List EncodedMethod) : List UInt8 :=
  memberBytes (methods.map fun method => (method.id, method.entryBytes))

/-- The four lists behind their four counts. The code items lie elsewhere. -/
def bytes (data : ClassData) : List UInt8 :=
  Leb128.encode data.staticFields.length ++ Leb128.encode data.instanceFields.length ++
    Leb128.encode data.directMethods.length ++ Leb128.encode data.virtualMethods.length ++
    fieldBytes data.staticFields ++ fieldBytes data.instanceFields ++
    methodBytes data.directMethods ++ methodBytes data.virtualMethods

end ClassData

/-! ## Whole images -/

def Extent.bytes (extent : Extent) : List UInt8 :=
  toLittleEndian 4 extent.size ++ toLittleEndian 4 extent.offset

def Header.bytes (header : Header) : List UInt8 :=
  header.magic.toList ++ toLittleEndian 4 header.checksum ++ header.signature.toList ++
    toLittleEndian 4 header.fileSize ++ toLittleEndian 4 header.headerSize ++
    toLittleEndian 4 header.endianTag ++ header.link.bytes ++ toLittleEndian 4 header.mapOffset ++
    header.strings.bytes ++ header.types.bytes ++ header.protos.bytes ++ header.fields.bytes ++
    header.methods.bytes ++ header.classDefs.bytes ++ header.data.bytes

namespace Layout

/-- String data: the number of units, the modified form, and a zero. -/
def stringItem (text : String) : List UInt8 :=
  let units := Text.Utf16.encode text.toList
  Leb128.encode units.length ++ Text.Mutf8.encode units ++ [0]

/-- A list of type ids; an empty one takes no place. -/
def typeList (ids : List Nat) : List UInt8 :=
  if ids.isEmpty then [] else toLittleEndian 4 ids.length ++ ids.flatMap (toLittleEndian 2)

/-- Items one after another from `base` on, each moved up to a multiple of `unit`: where they
start, and all their bytes. An empty item has offset zero. -/
def place (unit : Nat) : Nat → List (List UInt8) → List Nat × List UInt8
  | _, [] => ([], [])
  | base, item :: rest =>
    if item.isEmpty then
      let (offsets, bytes) := place unit base rest
      (0 :: offsets, bytes)
    else
      let gap := (unit - base % unit) % unit
      let (offsets, bytes) := place unit (base + gap + item.length) rest
      ((base + gap) :: offsets, List.replicate gap 0 ++ item ++ bytes)

def protoItem (proto : ProtoItem) (parameters : Nat) : List UInt8 :=
  toLittleEndian 4 proto.shorty ++ toLittleEndian 4 proto.result ++ toLittleEndian 4 parameters

def fieldItem (field : FieldItem) : List UInt8 :=
  toLittleEndian 2 field.owner ++ toLittleEndian 2 field.type ++ toLittleEndian 4 field.name

def methodItem (method : MethodItem) : List UInt8 :=
  toLittleEndian 2 method.owner ++ toLittleEndian 2 method.proto ++ toLittleEndian 4 method.name

/-- A class definition without class data. -/
def classDef (definition : ClassDef) (interfaces : Nat) : List UInt8 :=
  toLittleEndian 4 definition.type ++ toLittleEndian 4 definition.access ++
    toLittleEndian 4 (definition.superclass.getD Tables.noIndex) ++ toLittleEndian 4 interfaces ++
    toLittleEndian 4 (definition.sourceFile.getD Tables.noIndex) ++
    toLittleEndian 4 definition.annotationsOffset ++ toLittleEndian 4 0 ++
    toLittleEndian 4 definition.staticValuesOffset

/-- Where the tables of the given sizes start, one behind the other. An empty one has offset
zero. -/
def extents : Nat → List (Nat × Nat) → List Extent
  | _, [] => []
  | base, (size, width) :: rest =>
    ⟨size, if size = 0 then 0 else base⟩ :: extents (base + size * width) rest

/-- The sizes of the six tables with the width of an entry. -/
def tables (pools : Pools) (classDefs : List ClassDef) : List (Nat × Nat) :=
  [(pools.strings.size, 4), (pools.types.size, 4), (pools.protos.size, 12),
    (pools.fields.size, 8), (pools.methods.size, 8), (classDefs.length, 32)]

/-- Where the data behind the tables starts. -/
def dataStart (pools : Pools) (classDefs : List ClassDef) : Nat :=
  (tables pools classDefs).foldr (fun (size, width) bytes => size * width + bytes) Header.byteSize

def header (version : Nat) (pools : Pools) (classDefs : List ClassDef) (data : Nat) : Header :=
  let start := dataStart pools classDefs
  let extent (i : Nat) : Extent :=
    (extents Header.byteSize (tables pools classDefs))[i]?.getD ⟨0, 0⟩
  { magic := Header.magicOf version
    checksum := 0
    signature := Array.replicate 20 0
    fileSize := start + data
    headerSize := Header.byteSize
    endianTag := Header.littleEndianTag
    link := ⟨0, 0⟩
    mapOffset := 0
    strings := extent 0
    types := extent 1
    protos := extent 2
    fields := extent 3
    methods := extent 4
    classDefs := extent 5
    data := ⟨data, start⟩ }

/-- An image with the given pools and class definitions, which have no class data. -/
def image (version : Nat) (pools : Pools) (classDefs : List ClassDef) : List UInt8 :=
  let start := dataStart pools classDefs
  let (stringOffsets, stringBytes) := place 1 start (pools.strings.toList.map stringItem)
  let lists := pools.protos.toList.map ProtoItem.parameters ++ classDefs.map ClassDef.interfaces
  let (listOffsets, listBytes) := place 4 (start + stringBytes.length) (lists.map typeList)
  let data := stringBytes ++ listBytes
  let (protoOffsets, interfaceOffsets) := listOffsets.splitAt pools.protos.size
  (header version pools classDefs data.length).bytes ++
    stringOffsets.flatMap (toLittleEndian 4) ++
    pools.types.toList.flatMap (toLittleEndian 4) ++
    (List.zipWith protoItem pools.protos.toList protoOffsets).flatten ++
    pools.fields.toList.flatMap fieldItem ++
    pools.methods.toList.flatMap methodItem ++
    (List.zipWith classDef classDefs interfaceOffsets).flatten ++
    data

end Layout

end DexAtlas
