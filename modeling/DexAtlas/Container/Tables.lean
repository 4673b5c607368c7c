import DexAtlas.Container.Header
import DexAtlas.Pools

/-!
The id tables of an image. Every id is checked against the pool it points into as it is read, so
that the pools refer only to entries that exist.
-/
namespace DexAtlas.Tables

/-- The id that stands for "none". -/
def noIndex : Nat := 0xFFFFFFFF

/-- An id must lie below the size of its pool. -/
def checkId (what : String) (size id : Nat) : Reader Unit :=
  Reader.ensure (id < size) (.indexRange what id size)

def optionalId (what : String) (size id : Nat) : Reader (Option Nat) := do
  if id = noIndex then return none
  checkId what size id
  return some id

/-- Moves to a table of entries of `width` bytes. An empty one may be anywhere; any other lies
behind the header and inside the buffer. -/
def enter (what : String) (width : Nat) (extent : Extent) : Reader Unit := do
  let size ← Reader.bufferSize
  Reader.ensure
    (extent.size = 0 ∨
      (Header.byteSize ≤ extent.offset ∧ extent.offset + extent.size * width ≤ size))
    (.sectionRange what extent.size extent.offset)
  Reader.seek extent.offset

/-- A counted list of type ids. -/
def typeList (types : Nat) : Reader (List Nat) := do
  let count ← Reader.u4
  let here ← Reader.position
  let size ← Reader.bufferSize
  Reader.ensure (here + count * 2 ≤ size) (.typeListTruncated count here)
  let ids ← Reader.collect count fun _ => do
    let id ← Reader.u2
    checkId "type_list type" types id
    return id
  return ids.toList

/-- A type list that is absent at offset zero. -/
def typeListAt (types offset : Nat) : Reader (List Nat) :=
  if offset = 0 then pure [] else Reader.elsewhere offset (typeList types)

def fieldItem : Reader FieldItem := do
  let owner ← Reader.u2
  let type ← Reader.u2
  let name ← Reader.u4
  return ⟨owner, type, name⟩

def methodItem : Reader MethodItem := do
  let owner ← Reader.u2
  let proto ← Reader.u2
  let name ← Reader.u4
  return ⟨owner, proto, name⟩

def strings (extent : Extent) : Reader (Array String) := do
  enter "string_ids" 4 extent
  Reader.collect extent.size fun i => do
    let offset ← Reader.u4
    Reader.within (.stringItem i) (Reader.elsewhere offset Reader.text)

def types (extent : Extent) (strings : Nat) : Reader (Array Nat) := do
  enter "type_ids" 4 extent
  Reader.collect extent.size fun _ => do
    let id ← Reader.u4
    checkId "type descriptor string" strings id
    return id

def protos (extent : Extent) (strings types : Nat) : Reader (Array ProtoItem) := do
  enter "proto_ids" 12 extent
  Reader.collect extent.size fun i => do
    let shorty ← Reader.u4
    checkId "proto shorty string" strings shorty
    let result ← Reader.u4
    checkId "proto return type" types result
    let offset ← Reader.u4
    let parameters ← Reader.within (.protoItem i) (typeListAt types offset)
    return ⟨shorty, result, parameters⟩

def fields (extent : Extent) (strings types : Nat) : Reader (Array FieldItem) := do
  enter "field_ids" 8 extent
  Reader.collect extent.size fun _ => do
    let item ← fieldItem
    checkId "field class type" types item.owner
    checkId "field type" types item.type
    checkId "field name string" strings item.name
    return item

def methods (extent : Extent) (strings types protos : Nat) : Reader (Array MethodItem) := do
  enter "method_ids" 8 extent
  Reader.collect extent.size fun _ => do
    let item ← methodItem
    checkId "method class type" types item.owner
    checkId "method proto" protos item.proto
    checkId "method name string" strings item.name
    return item

/-- All five tables, in the order of their dependence. -/
def pools (header : Header) : Reader Pools := do
  let strings ← strings header.strings
  let types ← types header.types strings.size
  let protos ← protos header.protos strings.size types.size
  let fields ← fields header.fields strings.size types.size
  let methods ← methods header.methods strings.size types.size protos.size
  return { strings, types, protos, fields, methods }

end DexAtlas.Tables
