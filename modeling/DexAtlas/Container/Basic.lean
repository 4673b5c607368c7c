import DexAtlas.Container.ClassDef
import DexAtlas.Instruction.Decode
import Std.Data.HashSet

/-!
A whole image: header, pools and class definitions. No two definitions are of the same class, and
a definition lists only members of its own class.
-/
namespace DexAtlas

structure Container where
  header : Header
  pools : Pools
  classDefs : Array ClassDef
  /-- The bytes the image was read from. -/
  data : Bytes

namespace Container

/-! ## Reading -/

/-- The first method that belongs to another class. -/
def foreignMethod? (pools : Pools) (classDef : ClassDef) : Option EncodedMethod :=
  classDef.methods.find? fun m => pools.methods[m.id]?.map MethodItem.owner != some classDef.type

/-- The first field that belongs to another class. -/
def foreignField? (pools : Pools) (classDef : ClassDef) : Option EncodedField :=
  classDef.fields.find? fun f => pools.fields[f.id]?.map FieldItem.owner != some classDef.type

/-- What a definition at `position` must satisfy beside the classes already `seen`. -/
def checkDef (pools : Pools) (seen : Std.HashSet Nat) (position : Nat) (classDef : ClassDef) :
    Except Cause Unit :=
  let descriptor := (pools.typeDescriptor? classDef.type).getD ""
  if seen.contains classDef.type then .error (.duplicateClass descriptor position)
  else
    match foreignMethod? pools classDef with
    | some m => .error (.foreignMethod position descriptor m.id)
    | none =>
      match foreignField? pools classDef with
      | some f => .error (.foreignField position descriptor f.id)
      | none => .ok ()

/-- Reads definitions one after another; a raised `cancelled` stops before the next. -/
def classDefsFrom (cancelled : Bool) (pools : Pools) :
    Nat → Std.HashSet Nat → Array ClassDef → Reader (Array ClassDef)
  | 0, _, done => pure done
  | left + 1, seen, done => do
    Reader.ensure (cancelled = false) .cancelled
    let position := done.size
    let classDef ← Reader.within (.classDef position (pools.typeDescriptor? position))
      (ClassDef.read pools.sizes)
    match checkDef pools seen position classDef with
    | .error cause => Reader.fail cause
    | .ok () => classDefsFrom cancelled pools left (seen.insert classDef.type) (done.push classDef)

def read (cancelled : Bool) : Reader Container := do
  let header ← Header.read
  let pools ← Tables.pools header
  Tables.enter "class_defs" 32 header.classDefs
  let classDefs ← classDefsFrom cancelled pools header.classDefs.size ∅ #[]
  Reader.raise (.parsed header.version pools.strings.size pools.types.size pools.protos.size
    pools.fields.size pools.methods.size classDefs.size)
  let data ← MonadReaderOf.read
  return { header, pools, classDefs, data }

/-- Reads an image from its bytes. -/
def parse (bytes : Bytes) (cancelled : Bool) : Journaled Error Container :=
  match (read cancelled).runAt bytes 0 with
  | .ok container cursor => ⟨.ok container, cursor.notices⟩
  | .error e cursor => ⟨.error e, cursor.notices⟩

/-! ## Names -/

def version (container : Container) : Nat := container.header.version

def className? (container : Container) (classDef : ClassDef) : Option String :=
  container.pools.typeDescriptor? classDef.type

def superclassName? (container : Container) (classDef : ClassDef) : Option String :=
  classDef.superclass.bind container.pools.typeDescriptor?

def interfaceNames (container : Container) (classDef : ClassDef) : List String :=
  classDef.interfaces.filterMap container.pools.typeDescriptor?

def sourceFile? (container : Container) (classDef : ClassDef) : Option String :=
  classDef.sourceFile.bind container.pools.string?

/-! ## Code -/

/-- The instructions of a code item of this image. -/
def disassemble (container : Container) (item : CodeItem) : Except Error (Array Instruction) :=
  match Instruction.decode container.version container.pools.resolve item.code with
  | .ok insns => .ok insns
  | .error e => .error (e.within (.codeItem item.offset))

end Container

end DexAtlas
