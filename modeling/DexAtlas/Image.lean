import DexAtlas.Container.Basic
import Std.Data.HashMap

/-!
A loaded image: a container under a name and a number, with all its code decoded. A method id is
looked up in class data; of several entries for one id the last counts.
-/
namespace DexAtlas

structure Image where
  name : String
  /-- The position among the images of the package. -/
  index : Nat
  container : Container
  /-- The position of each class definition by its descriptor. -/
  classesByName : Std.HashMap String Nat
  /-- The entry of each declared method by its id. -/
  declared : Std.HashMap Nat EncodedMethod
  /-- The instructions of each method with code by its id. -/
  bodies : Std.HashMap Nat (Array Instruction)

namespace Image

/-- All entries for methods, definition by definition. -/
def entries (container : Container) : List EncodedMethod :=
  container.classDefs.toList.flatMap ClassDef.methods

def indexClasses (container : Container) : Std.HashMap String Nat :=
  container.classDefs.toList.zipIdx.foldl (fun index (classDef, position) =>
    match container.className? classDef with
    | some name => index.insert name position
    | none => index) ∅

def indexMethods (container : Container) : Std.HashMap Nat EncodedMethod :=
  (entries container).foldl (fun index method => index.insert method.id method) ∅

/-- The ids that have code in one of their entries. -/
def codedIds (container : Container) : Std.HashSet Nat :=
  (entries container).foldl (fun ids method =>
    if method.code.isSome then ids.insert method.id else ids) ∅

/-- Decodes the code of the entry that counts. -/
def decodeBody (container : Container) (declared : Std.HashMap Nat EncodedMethod) (id : Nat) :
    Except Error (Array Instruction) :=
  match declared[id]?.bind EncodedMethod.code with
  | none => .error (.of .bodyVanished)
  | some item =>
    match container.disassemble item with
    | .ok insns => .ok insns
    | .error e => .error (e.within (.method id))

/-- Decodes the code of every method, each id at its first entry. -/
def decodeBodies (container : Container) (declared : Std.HashMap Nat EncodedMethod) :
    Except Error (Std.HashMap Nat (Array Instruction)) :=
  let coded := codedIds container
  (entries container).foldlM (fun bodies method => do
    if coded.contains method.id && !bodies.contains method.id then
      return bodies.insert method.id (← decodeBody container declared method.id)
    else return bodies) ∅

def ofContainer (name : String) (index : Nat) (container : Container) : Except Error Image := do
  let declared := indexMethods container
  let bodies ← decodeBodies container declared
  return { name, index, container, classesByName := indexClasses container, declared, bodies }

/-- Reads an image and decodes its code. -/
def load (name : String) (index : Nat) (bytes : Bytes) (cancelled : Bool) :
    Journaled Error Image :=
  let parsed := Container.parse bytes cancelled
  match parsed.outcome with
  | .error e => ⟨.error e, parsed.notices⟩
  | .ok container =>
    match ofContainer name index container with
    | .error e => ⟨.error e, parsed.notices⟩
    | .ok image =>
      ⟨.ok image, parsed.notices.push
        (.loaded name container.version container.classDefs.size image.bodies.size)⟩

def classDef? (image : Image) (position : Nat) : Option ClassDef :=
  image.container.classDefs[position]?

def className? (image : Image) (position : Nat) : Option String :=
  (image.classDef? position).bind image.container.className?

/-- The definition of a class, by descriptor or by its name with dots. -/
def classByName? (image : Image) (name : String) : Option ClassDef :=
  image.classesByName[Descriptor.canonicalClass name]?.bind image.classDef?

def encodedMethod? (image : Image) (id : Nat) : Option EncodedMethod :=
  image.declared[id]?

/-- The instructions of a method that this image defines with code. -/
def body? (image : Image) (id : Nat) : Option (Array Instruction) :=
  image.bodies[id]?

end Image

end DexAtlas
