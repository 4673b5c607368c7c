import DexAtlas.Archive.Images
import DexAtlas.Graph.Build
import DexAtlas.Package.Error

/-!
A package: the images that loaded, in order, and the graph over all of them. An image that does not
load is either passed over or makes the whole package fail, as the caller chooses.
-/
namespace DexAtlas

structure Options where
  /-- Go on with the images that load. -/
  skipBadImages : Bool := false
  /-- Note the uses of every entity. -/
  keepUses : Bool := true
  /-- The caller asks to stop. -/
  cancelled : Bool := false
  deriving DecidableEq, Repr

structure Package where
  images : Array Image
  graph : Graph
  /-- The images that were passed over. -/
  failures : List ImageFailure

namespace Package

/-! ## Opening -/

/-- Inputs after loading: the images that loaded, the failures with their place in the input, and
all notices. -/
structure Loaded where
  images : Array Image := #[]
  failures : Array ImageFailure := #[]
  notices : Array Notice := #[]

/-- Adds the next input. Its image goes by the position in the input. -/
def Loaded.add (loaded : Loaded) (cancelled : Bool) (position : Nat) (name : String)
    (bytes : Bytes) : Loaded :=
  let image := Image.load name position bytes cancelled
  let notices := loaded.notices ++ image.notices
  match image.outcome with
  | .ok image => { loaded with images := loaded.images.push image, notices }
  | .error error =>
    { loaded with failures := loaded.failures.push ⟨name, position, error⟩, notices }

/-- Images under the numbers of their places. -/
def renumber (images : Array Image) : Array Image :=
  images.mapIdx fun place image => { image with index := place }

/-- Loads all inputs one after another, and then reports those that failed and numbers those that
loaded. -/
def loadAll (cancelled : Bool) (inputs : List (String × Bytes)) : Loaded :=
  let loaded : Loaded := inputs.zipIdx.foldl (fun loaded ((name, bytes), position) =>
    loaded.add cancelled position name bytes) {}
  { loaded with
    images := renumber loaded.images
    notices := loaded.notices ++ loaded.failures.map .loadFailed }

/-- Whether the caller asked to stop before all inputs were loaded. -/
def Loaded.isCancelled (loaded : Loaded) (options : Options) : Bool :=
  options.cancelled || loaded.failures.any fun failure => failure.error.kind = .cancelled

/-- Opens a package of named images. -/
def ofImages (inputs : List (String × Bytes)) (options : Options) :
    Journaled PackageError Package :=
  let loaded := loadAll options.cancelled inputs
  if loaded.isCancelled options then ⟨.error (.build (.of .cancelled)), loaded.notices⟩
  else if !loaded.failures.isEmpty && !options.skipBadImages then
    ⟨.error (.images loaded.failures.toList), loaded.notices⟩
  else
    let built := Graph.build options.cancelled options.keepUses loaded.images.toList
    let notices := loaded.notices ++ built.notices
    match built.outcome with
    | .error e => ⟨.error (.build e), notices⟩
    | .ok graph =>
      ⟨.ok ⟨loaded.images, graph, loaded.failures.toList⟩, notices.push
        (.analysed loaded.images.size graph.classes.size graph.methods.size graph.fields.size
          graph.strings.size)⟩

/-- Opens the package in an archive of some format. -/
def ofFormat {α : Type} (format : Archive.Format α) (bytes : Bytes) (options : Options) :
    Journaled PackageError Package :=
  let archive := format.images bytes
  match archive.outcome with
  | .error fault => ⟨.error (.ofArchive fault), archive.notices⟩
  | .ok images =>
    let opened := ofImages images options
    ⟨opened.outcome, archive.notices ++ opened.notices⟩

/-! ## Look-ups -/

def imageByName? (package : Package) (name : String) : Option Image :=
  package.images.find? fun image => image.name == name

/-- A class by descriptor or by its name with dots. -/
def classNamed? (package : Package) (name : String) : Option ClassEntity :=
  package.graph.classes.resolve? (.name (Descriptor.canonicalClass name))

/-- A method by its name across images. -/
def methodNamed? (package : Package) (name : String) : Option MethodEntity :=
  package.graph.methods.resolve? (.name name)

/-- A field by its name across images. -/
def fieldNamed? (package : Package) (name : String) : Option FieldEntity :=
  package.graph.fields.resolve? (.name name)

/-- A string literal by its value. -/
def stringOf? (package : Package) (value : String) : Option StringEntity :=
  package.graph.strings.resolve? (.name value)

/-- The class of a definition of one image. -/
def classOf? (package : Package) (image : Nat) (classDef : ClassDef) : Option ClassEntity :=
  package.graph.classes.resolve? (.record ⟨image, classDef.type⟩)

/-- The method of an entry of one image. -/
def methodOf? (package : Package) (image : Nat) (method : EncodedMethod) : Option MethodEntity :=
  package.graph.methods.resolve? (.record ⟨image, method.id⟩)

/-- The field of an entry of one image. -/
def fieldOf? (package : Package) (image : Nat) (field : EncodedField) : Option FieldEntity :=
  package.graph.fields.resolve? (.record ⟨image, field.id⟩)

/-- The method at a position of its registry. -/
def methodAt? (package : Package) (index : Nat) : Option MethodEntity :=
  (Key.ofIndex? index).bind package.graph.methods.get?

/-- The instructions of a method of the package. -/
def bodyOf? (package : Package) (name : String) : Option (Array Instruction) := do
  let method ← package.methodNamed? name
  let location ← method.location
  let image ← package.images[location.image]?
  image.body? location.id

def isExternal? (package : Package) (name : String) : Option Bool :=
  (package.methodNamed? name).map MethodEntity.external

def externalMethods (package : Package) : Nat :=
  package.graph.methods.arena.countP MethodEntity.external

end Package

end DexAtlas
