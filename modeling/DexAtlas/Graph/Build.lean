import DexAtlas.Graph.Entity
import DexAtlas.Image

/-!
The graph of a package, built in three passes over its images in order. First every class that is
defined becomes an entity, with its members. Then superclasses and interfaces are tied to the
definitions that are now known. Last the code of every method is searched, and what it uses is
noted at both ends; a class or member that the package lacks becomes an external entity when it is
first met.
-/
namespace DexAtlas

/-! ## Members -/

/-- The two kinds of member. Both are declared and met in the same way. -/
inductive MemberKind where
  | field
  | method
  deriving DecidableEq, Repr

namespace MemberKind

/-- The sort of entity that a member is. -/
abbrev sort : MemberKind → EntityKind
  | field => .fields
  | method => .methods

def find? (pools : Pools) : MemberKind → Nat → Option Pools.Member
  | field => pools.field?
  | method => pools.method?

def noun : MemberKind → String
  | field => "field"
  | method => "method"

def fullName : MemberKind → Pools.Member → String
  | field => Pools.Member.fieldName
  | method => Pools.Member.methodName

/-- A member that nothing uses yet. -/
def make (owner : Option ClassKey) (member : Pools.Member) (access : Nat) (external : Bool)
    (location : Option Record) : (kind : MemberKind) → Key kind.sort → Entity kind.sort
  | field => fun key =>
    { key, owner, ownerName := member.owner, name := member.name,
      descriptor := member.descriptor, access, external, location : FieldEntity }
  | method => fun key =>
    { key, owner, ownerName := member.owner, name := member.name,
      descriptor := member.descriptor, access, external, location : MethodEntity }

/-- Adds a member to a class. -/
def addTo (c : ClassEntity) : (kind : MemberKind) → Key kind.sort → ClassEntity
  | field => fun key => { c with fields := c.fields.push key }
  | method => fun key => { c with methods := c.methods.push key }

/-- Notes at a member that it is used. -/
def addSite (insn : Instruction) (site : Site) :
    (kind : MemberKind) → Entity kind.sort → Entity kind.sort
  | field => fun f =>
    if insn.writesField then { f with writes := f.writes.push site }
    else { f with reads := f.reads.push site }
  | method => fun m => { m with callers := m.callers.push site }

/-- How the class of a member is used where the member is. -/
def use : MemberKind → ClassUse
  | field => .fieldAccess
  | method => .methodCall

end MemberKind

/-- A graph under construction. -/
structure Build where
  graph : Graph := {}
  notices : Array Notice := #[]

abbrev Builder := EStateM Error Build

namespace Builder

/-! ## Steps -/

def fail {α : Type} (cause : Cause) : Builder α :=
  fun state => .error (.of cause) state

def missing {α : Type} (what : String) : Builder α := fail (.missing what)

def raise (notice : Notice) : Builder Unit :=
  fun state => .ok () { state with notices := state.notices.push notice }

def within {α : Type} (context : Context) (step : Builder α) : Builder α :=
  fun state =>
    match step state with
    | .ok a state => .ok a state
    | .error e state => .error (e.within context) state

/-- Looks at the graph as it is. -/
def graph : Builder Graph :=
  fun state => .ok state.graph state

/-- Runs a step of one registry. -/
def onRegistry {β : Type} (kind : EntityKind)
    (step : Registry kind (Entity kind) → Except Cause β × Registry kind (Entity kind)) :
    Builder β :=
  fun ⟨graph, notices⟩ =>
    let (result, graph) := graph.modifyGet kind step
    match result with
    | .ok b => .ok b ⟨graph, notices⟩
    | .error cause => .error (.of cause) ⟨graph, notices⟩

/-- The entity of a name, made if it is new. -/
def intern (kind : EntityKind) (name : String) (make : Key kind → Entity kind) :
    Builder (Key kind × Bool) :=
  onRegistry kind fun registry =>
    let (result, registry) := registry.intern name make
    (.ok result, registry)

def bind (kind : EntityKind) (record : Record) (key : Key kind) : Builder Unit :=
  onRegistry kind fun registry => registry.bind record key

def update (kind : EntityKind) (what : String) (key : Key kind) (f : Entity kind → Entity kind) :
    Builder Unit :=
  onRegistry kind fun registry =>
    if registry.contains key then (.ok (), registry.modify key f)
    else (.error (.missing what), registry)

def updateClass (key : ClassKey) (f : ClassEntity → ClassEntity) : Builder Unit :=
  update .classes "class" key f

def updateMethod (key : MethodKey) (f : MethodEntity → MethodEntity) : Builder Unit :=
  update .methods "method" key f

def updateString (key : StringKey) (f : StringEntity → StringEntity) : Builder Unit :=
  update .strings "string" key f

def ensureRunning (cancelled : Bool) : Builder Unit :=
  if cancelled then fail .cancelled else pure ()

/-! ## Declarations -/

/-- Tells of a method that was declared before. A field is passed over in silence. -/
def noteRedeclaration (member : Pools.Member) : MemberKind → Builder Unit
  | .field => pure ()
  | .method => raise (.alreadyDefined member.methodName)

/-- A declared member; of several declarations the first counts. -/
def declareMember (kind : MemberKind) (image : Image) (owner : ClassKey) (id access : Nat)
    (external : Bool) : Builder Unit := do
  let some member := kind.find? image.container.pools id | missing (kind.noun ++ " id")
  let record : Record := ⟨image.index, id⟩
  let (key, created) ← intern kind.sort (kind.fullName member)
    (kind.make (some owner) member access external (some record))
  -- also if the name was there before, so that this record leads to the entity too
  bind kind.sort record key
  if created then updateClass owner (kind.addTo · key) else noteRedeclaration member kind

def declareField (image : Image) (owner : ClassKey) (field : EncodedField) : Builder Unit :=
  declareMember .field image owner field.id field.access false

def declareMethod (image : Image) (owner : ClassKey) (method : EncodedMethod) : Builder Unit :=
  declareMember .method image owner method.id method.access method.code.isNone

/-- Tells of a class that was defined before. -/
def noteRedefinition (image : Image) (key : ClassKey) : Builder Unit := do
  let graph ← graph
  match graph.classes.get? key with
  | none => missing "class"
  | some c =>
    if 1 < c.definitions.size then
      raise (.redefined c.name image.name ((c.origin?.map Origin.image).getD 0))

/-- A class definition with its members. -/
def declareClass (image : Image) (position : Nat) (classDef : ClassDef) : Builder Unit := do
  let container := image.container
  let some name := container.className? classDef | missing "class descriptor"
  let (key, _) ← intern .classes name fun key => { key, name, external := false : ClassEntity }
  bind .classes ⟨image.index, classDef.type⟩ key
  -- a class that was defined before gets one more origin and keeps the rest
  updateClass key fun c => c.define ⟨image.index, position⟩ classDef.access
    (container.superclassName? classDef) (container.interfaceNames classDef)
  noteRedefinition image key
  classDef.fields.forM (declareField image key)
  classDef.methods.forM (declareMethod image key)
  raise (.declared name image.name)

def declareImage (cancelled : Bool) (image : Image) : Builder Unit :=
  image.container.classDefs.toList.zipIdx.forM fun (classDef, position) => do
    ensureRunning cancelled
    declareClass image position classDef

/-! ## Ancestors -/

/-- A class of the package by key, any other by name. -/
def resolveLink (classes : Registry .classes ClassEntity) : Link → Link
  | .inside key => .inside key
  | .outside name =>
    match classes.resolve? (.name name) with
    | some c => if c.external then .outside name else .inside c.key
    | none => .outside name

def linkClasses : Builder Unit :=
  onRegistry .classes fun classes =>
    (.ok (), classes.map fun c => { c with
      superclass := c.superclass.map (resolveLink classes)
      interfaces := c.interfaces.map (resolveLink classes) })

/-! ## Uses -/

/-- The entity of a class met in code. -/
def classFor (descriptor : String) : Builder ClassKey := do
  let (key, _) ← intern .classes descriptor fun key =>
    { key, name := descriptor, external := true : ClassEntity }
  return key

/-- The class of a member met in code; an array type has none. -/
def ownerFor (descriptor : String) : Builder (Option ClassKey) := do
  if Descriptor.elementClass? descriptor = some descriptor then
    return some (← classFor descriptor)
  return none

/-- Where uses are met: an instruction in the code of a method. -/
structure Scene where
  image : Nat
  site : Site
  /-- The class of the method. -/
  owner : Option ClassKey
  insn : Instruction

def addUse (site : Site) (target : Target) : Builder Unit :=
  updateMethod site.method fun m => { m with uses := m.uses.push ⟨site.offset, target⟩ }

/-- Notes at both ends that one class uses another, where both are known. -/
def addEdge (source target : Option ClassKey) (use : ClassUse) (site : Site) : Builder Unit := do
  let (some source, some target) := (source, target) | return
  updateClass source fun c => { c with outgoing := c.outgoing.push ⟨target, use, site⟩ }
  updateClass target fun c => { c with incoming := c.incoming.push ⟨source, use, site⟩ }

/-! What code refers to becomes an entity whether its uses are kept or not. -/

def meetString (record : Record) (value : String) : Builder StringKey := do
  let (key, _) ← intern .strings value fun key => { key, value : StringEntity }
  bind .strings record key
  return key

/-- The class behind a type. The record is that of the type, so it is bound only where the type is
the class itself. -/
def meetClass (record : Record) (descriptor element : String) : Builder ClassKey := do
  let key ← classFor element
  if element = descriptor then bind .classes record key
  return key

/-- Lists a new member with its class, if it has one. -/
def enrol (created : Bool) (owner : Option ClassKey) (change : ClassEntity → ClassEntity) :
    Builder Unit :=
  match created, owner with
  | true, some owner => updateClass owner change
  | _, _ => pure ()

/-- A member with its class, if it has one. -/
def meetMember (kind : MemberKind) (record : Record) (member : Pools.Member) :
    Builder (Option ClassKey × Key kind.sort) := do
  let owner ← ownerFor member.owner
  let (key, created) ← intern kind.sort (kind.fullName member) (kind.make owner member 0 true none)
  enrol created owner (kind.addTo · key)
  bind kind.sort record key
  return (owner, key)

def useString (keepUses : Bool) (scene : Scene) (index : Nat) (value : String) :
    Builder Unit := do
  let key ← meetString ⟨scene.image, index⟩ value
  if keepUses then
    updateString key fun s => { s with loads := s.loads.push scene.site }
    addUse scene.site (.ofString key)

/-- A type operand counts as a use of the class behind it, if there is one. -/
def useType (keepUses : Bool) (scene : Scene) (index : Nat) (descriptor : String) :
    Builder Unit := do
  let (some use, some element) :=
    (ClassUse.ofMnemonic? scene.insn.name, Descriptor.elementClass? descriptor) | return
  let key ← meetClass ⟨scene.image, index⟩ descriptor element
  if keepUses then
    addUse scene.site (.ofClass key)
    addEdge scene.owner (some key) use scene.site

def useMember (kind : MemberKind) (keepUses : Bool) (scene : Scene) (index : Nat)
    (member : Pools.Member) : Builder Unit := do
  let (owner, key) ← meetMember kind ⟨scene.image, index⟩ member
  if keepUses then
    update kind.sort kind.noun key (kind.addSite scene.insn scene.site)
    addUse scene.site (.ofKey kind.sort key)
    addEdge scene.owner owner kind.use scene.site

def use (keepUses : Bool) (scene : Scene) : Reference → Builder Unit
  | .string index value => useString keepUses scene index value
  | .type index descriptor => useType keepUses scene index descriptor
  | .field index member => useMember .field keepUses scene index member
  | .method index member => useMember .method keepUses scene index member
  | .proto .. | .callSite _ | .methodHandle _ => pure ()

/-- All uses of a body, instruction by instruction. -/
def searchBody (keepUses : Bool) (image : Nat) (method : MethodKey) (owner : Option ClassKey)
    (body : Array Instruction) : Builder Unit :=
  body.toList.forM fun insn =>
    insn.references.forM (use keepUses ⟨image, ⟨method, insn.offset⟩, owner, insn⟩)

/-- All uses of the code of one method. Only the declaration that counts is searched. -/
def scanMethod (keepUses : Bool) (image : Image) (method : EncodedMethod) : Builder Unit := do
  let record : Record := ⟨image.index, method.id⟩
  let graph ← graph
  let some key := graph.methods.lookup? (.record record) | missing "method record"
  let some caller := graph.methods.get? key | return
  -- of several declarations the location is that of the first
  if caller.location ≠ some record then return
  let some body := image.body? method.id | return
  searchBody keepUses image.index key caller.owner body

def scanImage (cancelled keepUses : Bool) (image : Image) : Builder Unit :=
  image.container.classDefs.toList.forM fun classDef => do
    ensureRunning cancelled
    (classDef.methods.filter fun method => method.code.isSome).forM (scanMethod keepUses image)

/-- The three passes. -/
def package (cancelled keepUses : Bool) (images : List Image) : Builder Unit := do
  images.forM fun image => within (.image image.name) (declareImage cancelled image)
  linkClasses
  images.forM fun image => within (.image image.name) (scanImage cancelled keepUses image)

end Builder

/-- The graph of a list of images. Without `keepUses` all entities are made but no use of them is
noted. -/
def Graph.build (cancelled keepUses : Bool) (images : List Image) : Journaled Error Graph :=
  match Builder.package cancelled keepUses images {} with
  | .ok () state => ⟨.ok state.graph, state.notices⟩
  | .error e state => ⟨.error e, state.notices⟩

end DexAtlas
