import DexAtlas.Error
import Std.Data.HashMap

/-!
Identity of entities. A registry holds entities in the order of their creation and knows each one
by its name. Records of an image can be bound to an entity as well; a record once bound stays with
its entity, so that name and record always lead to the same place.
-/
namespace DexAtlas

/-- The sorts of entity that have a registry of their own. -/
inductive EntityKind where
  | classes
  | methods
  | fields
  | strings
  deriving DecidableEq, Repr

/-- The place of an entity in its registry, in 32 bits. -/
structure Key (kind : EntityKind) where
  slot : UInt32
  deriving DecidableEq, Repr, Hashable

abbrev ClassKey := Key .classes

abbrev MethodKey := Key .methods

abbrev FieldKey := Key .fields

abbrev StringKey := Key .strings

namespace Key

variable {kind : EntityKind}

/-- Keeps the low 32 bits of an index. -/
def ofIndex (index : Nat) : Key kind := ⟨UInt32.ofNat index⟩

/-- The key of an index that fits. -/
def ofIndex? (index : Nat) : Option (Key kind) :=
  if index < UInt32.size then some (ofIndex index) else none

def index (key : Key kind) : Nat := key.slot.toNat

def text (key : Key kind) : String :=
  let sort := match kind with
    | .classes => "ClassKey"
    | .methods => "MethodKey"
    | .fields => "FieldKey"
    | .strings => "StringKey"
  s!"{sort}({key.index})"

end Key

/-- An entry of a pool: the image it stands in and its id there. -/
structure Record where
  image : Nat
  id : Nat
  deriving DecidableEq, Repr, Hashable

/-- The two ways to ask for an entity. -/
inductive Address where
  | record (record : Record)
  | name (name : String)
  deriving DecidableEq, Repr

structure Registry (kind : EntityKind) (α : Type) where
  arena : Array α := #[]
  byName : Std.HashMap String (Key kind) := ∅
  byRecord : Std.HashMap Record (Key kind) := ∅

namespace Registry

variable {kind : EntityKind} {α : Type}

/-- The key of a name, and whether its entity was made by this call. -/
def intern (registry : Registry kind α) (name : String) (make : Key kind → α) :
    (Key kind × Bool) × Registry kind α :=
  match registry.byName[name]? with
  | some key => ((key, false), registry)
  | none =>
    let key := Key.ofIndex registry.arena.size
    ((key, true), { registry with
      arena := registry.arena.push (make key)
      byName := registry.byName.insert name key })

/-- Makes a record lead to a key. A record that leads elsewhere is refused and stays as it is. -/
def bind (registry : Registry kind α) (record : Record) (key : Key kind) :
    Except Cause Unit × Registry kind α :=
  match registry.byRecord[record]? with
  | none => (.ok (), { registry with byRecord := registry.byRecord.insert record key })
  | some bound =>
    if bound = key then (.ok (), registry)
    else (.error (.alreadyBound record.image record.id bound.text key.text), registry)

def lookup? (registry : Registry kind α) : Address → Option (Key kind)
  | .record record => registry.byRecord[record]?
  | .name name => registry.byName[name]?

def get? (registry : Registry kind α) (key : Key kind) : Option α :=
  registry.arena[key.index]?

/-- The entity at an address. -/
def resolve? (registry : Registry kind α) (address : Address) : Option α :=
  (registry.lookup? address).bind registry.get?

/-- Whether there is an entity at a key. -/
def contains (registry : Registry kind α) (key : Key kind) : Bool :=
  key.index < registry.arena.size

/-- Changes the entity of a key, if there is one. -/
def modify (registry : Registry kind α) (key : Key kind) (f : α → α) : Registry kind α :=
  { registry with arena := registry.arena.modify key.index f }

/-- Changes every entity and no identity. -/
def map (registry : Registry kind α) (f : α → α) : Registry kind α :=
  { registry with arena := registry.arena.map f }

def size (registry : Registry kind α) : Nat := registry.arena.size

end Registry

end DexAtlas
