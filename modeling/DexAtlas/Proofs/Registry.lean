import DexAtlas.Graph.Entity
import Mathlib.Algebra.GroupWithZero.Nat

/-!
# Registries

What one step of a registry does to its names, its records and its entities. Names and records are
only ever added, so a registry grows; and as long as every record is bound to the key of its own
name, both ways of asking for an entity lead to the same place. Keys have 32 bits. Nothing here
needs the number of entities to stay below that, because a key that comes round again still stands
for a place in the registry.
-/
namespace DexAtlas

namespace Key

variable {kind : EntityKind}

theorem index_ofIndex (index : Nat) : (ofIndex index : Key kind).index = index % 2 ^ 32 := by
  simp [ofIndex, Key.index]

theorem index_ofIndex_le (index : Nat) : (ofIndex index : Key kind).index ≤ index := by
  rw [index_ofIndex]
  exact Nat.mod_le _ _

theorem index_ofIndex_of_lt {index : Nat} (small : index < 2 ^ 32) :
    (ofIndex index : Key kind).index = index := by
  rw [index_ofIndex, Nat.mod_eq_of_lt small]

@[simp] theorem ofIndex_index (key : Key kind) : ofIndex key.index = key := by
  simp [ofIndex, Key.index]

theorem index_injective {a b : Key kind} (same : a.index = b.index) : a = b := by
  rw [← ofIndex_index a, same, ofIndex_index]

end Key

namespace Registry

variable {kind : EntityKind} {α β : Type}

/-! ### What is known at a key -/

/-- A view of the entity at a key, and `absent` where there is no entity. -/
def view (registry : Registry kind α) (f : α → β) (absent : β) (key : Key kind) : β :=
  ((registry.get? key).map f).getD absent

theorem view_of_get? {registry : Registry kind α} {key : Key kind} {entity : α}
    (present : registry.get? key = some entity) (f : α → β) (absent : β) :
    registry.view f absent key = f entity := by
  simp [view, present]

theorem contains_iff (registry : Registry kind α) (key : Key kind) :
    registry.contains key = true ↔ ∃ entity, registry.get? key = some entity := by
  rw [contains, decide_eq_true_eq, get?, ← Option.isSome_iff_exists]
  simp

/-! ### Interning -/

/-- A known name changes nothing, a new one adds its entity at the end. -/
theorem intern_cases (registry : Registry kind α) (name : String) (make : Key kind → α) :
    (∃ key, registry.byName[name]? = some key ∧
      registry.intern name make = ((key, false), registry)) ∨
    (registry.byName[name]? = none ∧
      registry.intern name make = ((Key.ofIndex registry.arena.size, true), { registry with
        arena := registry.arena.push (make (Key.ofIndex registry.arena.size))
        byName := registry.byName.insert name (Key.ofIndex registry.arena.size) })) := by
  unfold intern
  cases known : registry.byName[name]? with
  | some key => exact .inl ⟨key, rfl, rfl⟩
  | none => exact .inr ⟨rfl, rfl⟩

/-- Afterwards the name leads to the key that was returned. -/
theorem byName_intern (registry : Registry kind α) (name : String) (make : Key kind → α) :
    (registry.intern name make).2.byName[name]? = some (registry.intern name make).1.1 := by
  rcases registry.intern_cases name make with ⟨key, known, result⟩ | ⟨-, result⟩
  · rw [result, known]
  · simp [result]

@[simp] theorem byRecord_intern (registry : Registry kind α) (name : String)
    (make : Key kind → α) : (registry.intern name make).2.byRecord = registry.byRecord := by
  rcases registry.intern_cases name make with ⟨key, known, result⟩ | ⟨-, result⟩ <;> rw [result]

/-- Of all keys only that of a new entity can see a difference. -/
theorem get?_intern (registry : Registry kind α) (name : String) (make : Key kind → α)
    (key : Key kind) :
    (registry.intern name make).2.get? key = registry.get? key ∨
    (registry.get? key = none ∧
      (registry.intern name make).2.get? key = some (make key)) := by
  rcases registry.intern_cases name make with ⟨known, _, result⟩ | ⟨-, result⟩
  · exact .inl (by rw [result])
  · simp only [result, get?, Array.getElem?_push]
    split
    next last =>
      -- the place is the next free one, so its number fits and is the key itself
      right
      rw [← last, Key.ofIndex_index]
      exact ⟨by rw [last]; exact Array.getElem?_size, rfl⟩
    next => exact .inl rfl

/-- A key other than the one returned sees none. -/
theorem get?_intern_of_ne (registry : Registry kind α) (name : String) (make : Key kind → α)
    {key : Key kind} (apart : key ≠ (registry.intern name make).1.1) :
    (registry.intern name make).2.get? key = registry.get? key := by
  rcases registry.intern_cases name make with ⟨known, _, result⟩ | ⟨-, result⟩
  · rw [result]
  · rw [result] at apart ⊢
    simp only [get?, Array.getElem?_push]
    split
    next last =>
      rw [← last, Key.ofIndex_index] at apart
      exact absurd rfl apart
    next => rfl

/-- Only the name that was interned can be new. -/
theorem mem_byName_intern (registry : Registry kind α) (name : String) (make : Key kind → α)
    {other : String} :
    other ∈ (registry.intern name make).2.byName ↔ other = name ∨ other ∈ registry.byName := by
  rcases registry.intern_cases name make with ⟨key, known, result⟩ | ⟨-, result⟩
  · rw [result]
    constructor
    · exact .inr
    · rintro (rfl | listed)
      · exact Std.HashMap.mem_iff_isSome_getElem?.mpr (by rw [known]; rfl)
      · exact listed
  · rw [result, Std.HashMap.mem_insert, beq_iff_eq, eq_comm]

theorem mem_byName_iff (registry : Registry kind α) {name : String} :
    name ∈ registry.byName ↔ ∃ key, registry.byName[name]? = some key := by
  rw [Std.HashMap.mem_iff_isSome_getElem?, Option.isSome_iff_exists]

theorem not_mem_byName_iff (registry : Registry kind α) {name : String} :
    name ∉ registry.byName ↔ registry.byName[name]? = none := by
  rw [mem_byName_iff, Option.eq_none_iff_forall_ne_some, not_exists]

theorem view_intern (registry : Registry kind α) (name : String) (make : Key kind → α)
    (f : α → β) (absent : β) (blank : ∀ key, f (make key) = absent) :
    (registry.intern name make).2.view f absent = registry.view f absent := by
  funext key
  rcases registry.get?_intern name make key with same | ⟨fresh, made⟩
  · simp [view, same]
  · simp [view, fresh, made, blank]

/-! ### Binding -/

theorem bind_cases (registry : Registry kind α) (record : Record) (key : Key kind) :
    (registry.byRecord[record]? = none ∧ registry.bind record key =
      (.ok (), { registry with byRecord := registry.byRecord.insert record key })) ∨
    (registry.byRecord[record]? = some key ∧ registry.bind record key = (.ok (), registry)) ∨
    (∃ bound, registry.byRecord[record]? = some bound ∧ bound ≠ key ∧
      registry.bind record key =
        (.error (.alreadyBound record.image record.id bound.text key.text), registry)) := by
  unfold bind
  cases found : registry.byRecord[record]? with
  | none => exact .inl ⟨rfl, rfl⟩
  | some bound =>
    right
    by_cases same : bound = key
    · subst same
      exact .inl ⟨rfl, by simp⟩
    · exact .inr ⟨bound, rfl, same, by simp [same]⟩

@[simp] theorem arena_bind (registry : Registry kind α) (record : Record) (key : Key kind) :
    (registry.bind record key).2.arena = registry.arena := by
  rcases registry.bind_cases record key with ⟨_, result⟩ | ⟨_, result⟩ | ⟨_, _, _, result⟩ <;>
    rw [result]

@[simp] theorem byName_bind (registry : Registry kind α) (record : Record) (key : Key kind) :
    (registry.bind record key).2.byName = registry.byName := by
  rcases registry.bind_cases record key with ⟨_, result⟩ | ⟨_, result⟩ | ⟨_, _, _, result⟩ <;>
    rw [result]

/-- A record that was bound without complaint leads to its key. -/
theorem byRecord_bind {registry : Registry kind α} {record : Record} {key : Key kind}
    (accepted : (registry.bind record key).1 = .ok ()) :
    (registry.bind record key).2.byRecord[record]? = some key := by
  rcases registry.bind_cases record key with ⟨_, result⟩ | ⟨found, result⟩ | ⟨_, _, _, result⟩
  · simp [result]
  · rw [result, found]
  · rw [result] at accepted
    cases accepted

@[simp] theorem view_bind (registry : Registry kind α) (record : Record) (key : Key kind)
    (f : α → β) (absent : β) :
    (registry.bind record key).2.view f absent = registry.view f absent := by
  funext other
  simp [view, get?]

/-! ### Changes to entities -/

theorem get?_modify (registry : Registry kind α) (key other : Key kind) (f : α → α) :
    (registry.modify key f).get? other =
      if other = key then (registry.get? other).map f else registry.get? other := by
  simp only [modify, get?, Array.getElem?_modify]
  by_cases same : other = key
  · simp [same]
  · have apart : key.index ≠ other.index := fun equal => same (Key.index_injective equal.symm)
    simp [same, apart]

/-- A change that `f` does not see. -/
theorem map_modify_arena (arena : Array α) (place : Nat) {change : α → α} {f : α → β}
    (hidden : ∀ entity, f (change entity) = f entity) :
    (arena.modify place change).map f = arena.map f := by
  apply Array.ext_getElem?
  intro other
  simp only [Array.getElem?_modify, Array.getElem?_map]
  by_cases here : place = other <;> simp [here, hidden, Function.comp_def]

theorem view_modify (registry : Registry kind α) (key : Key kind) (change : α → α)
    (f : α → β) (absent : β) (untouched : ∀ entity, f (change entity) = f entity) :
    (registry.modify key change).view f absent = registry.view f absent := by
  funext other
  simp only [view, get?_modify]
  split
  · cases registry.get? other <;> simp [untouched]
  · rfl

@[simp] theorem get?_map (registry : Registry kind α) (key : Key kind) (f : α → α) :
    (registry.map f).get? key = (registry.get? key).map f := by
  simp [map, get?]

theorem view_map (registry : Registry kind α) (change : α → α) (f : α → β) (absent : β)
    (untouched : ∀ entity, f (change entity) = f entity) :
    (registry.map change).view f absent = registry.view f absent := by
  funext key
  simp only [view, get?_map]
  cases registry.get? key <;> simp [untouched]

/-! ### Growth -/

/-- No name, record or place is lost or led elsewhere. -/
structure Extends (before after : Registry kind α) : Prop where
  names : ∀ {name : String} {key : Key kind},
    before.byName[name]? = some key → after.byName[name]? = some key
  records : ∀ {record : Record} {key : Key kind},
    before.byRecord[record]? = some key → after.byRecord[record]? = some key
  size : before.arena.size ≤ after.arena.size

namespace Extends

theorem refl (registry : Registry kind α) : Extends registry registry :=
  ⟨id, id, Nat.le_refl _⟩

theorem trans {a b c : Registry kind α} (first : Extends a b) (second : Extends b c) :
    Extends a c :=
  ⟨fun known => second.names (first.names known),
    fun bound => second.records (first.records bound), Nat.le_trans first.size second.size⟩

theorem intern (registry : Registry kind α) (name : String) (make : Key kind → α) :
    Extends registry (registry.intern name make).2 := by
  rcases registry.intern_cases name make with ⟨key, known, result⟩ | ⟨new, result⟩
  · rw [result]
    exact refl registry
  · refine ⟨fun {other key} known => ?_, fun bound => by simpa using bound, by simp [result]⟩
    have apart : name ≠ other := by
      rintro rfl
      rw [new] at known
      cases known
    simpa [result, Std.HashMap.getElem?_insert, apart] using known

theorem bind (registry : Registry kind α) (record : Record) (key : Key kind) :
    Extends registry (registry.bind record key).2 := by
  refine ⟨fun known => by simpa using known, fun {other bound} found => ?_, by simp⟩
  rcases registry.bind_cases record key with ⟨free, result⟩ | ⟨_, result⟩ | ⟨_, _, _, result⟩
  · have apart : record ≠ other := by
      rintro rfl
      rw [free] at found
      cases found
    simpa [result, Std.HashMap.getElem?_insert, apart] using found
  · rwa [result]
  · rwa [result]

theorem modify (registry : Registry kind α) (key : Key kind) (f : α → α) :
    Extends registry (registry.modify key f) :=
  ⟨id, id, by simp [Registry.modify]⟩

theorem map (registry : Registry kind α) (f : α → α) : Extends registry (registry.map f) :=
  ⟨id, id, by simp [Registry.map]⟩

theorem contains {before after : Registry kind α} (grown : Extends before after) {key : Key kind}
    (present : before.contains key = true) : after.contains key = true := by
  simp only [Registry.contains, decide_eq_true_eq] at present ⊢
  exact Nat.lt_of_lt_of_le present grown.size

end Extends

end Registry

/-! ### Coherence -/

namespace Entity

/-- The name across images: the descriptor of a class, the full name of a member, the text of a
string. -/
def name : (kind : EntityKind) → Entity kind → String
  | .classes => ClassEntity.name
  | .methods => MethodEntity.fullName
  | .fields => FieldEntity.fullName
  | .strings => StringEntity.value

def key : (kind : EntityKind) → Entity kind → Key kind
  | .classes => ClassEntity.key
  | .methods => MethodEntity.key
  | .fields => FieldEntity.key
  | .strings => StringEntity.key

/-- The class that a member belongs to. -/
def owner : (kind : EntityKind) → Entity kind → Option ClassKey
  | .methods => MethodEntity.owner
  | .fields => FieldEntity.owner
  | .classes | .strings => fun _ => none

/-- The declaration of a member. -/
def location : (kind : EntityKind) → Entity kind → Option Record
  | .methods => MethodEntity.location
  | .fields => FieldEntity.location
  | .classes | .strings => fun _ => none

/-- A change that leaves alone what an entity is: its name, its key, its class and its place. -/
structure Keeps (kind : EntityKind) (change : Entity kind → Entity kind) : Prop where
  name : ∀ entity, name kind (change entity) = name kind entity
  key : ∀ entity, key kind (change entity) = key kind entity
  owner : ∀ entity, owner kind (change entity) = owner kind entity
  location : ∀ entity, location kind (change entity) = location kind entity

end Entity

namespace Registry

variable {kind : EntityKind}

/-- Every entity carries the key of its place and is known by its own name, every name was given to
an entity, and every record leads where the name leads that `naming` gives to it. -/
structure Coherent (naming : Record → Option String) (registry : Registry kind (Entity kind)) :
    Prop where
  entities : ∀ {place : Nat} {entity : Entity kind}, registry.arena[place]? = some entity →
    Entity.key kind entity = Key.ofIndex place ∧
      registry.byName[Entity.name kind entity]? = some (Key.ofIndex place)
  names : ∀ {name : String} {key : Key kind}, registry.byName[name]? = some key →
    ∃ place entity, registry.arena[place]? = some entity ∧ Entity.name kind entity = name ∧
      key = Key.ofIndex place
  records : ∀ {record : Record} {key : Key kind}, registry.byRecord[record]? = some key →
    ∃ name, naming record = some name ∧ registry.byName[name]? = some key

namespace Coherent

variable {naming : Record → Option String} {registry : Registry kind (Entity kind)}

theorem empty : Coherent naming ({} : Registry kind (Entity kind)) :=
  ⟨fun found => by simp at found, fun known => by simp at known, fun bound => by simp at bound⟩

/-- A name never leads outside the registry. -/
theorem contains (coherent : Coherent naming registry) {name : String} {key : Key kind}
    (known : registry.byName[name]? = some key) : registry.contains key = true := by
  obtain ⟨place, entity, found, -, rfl⟩ := coherent.names known
  obtain ⟨inside, -⟩ := Array.getElem?_eq_some_iff.mp found
  rw [Registry.contains, decide_eq_true_eq]
  exact Nat.lt_of_le_of_lt (Key.index_ofIndex_le place) inside

/-- An entity that has a key is found by its name. -/
theorem lookup?_name (coherent : Coherent naming registry) {key : Key kind} {entity : Entity kind}
    (present : registry.get? key = some entity) :
    registry.lookup? (.name (Entity.name kind entity)) = some key := by
  have known := (coherent.entities present).2
  rwa [Key.ofIndex_index] at known

theorem resolve?_name (coherent : Coherent naming registry) {key : Key kind} {entity : Entity kind}
    (present : registry.get? key = some entity) :
    registry.resolve? (.name (Entity.name kind entity)) = some entity := by
  rw [resolve?, coherent.lookup?_name present, Option.bind_some, present]

/-- While keys suffice, a name leads to the entity of that name. -/
theorem get?_of_name (coherent : Coherent naming registry) (fits : registry.size < 2 ^ 32)
    {name : String} {key : Key kind} (known : registry.byName[name]? = some key) :
    ∃ entity, registry.get? key = some entity ∧ Entity.name kind entity = name := by
  obtain ⟨place, entity, found, named, rfl⟩ := coherent.names known
  obtain ⟨inside, -⟩ := Array.getElem?_eq_some_iff.mp found
  refine ⟨entity, ?_, named⟩
  rw [get?, Key.index_ofIndex_of_lt (Nat.lt_trans inside fits), found]

theorem lookup?_iff (coherent : Coherent naming registry) (fits : registry.size < 2 ^ 32)
    {name : String} {key : Key kind} :
    registry.lookup? (.name name) = some key ↔
      ∃ entity, registry.get? key = some entity ∧ Entity.name kind entity = name := by
  constructor
  · exact coherent.get?_of_name fits
  · rintro ⟨entity, present, rfl⟩
    exact coherent.lookup?_name present

/-- While keys suffice, no other name leads to the key of an entity. -/
theorem lookup?_key_iff (coherent : Coherent naming registry) (fits : registry.size < 2 ^ 32)
    {key : Key kind} {entity : Entity kind} (present : registry.get? key = some entity)
    {name : String} :
    registry.lookup? (.name name) = some key ↔ name = Entity.name kind entity := by
  rw [coherent.lookup?_iff fits, present]
  simp [eq_comm]

/-- While keys suffice, each entity stands at its own key. -/
theorem index_key (coherent : Coherent naming registry) (fits : registry.size < 2 ^ 32)
    {place : Nat} {entity : Entity kind} (found : registry.arena[place]? = some entity) :
    (Entity.key kind entity).index = place := by
  obtain ⟨inside, -⟩ := Array.getElem?_eq_some_iff.mp found
  rw [(coherent.entities found).1, Key.index_ofIndex_of_lt (Nat.lt_trans inside fits)]

theorem keys_increasing (coherent : Coherent naming registry) (fits : registry.size < 2 ^ 32) :
    registry.arena.toList.Pairwise fun a b =>
      (Entity.key kind a).index < (Entity.key kind b).index := by
  rw [List.pairwise_iff_getElem]
  intro i j inside insideToo before
  have atPlace {place : Nat} (inside : place < registry.arena.toList.length) :
      (Entity.key kind registry.arena.toList[place]).index = place :=
    coherent.index_key fits
      (Array.getElem?_toList.symm.trans (List.getElem?_eq_getElem inside))
  rwa [atPlace inside, atPlace insideToo]

theorem get?_key (coherent : Coherent naming registry) (fits : registry.size < 2 ^ 32)
    {entity : Entity kind} (listed : entity ∈ registry.arena) :
    registry.get? (Entity.key kind entity) = some entity := by
  obtain ⟨place, found⟩ := Array.mem_iff_getElem?.mp listed
  rw [get?, coherent.index_key fits found, found]

theorem intern (coherent : Coherent naming registry) {name : String} {make : Key kind → Entity kind}
    (made : ∀ key, Entity.name kind (make key) = name ∧ Entity.key kind (make key) = key) :
    Coherent naming (registry.intern name make).2 := by
  have grown := Extends.intern registry name make
  rcases registry.intern_cases name make with ⟨key, known, result⟩ | ⟨new, result⟩
  · rwa [result]
  · constructor
    · intro place entity found
      simp only [result, Array.getElem?_push] at found
      split at found
      next last =>
        obtain rfl := Option.some.inj found
        rw [(made _).1, (made _).2, last]
        exact ⟨rfl, by simp [result]⟩
      next =>
        obtain ⟨keyed, known⟩ := coherent.entities found
        exact ⟨keyed, grown.names known⟩
    · intro other key known
      simp only [result, Std.HashMap.getElem?_insert] at known
      split at known
      next same =>
        obtain rfl := Option.some.inj known
        refine ⟨registry.arena.size, make (Key.ofIndex registry.arena.size), ?_, ?_, rfl⟩
        · simp [result]
        · rw [(made _).1, eq_of_beq same]
      next =>
        -- an older name keeps its place, which the new entity does not take
        obtain ⟨place, entity, found, named, keyed⟩ := coherent.names known
        refine ⟨place, entity, ?_, named, keyed⟩
        obtain ⟨inside, -⟩ := Array.getElem?_eq_some_iff.mp found
        simpa [result, Array.getElem?_push, Nat.ne_of_lt inside] using found
    · intro record key bound
      rw [byRecord_intern] at bound
      obtain ⟨n, named, known⟩ := coherent.records bound
      exact ⟨n, named, grown.names known⟩

/-- A record whose name is known can be bound to it: it is free, or bound to it already. -/
theorem bind_accepted (coherent : Coherent naming registry) {record : Record} {name : String}
    {key : Key kind} (named : naming record = some name)
    (known : registry.byName[name]? = some key) : (registry.bind record key).1 = .ok () := by
  rcases registry.bind_cases record key with ⟨_, result⟩ | ⟨_, result⟩ |
    ⟨bound, found, apart, result⟩
  · rw [result]
  · rw [result]
  · -- a record that is bound leads where its own name leads, and that is the key at hand
    obtain ⟨other, alsoNamed, alsoKnown⟩ := coherent.records found
    obtain rfl : name = other := Option.some.inj (named.symm.trans alsoNamed)
    exact absurd (Option.some.inj (alsoKnown.symm.trans known)) apart

theorem bind (coherent : Coherent naming registry) {record : Record} {name : String}
    {key : Key kind} (named : naming record = some name)
    (known : registry.byName[name]? = some key) :
    Coherent naming (registry.bind record key).2 := by
  refine ⟨fun found => ?_, fun found => ?_, fun {other bound} found => ?_⟩
  · rw [arena_bind] at found
    simpa using coherent.entities found
  · rw [byName_bind] at found
    simpa using coherent.names found
  · rw [byName_bind]
    rcases registry.bind_cases record key with ⟨_, result⟩ | ⟨_, result⟩ | ⟨_, _, _, result⟩
    · simp only [result, Std.HashMap.getElem?_insert] at found
      split at found
      next same =>
        obtain rfl := eq_of_beq same
        obtain rfl := Option.some.inj found
        exact ⟨name, named, known⟩
      next => exact coherent.records found
    · rw [result] at found
      exact coherent.records found
    · rw [result] at found
      exact coherent.records found

/-- Entities may change as long as they keep their names and keys. -/
theorem of_change (coherent : Coherent naming registry) {arena : Array (Entity kind)}
    (change : Nat → Entity kind → Entity kind) (keeps : ∀ place, Entity.Keeps kind (change place))
    (changed : ∀ place, arena[place]? = registry.arena[place]?.map (change place)) :
    Coherent naming { registry with arena } := by
  refine ⟨fun {place entity} found => ?_, fun known => ?_, coherent.records⟩
  · rw [changed] at found
    obtain ⟨old, there, rfl⟩ := Option.map_eq_some_iff.mp found
    rw [(keeps place).name, (keeps place).key]
    exact coherent.entities there
  · obtain ⟨place, entity, found, named, keyed⟩ := coherent.names known
    refine ⟨place, change place entity, ?_, ?_, keyed⟩
    · rw [changed, found, Option.map_some]
    · rw [(keeps place).name, named]

theorem modify (coherent : Coherent naming registry) (key : Key kind)
    {change : Entity kind → Entity kind} (keeps : Entity.Keeps kind change) :
    Coherent naming (registry.modify key change) := by
  apply coherent.of_change fun place => if key.index = place then change else id
  · intro place
    split
    · exact keeps
    · exact ⟨fun _ => rfl, fun _ => rfl, fun _ => rfl, fun _ => rfl⟩
  · intro place
    rw [Array.getElem?_modify]
    split <;> simp

theorem map (coherent : Coherent naming registry) {change : Entity kind → Entity kind}
    (keeps : Entity.Keeps kind change) : Coherent naming (registry.map change) :=
  coherent.of_change (fun _ => change) (fun _ => keeps) fun _ => Array.getElem?_map

end Coherent

end Registry

end DexAtlas
