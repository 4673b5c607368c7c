import DexAtlas.Proofs.Descriptors
import DexAtlas.Proofs.Externals

/-!
# Names of members

The name of a method or field across images is its class, its own name and its descriptor, written
one after another. The parts can be told apart again: no type is the beginning of another, so the
class ends where its reading ends; a prototype has only one opening parenthesis, at its start; and
the type of a field follows the first colon if its name has none. So records that are bound to the
same entity stand for the same member.
-/
namespace DexAtlas

/-! ### Texts cut at a character -/

section Cuts

variable {α : Type} {a : α} {before before' after after' : List α}

/-- The first place of an element is the same in equal lists. -/
theorem append_cons_inj_first (fresh : a ∉ before) (fresh' : a ∉ before')
    (same : before ++ a :: after = before' ++ a :: after') : before = before' ∧ after = after' := by
  -- along both lists at once: as long as neither is at its end, the heads are the same
  induction before generalizing before' with
  | nil =>
    cases before' with
    | nil => exact ⟨rfl, (List.cons.inj same).2⟩
    | cons b rest => exact absurd (List.cons.inj same).1 (List.ne_of_not_mem_cons fresh')
  | cons b rest ih =>
    cases before' with
    | nil => exact absurd (List.cons.inj same).1.symm (List.ne_of_not_mem_cons fresh)
    | cons b' rest' =>
      obtain ⟨rfl, tails⟩ := List.cons.inj same
      obtain ⟨rfl, ends⟩ := ih (List.not_mem_of_not_mem_cons fresh)
        (List.not_mem_of_not_mem_cons fresh') tails
      exact ⟨rfl, ends⟩

/-- So is its last place. -/
theorem append_cons_inj_last (fresh : a ∉ after) (fresh' : a ∉ after')
    (same : before ++ a :: after = before' ++ a :: after') : before = before' ∧ after = after' := by
  have mirrored :
      after.reverse ++ a :: before.reverse = after'.reverse ++ a :: before'.reverse := by
    simpa using congrArg List.reverse same
  obtain ⟨ends, starts⟩ :=
    append_cons_inj_first (by simpa using fresh) (by simpa using fresh') mirrored
  exact ⟨List.reverse_inj.mp starts, List.reverse_inj.mp ends⟩

end Cuts

/-! ### Parts of a name -/

namespace JavaType

theorem ofDescriptor?_append_inj {owner owner' : String} {rest rest' : List Char}
    (accepted : (ofDescriptor? owner).isSome = true)
    (accepted' : (ofDescriptor? owner').isSome = true)
    (same : owner.toList ++ rest = owner'.toList ++ rest') : owner = owner' ∧ rest = rest' := by
  obtain ⟨t, found⟩ := Option.isSome_iff_exists.mp accepted
  obtain ⟨t', found'⟩ := Option.isSome_iff_exists.mp accepted'
  obtain ⟨formed, rfl⟩ := ofDescriptor?_eq_some_iff.mp found
  obtain ⟨formed', rfl⟩ := ofDescriptor?_eq_some_iff.mp found'
  -- reading the same text gives the same type and leaves the same rest
  have read := parse?_descriptor formed rest
  rw [same, parse?_descriptor formed' rest'] at read
  cases read
  exact ⟨rfl, rfl⟩

theorem paren_not_mem_descriptor {t : JavaType} (formed : t.WellFormed) :
    '(' ∉ t.descriptor.toList := by
  induction t with
  | primitive p =>
    rw [toList_descriptor_primitive]
    cases p <;> decide
  | object name =>
    have inside : '(' ∉ name.path.toList := fun member => (formed.2 '(' member).2.1 rfl
    rw [toList_descriptor_object]
    simp [inside]
  | array element ih =>
    rw [toList_descriptor_array]
    simp [ih formed]

end JavaType

/-- A prototype opens with a parenthesis and has no other. -/
theorem MethodType.paren_first {text : String} (accepted : (ofDescriptor? text).isSome = true) :
    ∃ inner, text.toList = '(' :: inner ∧ '(' ∉ inner := by
  obtain ⟨m, found⟩ := Option.isSome_iff_exists.mp accepted
  obtain ⟨⟨parameters, result⟩, rfl⟩ := ofDescriptor?_eq_some_iff.mp found
  refine ⟨_, toList_descriptor m, ?_⟩
  have spelling : '(' ∉ spelled m.parameters := by
    rw [spelled, List.mem_flatMap]
    rintro ⟨t, member, paren⟩
    exact JavaType.paren_not_mem_descriptor (parameters t member) paren
  simp [spelling, JavaType.paren_not_mem_descriptor result]

namespace Descriptor

variable {owner owner' name name' : String}

/-- What follows the class in equal names is equal, and so is the class. -/
theorem owner_inj {rest rest' : String}
    (accepted : (JavaType.ofDescriptor? owner).isSome = true)
    (accepted' : (JavaType.ofDescriptor? owner').isSome = true)
    (same : owner ++ ("->" ++ rest) = owner' ++ ("->" ++ rest')) :
    owner = owner' ∧ rest = rest' := by
  have texts : owner.toList ++ (['-', '>'] ++ rest.toList) =
      owner'.toList ++ (['-', '>'] ++ rest'.toList) := by
    simpa using congrArg String.toList same
  obtain ⟨owners, rests⟩ := JavaType.ofDescriptor?_append_inj accepted accepted' texts
  exact ⟨owners, String.toList_inj.mp (List.append_cancel_left rests)⟩

theorem methodName_inj {proto proto' : String}
    (accepted : (JavaType.ofDescriptor? owner).isSome = true)
    (accepted' : (JavaType.ofDescriptor? owner').isSome = true)
    (typed : (MethodType.ofDescriptor? proto).isSome = true)
    (typed' : (MethodType.ofDescriptor? proto').isSome = true)
    (same : methodName owner name proto = methodName owner' name' proto') :
    owner = owner' ∧ name = name' ∧ proto = proto' := by
  simp only [methodName, String.append_assoc] at same
  obtain ⟨owners, rests⟩ := owner_inj accepted accepted' same
  obtain ⟨inner, opens, once⟩ := MethodType.paren_first typed
  obtain ⟨inner', opens', once'⟩ := MethodType.paren_first typed'
  -- whatever the names hold, the last parenthesis is that of the prototype
  have texts := congrArg String.toList rests
  rw [String.toList_append, String.toList_append, opens, opens'] at texts
  obtain ⟨names, inners⟩ := append_cons_inj_last once once' texts
  exact ⟨owners, String.toList_inj.mp names, String.toList_inj.mp (by rw [opens, opens', inners])⟩

theorem fieldName_inj {type type' : String}
    (accepted : (JavaType.ofDescriptor? owner).isSome = true)
    (accepted' : (JavaType.ofDescriptor? owner').isSome = true)
    (plain : ':' ∉ name.toList) (plain' : ':' ∉ name'.toList)
    (same : fieldName owner name type = fieldName owner' name' type') :
    owner = owner' ∧ name = name' ∧ type = type' := by
  simp only [fieldName, String.append_assoc] at same
  obtain ⟨owners, rests⟩ := owner_inj accepted accepted' same
  -- whatever the types hold, the first colon is that between name and type
  have texts : name.toList ++ ':' :: type.toList = name'.toList ++ ':' :: type'.toList := by
    simpa using congrArg String.toList rests
  obtain ⟨names, types⟩ := append_cons_inj_first plain plain' texts
  exact ⟨owners, String.toList_inj.mp names, String.toList_inj.mp types⟩

end Descriptor

/-! ### Records of members -/

namespace Pools.Member

/-- The class and the prototype of a method are spelled as the grammar has it. -/
def SpellsMethod (member : Member) : Prop :=
  (JavaType.ofDescriptor? member.owner).isSome = true ∧
    (MethodType.ofDescriptor? member.descriptor).isSome = true

/-- The class of a field is spelled as the grammar has it, and its name has no colon. -/
def SpellsField (member : Member) : Prop :=
  (JavaType.ofDescriptor? member.owner).isSome = true ∧ ':' ∉ member.name.toList

theorem eq_of_methodName {member other : Member} (spelled : member.SpellsMethod)
    (alsoSpelled : other.SpellsMethod) (same : member.methodName = other.methodName) :
    member = other := by
  obtain ⟨owner, name, descriptor⟩ := member
  obtain ⟨rfl, rfl, rfl⟩ :=
    Descriptor.methodName_inj spelled.1 alsoSpelled.1 spelled.2 alsoSpelled.2 same
  rfl

theorem eq_of_fieldName {member other : Member} (spelled : member.SpellsField)
    (alsoSpelled : other.SpellsField) (same : member.fieldName = other.fieldName) :
    member = other := by
  obtain ⟨owner, name, descriptor⟩ := member
  obtain ⟨rfl, rfl, rfl⟩ :=
    Descriptor.fieldName_inj spelled.1 alsoSpelled.1 spelled.2 alsoSpelled.2 same
  rfl

end Pools.Member

/-- The member that a record stands for, where `find` looks into the pools of its image. -/
def Image.memberAt? (images : List Image) (find : Pools → Nat → Option Pools.Member)
    (record : Record) : Option Pools.Member :=
  images[record.image]?.bind fun image => find image.container.pools record.id

/-- While keys suffice, two records lead to the same key just if their pools spell one name. -/
theorem Registry.Coherent.record_key_iff {kind : EntityKind} {naming : Record → Option String}
    {registry : Registry kind (Entity kind)} (coherent : Coherent naming registry)
    (fits : registry.size < 2 ^ 32) {record other : Record} {key otherKey : Key kind}
    (bound : registry.lookup? (.record record) = some key)
    (alsoBound : registry.lookup? (.record other) = some otherKey) :
    key = otherKey ↔ naming record = naming other := by
  obtain ⟨name, named, known⟩ := coherent.records bound
  obtain ⟨otherName, otherNamed, otherKnown⟩ := coherent.records alsoBound
  rw [named, otherNamed, Option.some.injEq]
  constructor
  · rintro rfl
    -- the key leads to one entity, which has both names
    obtain ⟨entity, present, rfl⟩ := coherent.get?_of_name fits known
    obtain ⟨same, alsoPresent, rfl⟩ := coherent.get?_of_name fits otherKnown
    rw [Option.some.inj (present.symm.trans alsoPresent)]
  · rintro rfl
    exact Option.some.inj (known.symm.trans otherKnown)

namespace Graph

variable {images : List Image} {graph : Graph} {kind : EntityKind}

/-- Bound records stand for members. If these are `spelled`, the records lead to one entity just if
they stand for the same member. -/
def Identifies (images : List Image) (graph : Graph) (kind : EntityKind)
    (find : Pools → Nat → Option Pools.Member) (spelled : Pools.Member → Prop) : Prop :=
  ∀ (record other : Record) (key otherKey : Key kind),
    (graph.registry kind).lookup? (.record record) = some key →
    (graph.registry kind).lookup? (.record other) = some otherKey →
    ∃ member otherMember, Image.memberAt? images find record = some member ∧
      Image.memberAt? images find other = some otherMember ∧
      (spelled member → spelled otherMember → (key = otherKey ↔ member = otherMember))

theorem WellFormed.identifies (formed : graph.WellFormed images)
    (fits : (graph.registry kind).size < 2 ^ 32) {find : Pools → Nat → Option Pools.Member}
    {spelled : Pools.Member → Prop} {name : Pools.Member → String}
    (named : ∀ record,
      Image.naming images kind record = (Image.memberAt? images find record).map name)
    (apart : ∀ {member other}, spelled member → spelled other → name member = name other →
      member = other) : graph.Identifies images kind find spelled := by
  intro record other key otherKey bound alsoBound
  have coherent := formed.coherent kind
  obtain ⟨text, spells, -⟩ := coherent.records bound
  obtain ⟨otherText, otherSpells, -⟩ := coherent.records alsoBound
  rw [named] at spells otherSpells
  -- a record that has a name stands for a member
  obtain ⟨member, found, -⟩ := Option.map_eq_some_iff.mp spells
  obtain ⟨otherMember, otherFound, -⟩ := Option.map_eq_some_iff.mp otherSpells
  refine ⟨member, otherMember, found, otherFound, fun spelling otherSpelling => ?_⟩
  rw [coherent.record_key_iff fits bound alsoBound, named, named, found, otherFound]
  constructor
  · intro same
    exact apart spelling otherSpelling (Option.some.inj same)
  · rintro rfl
    rfl

/-- The name of a member identifies it. Its class, name and descriptor can be read off the name, as
long as class and prototype are accepted and the name of a field has no colon; and records of such
members share an entity just if class, name and descriptor are the same. -/
theorem member_names_identify :
    (∀ {owner owner' name name' proto proto' : String},
      (JavaType.ofDescriptor? owner).isSome = true → (JavaType.ofDescriptor? owner').isSome = true →
      (MethodType.ofDescriptor? proto).isSome = true →
      (MethodType.ofDescriptor? proto').isSome = true →
      Descriptor.methodName owner name proto = Descriptor.methodName owner' name' proto' →
      owner = owner' ∧ name = name' ∧ proto = proto') ∧
    (∀ {owner owner' name name' type type' : String},
      (JavaType.ofDescriptor? owner).isSome = true → (JavaType.ofDescriptor? owner').isSome = true →
      ':' ∉ name.toList → ':' ∉ name'.toList →
      Descriptor.fieldName owner name type = Descriptor.fieldName owner' name' type' →
      owner = owner' ∧ name = name' ∧ type = type') ∧
    ∀ {images : List Image} {keepUses : Bool} {graph : Graph}, Image.Numbered images →
      (build false keepUses images).outcome = .ok graph →
      (graph.methods.size < 2 ^ 32 →
        graph.Identifies images .methods Pools.method? Pools.Member.SpellsMethod) ∧
      (graph.fields.size < 2 ^ 32 →
        graph.Identifies images .fields Pools.field? Pools.Member.SpellsField) := by
  refine ⟨Descriptor.methodName_inj, Descriptor.fieldName_inj, ?_⟩
  intro images keepUses graph numbered built
  have formed := (populated_of_build numbered built).1
  constructor
  · intro fits
    refine formed.identifies fits (fun record => ?_) Pools.Member.eq_of_methodName
    rw [Image.naming, Image.memberAt?, Option.map_bind]
    rfl
  · intro fits
    refine formed.identifies fits (fun record => ?_) Pools.Member.eq_of_fieldName
    rw [Image.naming, Image.memberAt?, Option.map_bind]
    rfl

/-- Names that hold separators, and the method that two images declare. -/
theorem member_names_identify_sample :
    (∀ owner name proto : String, (JavaType.ofDescriptor? owner).isSome = true →
      (MethodType.ofDescriptor? proto).isSome = true →
      Descriptor.methodName owner name proto = "[LA;->g()->(f([LA;I)V" →
      owner = "[LA;" ∧ name = "g()->(f" ∧ proto = "([LA;I)V") ∧
    (∀ owner name type : String, (JavaType.ofDescriptor? owner).isSome = true →
      ':' ∉ name.toList → Descriptor.fieldName owner name type = "LA;->x->:y:I" →
      owner = "LA;" ∧ name = "x->" ∧ type = "y:I") ∧
    ∃ graph key, Image.Numbered AbstractSample.images ∧
      (build false true AbstractSample.images).outcome = .ok graph ∧ graph.methods.size < 2 ^ 32 ∧
      graph.methods.lookup? (.record ⟨0, 0⟩) = some key ∧
      graph.methods.lookup? (.record ⟨1, 0⟩) = some key := by
  have array : (JavaType.ofDescriptor? "[LA;").isSome = true := by decide +kernel
  have object : (JavaType.ofDescriptor? "LA;").isSome = true := by decide +kernel
  have proto : (MethodType.ofDescriptor? "([LA;I)V").isSome = true := by decide +kernel
  have empty : (MethodType.ofDescriptor? "()V").isSome = true := by decide +kernel
  obtain ⟨methods, fields, records⟩ := member_names_identify
  refine ⟨?_, ?_, ?_⟩
  · intro owner name proto' accepted typed same
    exact methods accepted array typed proto same
  · intro owner name type accepted plain same
    exact fields accepted object plain (by decide) same
  · obtain ⟨graph, built, populated⟩ := build_populated AbstractSample.numbered true
    have fits : graph.methods.size < 2 ^ 32 :=
      Nat.lt_of_le_of_lt (size_le_entityBound built .methods) AbstractSample.entityBound_lt
    obtain ⟨key, bound⟩ := (populated.2 _ List.mem_cons_self AbstractSample.classDef
      (Array.mem_singleton.mpr rfl)).methods ⟨0, 0x401, none⟩ (List.mem_singleton.mpr rfl)
    obtain ⟨otherKey, alsoBound⟩ := (populated.2 _ (List.mem_cons_of_mem _ List.mem_cons_self)
      Sample.classDef (Array.mem_singleton.mpr rfl)).methods ⟨0, 9, some Sample.code⟩
      (List.mem_singleton.mpr rfl)
    obtain ⟨member, other, found, alsoFound, identified⟩ :=
      (records AbstractSample.numbered built).1 fits _ _ key otherKey bound alsoBound
    -- both images have the pools of the small one, and so the same method there
    have spelled : Sample.pools.method? 0 = some ⟨"LA;", "f", "()V"⟩ := by cbv
    obtain rfl := Option.some.inj (spelled.symm.trans found)
    obtain rfl := Option.some.inj (spelled.symm.trans alsoFound)
    obtain rfl := (identified ⟨object, empty⟩ ⟨object, empty⟩).mpr rfl
    exact ⟨graph, key, AbstractSample.numbered, built, fits, bound, alsoBound⟩

end Graph

end DexAtlas
