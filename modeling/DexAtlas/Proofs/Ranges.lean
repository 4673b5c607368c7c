import DexAtlas.Container.Basic
import DexAtlas.Proofs.Collecting

/-!
# Ids in range

Every id that a container holds was checked against its pool as it was read. Hence the pools refer
to each other only where there is an entry, every name of a pool entry can be spelled out, and a
class definition lists members of its own class only, in increasing order of their ids.
-/
namespace DexAtlas

namespace Reader

variable {α β : Type}

/-- Whatever the reader returns, from any buffer and cursor, is as promised. -/
def Yields (reader : Reader α) (promised : α → Prop) : Prop :=
  ∀ ⦃bytes cursor a after⦄, reader bytes cursor = .ok a after → promised a

section Wrapped

variable {reader : Reader α} {bytes : Bytes} {cursor after : Cursor} {a : α}

theorem within_ok_iff {context : Context} :
    within context reader bytes cursor = .ok a after ↔ reader bytes cursor = .ok a after := by
  unfold within
  cases reader bytes cursor <;> simp

theorem restoring_ok_iff :
    restoring reader bytes cursor = .ok a after ↔ reader bytes cursor = .ok a after := by
  unfold restoring
  cases reader bytes cursor <;> simp

theorem elsewhere_ok_iff {pos : Nat} :
    elsewhere pos reader bytes cursor = .ok a after ↔
      ∃ left, reader bytes { cursor with pos } = .ok a left ∧
        after = { left with pos := cursor.pos } := by
  unfold elsewhere
  cases reader bytes { cursor with pos } with
  | ok b left =>
    constructor
    · rintro ⟨⟩
      exact ⟨left, rfl, rfl⟩
    · rintro ⟨_, ⟨rfl, rfl⟩, rfl⟩
      rfl
  | error e left => simp

end Wrapped

namespace Yields

theorem always (reader : Reader α) : Yields reader fun _ => True :=
  fun _ _ _ _ _ => trivial

theorem mono {reader : Reader α} {promised weaker : α → Prop} (yields : Yields reader promised)
    (implied : ∀ a, promised a → weaker a) : Yields reader weaker :=
  fun _ _ a _ ran => implied a (yields ran)

theorem pure {promised : α → Prop} {a : α} (holds : promised a) :
    Yields (Pure.pure a : Reader α) promised := by
  intro bytes cursor b after ran
  obtain ⟨rfl, -⟩ := EStateM.Result.ok.inj ran
  exact holds

theorem bind {reader : Reader α} {next : α → Reader β} {middle : α → Prop} {promised : β → Prop}
    (first : Yields reader middle) (others : ∀ a, middle a → Yields (next a) promised) :
    Yields (reader >>= next) promised := by
  intro bytes cursor b after ran
  obtain ⟨a, between, begun, ended⟩ := bind_ok ran
  exact others a (first begun) ended

/-- A reader of which nothing is promised stands before others. -/
theorem after {reader : Reader α} {next : α → Reader β} {promised : β → Prop}
    (others : ∀ a, Yields (next a) promised) : Yields (reader >>= next) promised :=
  bind (always reader) fun a _ => others a

theorem fail {promised : α → Prop} (cause : Cause) :
    Yields (Reader.fail cause : Reader α) promised := by
  intro bytes cursor a after ran
  cases ran

theorem ensure (condition : Prop) [Decidable condition] (cause : Cause) :
    Yields (Reader.ensure condition cause) fun _ => condition := by
  unfold Reader.ensure
  split
  next holds => exact pure holds
  next => exact fail cause

theorem within {reader : Reader α} {promised : α → Prop} (context : Context)
    (inner : Yields reader promised) : Yields (Reader.within context reader) promised := by
  intro bytes cursor a after ran
  exact inner (within_ok_iff.mp ran)

theorem elsewhere {reader : Reader α} {promised : α → Prop} (pos : Nat)
    (inner : Yields reader promised) : Yields (Reader.elsewhere pos reader) promised := by
  intro bytes cursor a after ran
  obtain ⟨left, there, -⟩ := elsewhere_ok_iff.mp ran
  exact inner there

theorem some {reader : Reader α} {promised : Option α → Prop}
    (inner : Yields reader fun a => promised (some a)) :
    Yields (Option.some <$> reader) promised := by
  intro bytes cursor a after ran
  change EStateM.map Option.some (reader bytes) cursor = _ at ran
  unfold EStateM.map at ran
  split at ran
  next b left result =>
    obtain ⟨rfl, -⟩ := EStateM.Result.ok.inj ran
    exact inner result
  next => cases ran

theorem collect {promised : α → Prop} {item : Nat → Reader α} (count : Nat)
    (each : ∀ i, Yields (item i) promised) :
    Yields (Reader.collect count item) fun all => ∀ a ∈ all, promised a := by
  intro bytes cursor all after ran
  have kept : ∀ a ∈ all.toList, promised a := by
    refine collect_invariant (fun _ done => ∀ a ∈ done, promised a) ?_ ran (by simp)
    intro cursor done a after next before
    rw [List.forall_mem_append, List.forall_mem_singleton]
    exact ⟨before, each done.length next⟩
  simpa using kept

end Yields

end Reader

open Reader

/-! ### Pools -/

namespace Pools

/-- Every id stored in a pool lies below the size of the pool it points into. -/
structure Closed (pools : Pools) : Prop where
  types : ∀ id ∈ pools.types, id < pools.strings.size
  protos : ∀ proto ∈ pools.protos, proto.shorty < pools.strings.size ∧
    proto.result < pools.types.size ∧ ∀ id ∈ proto.parameters, id < pools.types.size
  fields : ∀ field ∈ pools.fields, field.owner < pools.types.size ∧
    field.type < pools.types.size ∧ field.name < pools.strings.size
  methods : ∀ method ∈ pools.methods, method.owner < pools.types.size ∧
    method.proto < pools.protos.size ∧ method.name < pools.strings.size

namespace Closed

variable {pools : Pools}

theorem string? {id : Nat} (inside : id < pools.strings.size) :
    ∃ text, pools.string? id = some text :=
  ⟨pools.strings[id], Array.getElem?_eq_getElem inside⟩

theorem typeDescriptor? (closed : pools.Closed) {id : Nat} (inside : id < pools.types.size) :
    ∃ text, pools.typeDescriptor? id = some text := by
  obtain ⟨text, found⟩ := string? (closed.types _ (Array.getElem_mem inside))
  exact ⟨text, by simp [Pools.typeDescriptor?, Array.getElem?_eq_getElem inside, found]⟩

private theorem parameters (closed : pools.Closed) (ids : List Nat)
    (inside : ∀ id ∈ ids, id < pools.types.size) :
    ∃ texts, ids.mapM pools.typeDescriptor? = some texts := by
  induction ids with
  | nil => exact ⟨[], rfl⟩
  | cons id rest ih =>
    obtain ⟨text, found⟩ := closed.typeDescriptor? (inside id (by simp))
    obtain ⟨texts, others⟩ := ih fun other member => inside other (by simp [member])
    exact ⟨text :: texts, by simp [List.mapM_cons, found, others]⟩

theorem protoDescriptor? (closed : pools.Closed) {id : Nat} (inside : id < pools.protos.size) :
    ∃ text, pools.protoDescriptor? id = some text := by
  obtain ⟨-, result, parameters⟩ := closed.protos _ (Array.getElem_mem inside)
  obtain ⟨texts, spelled⟩ := closed.parameters _ parameters
  obtain ⟨text, found⟩ := closed.typeDescriptor? result
  exact ⟨"(" ++ String.join texts ++ ")" ++ text, by
    simp [Pools.protoDescriptor?, Array.getElem?_eq_getElem inside, spelled, found]⟩

theorem method? (closed : pools.Closed) {id : Nat} (inside : id < pools.methods.size) :
    ∃ member, pools.method? id = some member := by
  obtain ⟨ownerInside, protoInside, nameInside⟩ := closed.methods _ (Array.getElem_mem inside)
  obtain ⟨owner, ownerFound⟩ := closed.typeDescriptor? ownerInside
  obtain ⟨proto, protoFound⟩ := closed.protoDescriptor? protoInside
  obtain ⟨name, nameFound⟩ := string? nameInside
  exact ⟨⟨owner, name, proto⟩, by
    simp [Pools.method?, Array.getElem?_eq_getElem inside, ownerFound, protoFound, nameFound]⟩

theorem field? (closed : pools.Closed) {id : Nat} (inside : id < pools.fields.size) :
    ∃ member, pools.field? id = some member := by
  obtain ⟨ownerInside, typeInside, nameInside⟩ := closed.fields _ (Array.getElem_mem inside)
  obtain ⟨owner, ownerFound⟩ := closed.typeDescriptor? ownerInside
  obtain ⟨type, typeFound⟩ := closed.typeDescriptor? typeInside
  obtain ⟨name, nameFound⟩ := string? nameInside
  exact ⟨⟨owner, name, type⟩, by
    simp [Pools.field?, Array.getElem?_eq_getElem inside, ownerFound, typeFound, nameFound]⟩

end Closed

end Pools

namespace Tables

theorem yields_checkId (what : String) (size id : Nat) :
    Yields (checkId what size id) fun _ => id < size :=
  Yields.ensure _ _

theorem yields_optionalId (what : String) (size id : Nat) :
    Yields (optionalId what size id) fun found => ∀ id ∈ found, id < size := by
  unfold optionalId
  split
  · exact .pure (by simp)
  · exact .bind (yields_checkId what size id) fun _ inside => .pure (by simpa using inside)

theorem yields_typeList (types : Nat) :
    Yields (typeList types) fun ids => ∀ id ∈ ids, id < types := by
  have entry : Yields (do let id ← Reader.u2; checkId "type_list type" types id; return id)
      fun id => id < types :=
    .after fun id => .bind (yields_checkId _ types id) fun _ inside => .pure inside
  refine .after fun count => ?_
  refine .after fun here => ?_
  refine .after fun size => .after fun _ => ?_
  refine .bind (.collect count fun _ => entry) fun ids inside => .pure ?_
  intro id member
  exact inside id (by simpa using member)

theorem yields_typeListAt (types offset : Nat) :
    Yields (typeListAt types offset) fun ids => ∀ id ∈ ids, id < types := by
  unfold typeListAt
  split
  · exact .pure (by simp)
  · exact .elsewhere offset (yields_typeList types)

theorem yields_types (extent : Extent) (strings : Nat) :
    Yields (types extent strings) fun ids => ∀ id ∈ ids, id < strings := by
  refine .after fun _ => .collect extent.size fun i => ?_
  refine .after fun id => ?_
  exact .bind (yields_checkId _ strings id) fun _ inside => .pure inside

theorem yields_protos (extent : Extent) (strings types : Nat) :
    Yields (protos extent strings types) fun items => ∀ proto ∈ items, proto.shorty < strings ∧
      proto.result < types ∧ ∀ id ∈ proto.parameters, id < types := by
  refine .after fun _ => .collect extent.size fun i => ?_
  refine .after fun shorty => ?_
  refine .bind (yields_checkId _ strings shorty) fun _ shortyInside => ?_
  refine .after fun result => ?_
  refine .bind (yields_checkId _ types result) fun _ resultInside => ?_
  refine .after fun offset => ?_
  exact .bind (.within (.protoItem i) (yields_typeListAt types offset))
    fun parameters inside => .pure ⟨shortyInside, resultInside, inside⟩

theorem yields_fields (extent : Extent) (strings types : Nat) :
    Yields (fields extent strings types) fun items => ∀ field ∈ items, field.owner < types ∧
      field.type < types ∧ field.name < strings := by
  refine .after fun _ => .collect extent.size fun i => ?_
  refine .after fun item => ?_
  refine .bind (yields_checkId _ types item.owner) fun _ ownerInside => ?_
  refine .bind (yields_checkId _ types item.type) fun _ typeInside => ?_
  refine .bind (yields_checkId _ strings item.name) fun _ nameInside => ?_
  exact .pure ⟨ownerInside, typeInside, nameInside⟩

theorem yields_methods (extent : Extent) (strings types protos : Nat) :
    Yields (methods extent strings types protos) fun items => ∀ method ∈ items,
      method.owner < types ∧ method.proto < protos ∧ method.name < strings := by
  refine .after fun _ => .collect extent.size fun i => ?_
  refine .after fun item => ?_
  refine .bind (yields_checkId _ types item.owner) fun _ ownerInside => ?_
  refine .bind (yields_checkId _ protos item.proto) fun _ protoInside => ?_
  refine .bind (yields_checkId _ strings item.name) fun _ nameInside => ?_
  exact .pure ⟨ownerInside, protoInside, nameInside⟩

theorem yields_pools (header : Header) : Yields (pools header) Pools.Closed := by
  refine .after fun strings => ?_
  refine .bind (yields_types _ strings.size) fun types inTypes => ?_
  refine .bind (yields_protos _ strings.size types.size) fun protos inProtos => ?_
  refine .bind (yields_fields _ strings.size types.size) fun fields inFields => ?_
  refine .bind (yields_methods _ strings.size types.size protos.size) fun methods inMethods => ?_
  exact .pure ⟨inTypes, inProtos, inFields, inMethods⟩

end Tables

/-! ### Code items -/

theorem DebugInfo.yields_parameterName (strings : Nat) :
    Yields (parameterName strings) fun found => ∀ id ∈ found, id < strings := by
  refine .after fun id => ?_
  split
  · exact .pure (by simp)
  · exact .bind (Tables.yields_checkId _ strings id.toNat) fun _ inside =>
      .pure (by simpa using inside)

theorem DebugInfo.yields_read (strings : Nat) :
    Yields (read strings) fun info => ∀ id, some id ∈ info.parameterNames → id < strings := by
  refine .after fun lineStart => ?_
  refine .after fun count => ?_
  refine .after fun size => .after fun _ => ?_
  refine .bind (.collect count fun _ => yields_parameterName strings) fun names inside => .pure ?_
  intro id named
  exact inside (some id) (by simpa using named) id rfl

theorem CatchHandler.yields_typedHandler (types : Nat) :
    Yields (typedHandler types) fun handler => handler.type < types :=
  .after fun type => .bind (Tables.yields_checkId _ types type) fun _ inside =>
    .after fun _ => .pure inside

theorem CatchHandler.yields_read (types offset : Nat) :
    Yields (read types offset) fun handler =>
      ∀ typed ∈ handler.handlers, typed.type < types := by
  refine .after fun size => ?_
  refine .after fun limit => .after fun _ => ?_
  refine .bind (.collect size.natAbs fun _ => yields_typedHandler types) fun handlers inside => ?_
  have listed : ∀ typed ∈ handlers.toList, typed.type < types := by simpa using inside
  dsimp only
  split
  · exact .after fun catchAll => .pure listed
  · exact .after fun catchAll => .pure listed

namespace CodeItem

/-- The types that handlers are for and the names of parameters are in range. -/
structure InRange (strings types : Nat) (item : CodeItem) : Prop where
  handlers : ∀ handler ∈ item.handlers, ∀ typed ∈ handler.handlers, typed.type < types
  parameterNames : ∀ info ∈ item.debugInfo, ∀ id, some id ∈ info.parameterNames → id < strings

theorem yields_debugInfoAt (strings offset : Nat) :
    Yields (debugInfoAt strings offset) fun found =>
      ∀ info ∈ found, ∀ id, some id ∈ info.parameterNames → id < strings := by
  unfold debugInfoAt
  split
  · exact .pure (by simp)
  · refine .some (.within _ (.elsewhere offset ((DebugInfo.yields_read strings).mono ?_)))
    intro info inside other same
    rwa [← Option.some.inj same]

theorem yields_handlerList (item types : Nat) :
    Yields (handlerList item types) fun handlers =>
      ∀ handler ∈ handlers, ∀ typed ∈ handler.handlers, typed.type < types := by
  have next (start count place : Nat) : Yields (nextHandler item types start count place)
      fun handler => ∀ typed ∈ handler.handlers, typed.type < types :=
    .after fun here => .within _ (CatchHandler.yields_read types _)
  refine .after fun start => ?_
  refine .after fun count => ?_
  refine .after fun limit => .after fun _ => ?_
  refine .bind (.collect count (next start count)) fun handlers inside => .pure ?_
  intro handler member
  exact inside handler (by simpa using member)

theorem yields_guards (item types units count : Nat) :
    Yields (guards item types units count) fun found =>
      ∀ handler ∈ found.2, ∀ typed ∈ handler.handlers, typed.type < types := by
  unfold guards
  split
  · exact .pure (by simp)
  · refine .after fun _ => .after fun tries => ?_
    refine .bind (yields_handlerList item types) fun handlers inside => ?_
    split
    · exact .fail _
    · exact .pure inside

theorem yields_read (strings types : Nat) : Yields (read strings types) (InRange strings types) := by
  refine .after fun start => ?_
  refine .after fun registers => ?_
  refine .after fun ins => ?_
  refine .after fun outs => ?_
  refine .after fun tryCount => ?_
  refine .after fun _ => ?_
  refine .after fun debugOffset => ?_
  refine .bind (yields_debugInfoAt strings debugOffset) fun debugInfo inNames => ?_
  refine .after fun units => ?_
  refine .after fun raw => ?_
  refine .bind (yields_guards start types units tryCount) fun guards inHandlers => ?_
  exact .pure ⟨inHandlers, inNames⟩

end CodeItem

/-! ### Class definitions -/

namespace ClassData

theorem lt_of_nextId {what : String} {previous distance id : Nat}
    (next : nextId what (some previous) distance = .ok id) : previous < id := by
  simp only [nextId] at next
  split at next
  · cases next
  · split at next
    · have sum := Except.ok.inj next
      omega
    · cases next

variable {α : Type} {idOf : α → Nat} {promised : α → Prop} {what : String} {size : Nat}
  {entry : Nat → Reader α}

/-- Members that are read one after another: ids in range, and each above the one before. -/
def Ascending (idOf : α → Nat) (size : Nat) (items : List α) : Prop :=
  (∀ item ∈ items, idOf item < size) ∧ items.Pairwise fun a b => idOf a < idOf b

private theorem yields_more
    (reads : ∀ id, Yields (entry id) fun item => idOf item = id ∧ promised item)
    (left : Nat) (previous : Option Nat) (done : Array α) (before : Ascending idOf size done.toList)
    (kept : ∀ item ∈ done.toList, promised item)
    (bounded : ∀ item ∈ done.toList, ∃ bound, previous = some bound ∧ idOf item ≤ bound) :
    Yields (members.more what size entry left previous done) fun items =>
      Ascending idOf size items ∧ ∀ item ∈ items, promised item := by
  induction left generalizing previous done with
  | zero => exact .pure ⟨before, kept⟩
  | succ left ih =>
    refine .after fun distance => ?_
    split
    · exact .fail _
    next id next =>
      refine .bind (Tables.yields_checkId what size id) fun _ inside => ?_
      refine .bind (reads id) fun item ⟨read, holds⟩ => ih _ _ ?_ ?_ ?_
      · -- every id so far is at most the previous one, and that lies below the new one
        have above : ∀ old ∈ done.toList, idOf old < id := by
          intro old member
          obtain ⟨bound, rfl, low⟩ := bounded old member
          exact Nat.lt_of_le_of_lt low (lt_of_nextId next)
        rw [Array.toList_push]
        refine ⟨?_, List.pairwise_append.mpr ⟨before.2, List.pairwise_singleton _ _, ?_⟩⟩
        · intro old member
          rcases List.mem_append.mp member with old' | new
          · exact before.1 old old'
          · rw [List.mem_singleton.mp new, read]
            exact inside
        · intro old member new last
          rw [List.mem_singleton.mp last, read]
          exact above old member
      · intro old member
        rw [Array.toList_push] at member
        rcases List.mem_append.mp member with old' | new
        · exact kept old old'
        · rw [List.mem_singleton.mp new]
          exact holds
      · intro old member
        refine ⟨id, rfl, ?_⟩
        rw [Array.toList_push] at member
        rcases List.mem_append.mp member with old' | new
        · obtain ⟨bound, rfl, low⟩ := bounded old old'
          exact Nat.le_of_lt (Nat.lt_of_le_of_lt low (lt_of_nextId next))
        · rw [List.mem_singleton.mp new]
          exact Nat.le_of_eq read

theorem yields_members (width count : Nat)
    (reads : ∀ id, Yields (entry id) fun item => idOf item = id ∧ promised item) :
    Yields (members what width size count entry) fun items =>
      Ascending idOf size items ∧ ∀ item ∈ items, promised item := by
  refine .after fun limit => .after fun _ => ?_
  exact yields_more reads count none #[] ⟨by simp, by simp⟩ (by simp) (by simp)

theorem yields_fieldList (what : String) (sizes : PoolSizes) (count : Nat) :
    Yields (fieldList what sizes count) (Ascending EncodedField.id sizes.fields) := by
  have reads : ∀ id, Yields (encodedField id) fun field => field.id = id ∧ True :=
    fun _ => .after fun _ => .pure ⟨rfl, trivial⟩
  exact (yields_members 2 count reads).mono fun _ read => read.1

theorem yields_codeAt (what : String) (sizes : PoolSizes) (id offset : Nat) :
    Yields (codeAt what sizes id offset) fun found =>
      ∀ item ∈ found, item.InRange sizes.strings sizes.types := by
  unfold codeAt
  split
  · exact .pure (by simp)
  · refine .some (.within _ (.elsewhere offset ((CodeItem.yields_read _ _).mono ?_)))
    intro item inside other same
    rwa [← Option.some.inj same]

theorem yields_methodList (what : String) (sizes : PoolSizes) (count : Nat) :
    Yields (methodList what sizes count) fun methods =>
      Ascending EncodedMethod.id sizes.methods methods ∧
        ∀ method ∈ methods, ∀ item ∈ method.code, item.InRange sizes.strings sizes.types :=
  yields_members 3 count fun id => .after fun _ => .after fun offset =>
    .bind (yields_codeAt what sizes id offset) fun _ inside => .pure ⟨rfl, inside⟩

/-- Each of the four lists is in range and in order, and the code of every method is in range. -/
structure Ordered (sizes : PoolSizes) (data : ClassData) : Prop where
  staticFields : Ascending EncodedField.id sizes.fields data.staticFields
  instanceFields : Ascending EncodedField.id sizes.fields data.instanceFields
  directMethods : Ascending EncodedMethod.id sizes.methods data.directMethods
  virtualMethods : Ascending EncodedMethod.id sizes.methods data.virtualMethods
  code : ∀ method ∈ data.methods, ∀ item ∈ method.code, item.InRange sizes.strings sizes.types

theorem yields_read (sizes : PoolSizes) : Yields (read sizes) (Ordered sizes) := by
  refine .after fun staticCount => ?_
  refine .after fun instanceCount => ?_
  refine .after fun directCount => ?_
  refine .after fun virtualCount => ?_
  refine .bind (yields_fieldList _ sizes staticCount) fun _ inStatics => ?_
  refine .bind (yields_fieldList _ sizes instanceCount) fun _ inInstances => ?_
  refine .bind (yields_methodList _ sizes directCount) fun _ inDirects => ?_
  refine .bind (yields_methodList _ sizes virtualCount) fun _ inVirtuals => ?_
  refine .pure ⟨inStatics, inInstances, inDirects.1, inVirtuals.1, ?_⟩
  intro method member
  rcases List.mem_append.mp member with direct | virtual
  · exact inDirects.2 method direct
  · exact inVirtuals.2 method virtual

end ClassData

namespace ClassDef

/-- The ids of the definition are in range, and so are its members, list by list in order. -/
structure InRange (sizes : PoolSizes) (classDef : ClassDef) : Prop where
  type : classDef.type < sizes.types
  superclass : ∀ id ∈ classDef.superclass, id < sizes.types
  interfaces : ∀ id ∈ classDef.interfaces, id < sizes.types
  sourceFile : ∀ id ∈ classDef.sourceFile, id < sizes.strings
  data : ∀ data, classDef.data = some data → data.Ordered sizes

theorem yields_dataAt (sizes : PoolSizes) (offset : Nat) :
    Yields (dataAt sizes offset) fun found => ∀ data, found = some data → data.Ordered sizes := by
  unfold dataAt
  split
  · exact .pure (by simp)
  · refine .some (.elsewhere offset ((ClassData.yields_read sizes).mono ?_))
    intro data ordered other same
    rwa [← Option.some.inj same]

theorem yields_read (sizes : PoolSizes) : Yields (read sizes) (InRange sizes) := by
  refine .after fun type => ?_
  refine .bind (Tables.yields_checkId _ sizes.types type) fun _ inside => ?_
  refine .after fun access => ?_
  refine .after fun superclassId => ?_
  refine .bind (Tables.yields_optionalId _ sizes.types superclassId) fun _ inSuperclass => ?_
  refine .after fun interfacesOffset => ?_
  refine .bind (Tables.yields_typeListAt sizes.types interfacesOffset) fun _ inInterfaces => ?_
  refine .after fun sourceFileId => ?_
  refine .bind (Tables.yields_optionalId _ sizes.strings sourceFileId) fun _ inSource => ?_
  refine .after fun annotationsOffset => ?_
  refine .after fun dataOffset => ?_
  refine .bind (yields_dataAt sizes dataOffset) fun _ ordered => ?_
  refine .after fun staticValuesOffset => ?_
  exact .pure ⟨inside, inSuperclass, inInterfaces, inSource, ordered⟩

theorem InRange.methods {sizes : PoolSizes} {classDef : ClassDef} (inRange : classDef.InRange sizes)
    {method : EncodedMethod} (member : method ∈ classDef.methods) : method.id < sizes.methods := by
  unfold ClassDef.methods at member
  split at member
  next data present =>
    have ordered := inRange.data data present
    rcases List.mem_append.mp member with direct | virtual
    · exact ordered.directMethods.1 method direct
    · exact ordered.virtualMethods.1 method virtual
  next => cases member

theorem InRange.fields {sizes : PoolSizes} {classDef : ClassDef} (inRange : classDef.InRange sizes)
    {field : EncodedField} (member : field ∈ classDef.fields) : field.id < sizes.fields := by
  unfold ClassDef.fields at member
  split at member
  next data present =>
    have ordered := inRange.data data present
    rcases List.mem_append.mp member with static | instanced
    · exact ordered.staticFields.1 field static
    · exact ordered.instanceFields.1 field instanced
  next => cases member

end ClassDef

namespace Container

/-- A definition that lists nothing but methods and fields of its own class. -/
structure OwnMembers (pools : Pools) (classDef : ClassDef) : Prop where
  methods : ∀ method ∈ classDef.methods,
    pools.methods[method.id]?.map MethodItem.owner = some classDef.type
  fields : ∀ field ∈ classDef.fields,
    pools.fields[field.id]?.map FieldItem.owner = some classDef.type

theorem OwnMembers.methods_apart {pools : Pools} {a b : ClassDef} (aOwn : OwnMembers pools a)
    (bOwn : OwnMembers pools b) (differ : a.type ≠ b.type) :
    ∀ m ∈ a.methods, ∀ n ∈ b.methods, m.id ≠ n.id := by
  intro m mMember n nMember same
  have ofA := aOwn.methods m mMember
  rw [same] at ofA
  exact differ (Option.some.inj (ofA.symm.trans (bOwn.methods n nMember)))

theorem OwnMembers.fields_apart {pools : Pools} {a b : ClassDef} (aOwn : OwnMembers pools a)
    (bOwn : OwnMembers pools b) (differ : a.type ≠ b.type) :
    ∀ f ∈ a.fields, ∀ g ∈ b.fields, f.id ≠ g.id := by
  intro f fMember g gMember same
  have ofA := aOwn.fields f fMember
  rw [same] at ofA
  exact differ (Option.some.inj (ofA.symm.trans (bOwn.fields g gMember)))

theorem checkDef_ok {pools : Pools} {seen : Std.HashSet Nat} {position : Nat} {classDef : ClassDef}
    (accepted : checkDef pools seen position classDef = .ok ()) :
    classDef.type ∉ seen ∧ OwnMembers pools classDef := by
  simp only [checkDef] at accepted
  split at accepted
  · cases accepted
  next unseen =>
    split at accepted
    · cases accepted
    next noMethod =>
      split at accepted
      · cases accepted
      next noField =>
        refine ⟨by simpa using unseen, fun method member => ?_, fun field member => ?_⟩
        · simpa [foreignMethod?] using List.find?_eq_none.mp noMethod method member
        · simpa [foreignField?] using List.find?_eq_none.mp noField field member

/-- All that is known of the definitions of a container: each is in range and lists its own members
only, and no two define the same class. -/
structure SoundDefs (pools : Pools) (classDefs : Array ClassDef) : Prop where
  inRange : ∀ classDef ∈ classDefs, classDef.InRange pools.sizes
  ownMembers : ∀ classDef ∈ classDefs, OwnMembers pools classDef
  distinct : classDefs.toList.Pairwise fun a b => a.type ≠ b.type

private theorem SoundDefs.push {pools : Pools} {done : Array ClassDef} {classDef : ClassDef}
    (before : SoundDefs pools done) (inRange : classDef.InRange pools.sizes)
    (own : OwnMembers pools classDef) (unseen : ∀ old ∈ done, old.type ≠ classDef.type) :
    SoundDefs pools (done.push classDef) := by
  constructor
  · intro other member
    rcases Array.mem_push.mp member with old | rfl
    · exact before.inRange other old
    · exact inRange
  · intro other member
    rcases Array.mem_push.mp member with old | rfl
    · exact before.ownMembers other old
    · exact own
  · rw [Array.toList_push]
    refine List.pairwise_append.mpr ⟨before.distinct, List.pairwise_singleton _ _, ?_⟩
    intro old member new last
    rw [List.mem_singleton.mp last]
    exact unseen old (by simpa using member)

theorem yields_classDefsFrom (cancelled : Bool) (pools : Pools) (left : Nat)
    (seen : Std.HashSet Nat) (done : Array ClassDef) (before : SoundDefs pools done)
    (known : ∀ classDef ∈ done, classDef.type ∈ seen) :
    Yields (classDefsFrom cancelled pools left seen done) (SoundDefs pools) := by
  induction left generalizing seen done with
  | zero => exact .pure before
  | succ left ih =>
    refine .after fun _ => ?_
    refine .bind (.within _ (ClassDef.yields_read pools.sizes)) fun classDef inRange => ?_
    split
    · exact .fail _
    next accepted =>
      -- the class is not among those seen, and those are all the classes of the definitions so far
      obtain ⟨unseen, own⟩ := checkDef_ok accepted
      apply ih
      · refine before.push inRange own fun old member same => ?_
        exact unseen (same ▸ known old member)
      · intro other member
        rcases Array.mem_push.mp member with old | rfl
        · simpa using Or.inr (known other old)
        · simp

/-- The pools are closed and the definitions fit them. -/
structure Sound (container : Container) : Prop where
  pools : container.pools.Closed
  classDefs : SoundDefs container.pools container.classDefs

theorem yields_read (cancelled : Bool) : Yields (read cancelled) Sound := by
  have none (pools : Pools) : SoundDefs pools #[] := ⟨by simp, by simp, by simp⟩
  refine .after fun header => ?_
  refine .bind (Tables.yields_pools header) fun pools closed => ?_
  refine .after fun _ => ?_
  refine .bind (yields_classDefsFrom cancelled pools _ ∅ #[] (none pools) (by simp))
    fun classDefs sound => ?_
  refine .after fun _ => .after fun data => ?_
  exact .pure ⟨closed, sound⟩

theorem sound_of_parse {bytes : Bytes} {cancelled : Bool} {container : Container}
    (parsed : (parse bytes cancelled).outcome = .ok container) : container.Sound := by
  unfold parse at parsed
  split at parsed
  next found cursor result =>
    obtain rfl := Except.ok.inj parsed
    exact yields_read cancelled result
  next => cases parsed

end Container

end DexAtlas
