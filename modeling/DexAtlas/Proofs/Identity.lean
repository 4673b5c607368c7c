import DexAtlas.Proofs.Builder
import DexAtlas.Proofs.Loading

/-!
# Identity

The graph of loaded images can always be built, and in it names and records agree. The invariant is
that each registry is coherent, where the name of a record is what the pools of its image give to
its id, and that members belong to classes of the graph. A record is bound in several places, but
always together with the name that its pools spell; hence it never meets another key, and no
construction step fails.
-/
namespace DexAtlas

/-- The name across images that the pools give to an id: a type, a member or a string. -/
def Pools.nameOf? (pools : Pools) : EntityKind → Nat → Option String
  | .classes => pools.typeDescriptor?
  | .methods => pools.methodName?
  | .fields => pools.fieldName?
  | .strings => pools.string?

/-- The ids of the members of a sort. -/
def ClassDef.memberIds (classDef : ClassDef) : EntityKind → List Nat
  | .methods => classDef.methods.map EncodedMethod.id
  | .fields => classDef.fields.map EncodedField.id
  | .classes | .strings => []

/-- A member is known by its full name. -/
theorem Pools.nameOf?_of_find? {pools : Pools} {kind : MemberKind} {id : Nat}
    {member : Pools.Member} (found : kind.find? pools id = some member) :
    pools.nameOf? kind.sort id = some (kind.fullName member) := by
  cases kind with
  | field => exact Option.map_eq_some_iff.mpr ⟨member, found, rfl⟩
  | method => exact Option.map_eq_some_iff.mpr ⟨member, found, rfl⟩

/-- The members that a definition lists are in the pools. -/
theorem Container.Sound.find?_of_listed {container : Container} (sound : container.Sound)
    {classDef : ClassDef} (defined : classDef ∈ container.classDefs) {kind : MemberKind} {id : Nat}
    (listed : id ∈ classDef.memberIds kind.sort) :
    ∃ member, kind.find? container.pools id = some member := by
  have inRange := sound.classDefs.inRange classDef defined
  cases kind with
  | field =>
    obtain ⟨field, among, rfl⟩ := List.mem_map.mp listed
    exact sound.pools.field? (inRange.fields among)
  | method =>
    obtain ⟨method, among, rfl⟩ := List.mem_map.mp listed
    exact sound.pools.method? (inRange.methods among)

namespace Image

/-- The name of a record of one of the images. -/
def naming (images : List Image) (kind : EntityKind) (record : Record) : Option String :=
  images[record.image]?.bind fun image => image.container.pools.nameOf? kind record.id

/-- A member that some definition of the images lists. -/
def Lists (images : List Image) (kind : EntityKind) (record : Record) : Prop :=
  ∃ image ∈ images, ∃ classDef ∈ image.container.classDefs,
    record.image = image.index ∧ record.id ∈ classDef.memberIds kind

variable {images : List Image} {image : Image}

theorem Numbered.at_index (numbered : Numbered images) (member : image ∈ images) :
    images[image.index]? = some image := by
  obtain ⟨position, found⟩ := List.mem_iff_getElem?.mp member
  rw [(numbered position image found).2, found]

theorem Numbered.sound (numbered : Numbered images) (member : image ∈ images) : image.Sound := by
  obtain ⟨position, found⟩ := List.mem_iff_getElem?.mp member
  exact (numbered position image found).1.sound

theorem naming_of_get? {index : Nat} (found : images[index]? = some image) (kind : EntityKind)
    (id : Nat) : naming images kind ⟨index, id⟩ = image.container.pools.nameOf? kind id := by
  simp [naming, found]

end Image

namespace Graph

/-- Names and records agree in every registry, members belong to classes that are there, and the
place of a member is a declaration that spells its name. -/
structure WellFormed (images : List Image) (graph : Graph) : Prop where
  coherent : ∀ kind, (graph.registry kind).Coherent (Image.naming images kind)
  owned : ∀ {kind key entity owner}, (graph.registry kind).get? key = some entity →
    Entity.owner kind entity = some owner → (graph.registry .classes).contains owner = true
  placed : ∀ {kind key entity record}, (graph.registry kind).get? key = some entity →
    Entity.location kind entity = some record →
      Image.Lists images kind record ∧
        Image.naming images kind record = some (Entity.name kind entity)

namespace WellFormed

variable {images : List Image} {graph : Graph} {kind : EntityKind}

theorem empty : WellFormed images {} := by
  refine ⟨fun kind => ?_, fun {kind key entity owner} found => ?_,
    fun {kind key entity record} found => ?_⟩
  · cases kind <;> exact Registry.Coherent.empty
  · cases kind <;> simp [Graph.registry, Registry.get?] at found
  · cases kind <;> simp [Graph.registry, Registry.get?] at found

/-- To replace one registry it is enough to look at that one. -/
theorem set (formed : graph.WellFormed images) {registry : Registry kind (Entity kind)}
    (grown : (graph.registry kind).Extends registry)
    (coherent : registry.Coherent (Image.naming images kind))
    (owned : ∀ {key entity owner}, registry.get? key = some entity →
      Entity.owner kind entity = some owner → (graph.registry .classes).contains owner = true)
    (placed : ∀ {key entity record}, registry.get? key = some entity →
      Entity.location kind entity = some record →
        Image.Lists images kind record ∧
          Image.naming images kind record = some (Entity.name kind entity)) :
    (graph.set kind registry).WellFormed images := by
  have larger := extends_set graph kind registry grown
  constructor
  · intro other
    by_cases same : other = kind
    · subst same
      rwa [registry_set]
    · rw [registry_set_of_ne graph same]
      exact formed.coherent other
  · intro other key entity owner found belongs
    apply (larger .classes).contains
    by_cases same : other = kind
    · subst same
      rw [registry_set] at found
      exact owned found belongs
    · rw [registry_set_of_ne graph same] at found
      exact formed.owned found belongs
  · intro other key entity record found located
    by_cases same : other = kind
    · subst same
      rw [registry_set] at found
      exact placed found located
    · rw [registry_set_of_ne graph same] at found
      exact formed.placed found located

end WellFormed

/-- The class, if there is one, is in the graph. -/
def HasClass (owner : Option ClassKey) (graph : Graph) : Prop :=
  ∀ key, owner = some key → (graph.registry .classes).contains key = true

/-- A record that leads to some entity. -/
def Bound (kind : EntityKind) (record : Record) (graph : Graph) : Prop :=
  ∃ key, (graph.registry kind).byRecord[record]? = some key

end Graph

namespace Builder

variable {images : List Image} {kind : EntityKind}

theorem stable_bound (kind : EntityKind) (record : Record) : Stable (Graph.Bound kind record) :=
  fun _ _ grown ⟨key, bound⟩ => ⟨key, (grown kind).records bound⟩

theorem stable_hasClass (owner : Option ClassKey) : Stable (Graph.HasClass owner) :=
  fun _ _ grown present key same => (grown .classes).contains (present key same)

theorem hasClass_of_known {graph : Graph} (formed : graph.WellFormed images) {name : String}
    {key : ClassKey} (known : (graph.registry .classes).byName[name]? = some key) :
    graph.HasClass (some key) := by
  rintro _ ⟨⟩
  exact (formed.coherent .classes).contains known

/-! ### Elementary steps -/

theorem ensures_intern {name : String} {make : Key kind → Entity kind} {owner : Option ClassKey}
    (named : ∀ key, Entity.name kind (make key) = name)
    (keyed : ∀ key, Entity.key kind (make key) = key)
    (belongs : ∀ key, Entity.owner kind (make key) = owner)
    (placed : ∀ key record, Entity.location kind (make key) = some record →
      Image.Lists images kind record ∧ Image.naming images kind record = some name) :
    Ensures (fun graph => graph.WellFormed images ∧ graph.HasClass owner)
      (intern kind name make)
      fun result graph => graph.WellFormed images ∧
        (graph.registry kind).byName[name]? = some result.1 := by
  intro state ⟨formed, present⟩
  have grown := Registry.Extends.intern (state.graph.registry kind) name make
  refine ⟨_, _, intern_run kind name make state, Graph.extends_set _ _ _ grown, ?_, ?_⟩
  · -- under every key stands what stood there before, or the new entity
    refine formed.set grown ((formed.coherent kind).intern fun key => ⟨named key, keyed key⟩) ?_ ?_
    · intro key entity a found owned
      rcases (state.graph.registry kind).get?_intern name make key with same | ⟨-, new⟩
      · exact formed.owned (same ▸ found) owned
      · rw [new, Option.some.injEq] at found
        rw [← found, belongs] at owned
        exact present a owned
    · intro key entity record found located
      rcases (state.graph.registry kind).get?_intern name make key with same | ⟨-, new⟩
      · exact formed.placed (same ▸ found) located
      · rw [new, Option.some.injEq] at found
        subst found
        rw [named]
        exact placed key record located
  · rw [Graph.registry_set]
    exact Registry.byName_intern _ _ _

theorem ensures_bind {record : Record} {name : String} {key : Key kind}
    (named : Image.naming images kind record = some name) :
    Ensures (fun graph => graph.WellFormed images ∧
        (graph.registry kind).byName[name]? = some key)
      (bind kind record key)
      fun _ graph => graph.WellFormed images ∧
        (graph.registry kind).byRecord[record]? = some key := by
  intro state ⟨formed, known⟩
  have accepted := (formed.coherent kind).bind_accepted named known
  have grown := Registry.Extends.bind (state.graph.registry kind) record key
  refine ⟨(), _, onRegistry_of_ok accepted, Graph.extends_set _ _ _ grown, ?_, ?_⟩
  · have same (other : Key kind) : ((state.graph.registry kind).bind record key).2.get? other =
        (state.graph.registry kind).get? other := by
      rw [Registry.get?, Registry.arena_bind, Registry.get?]
    exact formed.set grown ((formed.coherent kind).bind named known)
      (fun found => formed.owned (same _ ▸ found)) fun found => formed.placed (same _ ▸ found)
  · rw [Graph.registry_set]
    exact Registry.byRecord_bind accepted

theorem ensures_update {what : String} {key : Key kind} {change : Entity kind → Entity kind}
    (keeps : Entity.Keeps kind change) :
    Ensures (fun graph => graph.WellFormed images ∧ (graph.registry kind).contains key = true)
      (update kind what key change) fun _ graph => graph.WellFormed images := by
  intro state ⟨formed, present⟩
  have grown := Registry.Extends.modify (state.graph.registry kind) key change
  refine ⟨(), ⟨state.graph.set kind ((state.graph.registry kind).modify key change),
    state.notices⟩, ?_, Graph.extends_set _ _ _ grown, ?_⟩
  · simp only [update, onRegistry, Graph.modifyGet_eq, present, if_true]
  · refine formed.set grown ((formed.coherent kind).modify key keeps) ?_ ?_
    · intro other entity a found owned
      rw [Registry.get?_modify] at found
      split at found
      · obtain ⟨old, there, rfl⟩ := Option.map_eq_some_iff.mp found
        exact formed.owned there (keeps.owner old ▸ owned)
      · exact formed.owned found owned
    · intro other entity record found located
      rw [Registry.get?_modify] at found
      split at found
      · obtain ⟨old, there, rfl⟩ := Option.map_eq_some_iff.mp found
        rw [keeps.name]
        exact formed.placed there (keeps.location old ▸ located)
      · exact formed.placed found located

theorem ensures_updateClass {key : ClassKey} {change : ClassEntity → ClassEntity}
    (keeps : ∀ c, (change c).name = c.name ∧ (change c).key = c.key) :
    Ensures (fun graph => graph.WellFormed images ∧ graph.HasClass (some key))
      (updateClass key change) fun _ graph => graph.WellFormed images := by
  intro state ⟨formed, present⟩
  have kept : Entity.Keeps .classes change :=
    ⟨fun c => (keeps c).1, fun c => (keeps c).2, fun _ => rfl, fun _ => rfl⟩
  exact ensures_update kept state ⟨formed, present key rfl⟩

/-! ### Declarations -/

/-- A well-formed graph in which a class is present. -/
def Hosts (images : List Image) (owner : ClassKey) (graph : Graph) : Prop :=
  graph.WellFormed images ∧ graph.HasClass (some owner)

theorem reaches_noteRedeclaration (member : Pools.Member) (kind : MemberKind) {state : Build}
    {promised : Unit → Graph → Prop} (holds : promised () state.graph) :
    Reaches (noteRedeclaration member kind) state promised := by
  cases kind with
  | field => exact .pure holds
  | method => exact .raise _ holds

/-- A member that is listed has a name, so it is interned and bound, and listed with its class if
it is new. -/
theorem ensures_declareMember (numbered : Image.Numbered images) {image : Image}
    (inside : image ∈ images) {classDef : ClassDef} (defined : classDef ∈ image.container.classDefs)
    (kind : MemberKind) (owner : ClassKey) {id : Nat} (listed : id ∈ classDef.memberIds kind.sort)
    (access : Nat) (external : Bool) :
    Ensures (Hosts images owner) (declareMember kind image owner id access external)
      fun _ graph => Hosts images owner graph ∧ graph.Bound kind.sort ⟨image.index, id⟩ := by
  have sound := (numbered.sound inside).container
  obtain ⟨member, found⟩ := sound.find?_of_listed defined listed
  have named : Image.naming images kind.sort ⟨image.index, id⟩ = some (kind.fullName member) := by
    rw [Image.naming_of_get? (numbered.at_index inside), Pools.nameOf?_of_find? found]
  intro state ⟨formed, hosted⟩
  unfold declareMember
  rw [found]
  have placed : ∀ key record, Entity.location kind.sort
      (kind.make (some owner) member access external (some ⟨image.index, id⟩) key) = some record →
        Image.Lists images kind.sort record ∧
          Image.naming images kind.sort record = some (kind.fullName member) := by
    intro key record own
    rw [kind.location_make] at own
    cases own
    exact ⟨⟨image, inside, classDef, defined, rfl, listed⟩, named⟩
  refine .bind (ensures_intern (kind.name_make _ _ _ _ _) (kind.key_make _ _ _ _ _)
    (kind.owner_make _ _ _ _ _) placed) ⟨formed, hosted⟩ fun (key, created) s₁ grown ⟨formed, known⟩ => ?_
  replace hosted := stable_hasClass _ grown hosted
  refine .bind (ensures_bind named) ⟨formed, known⟩ fun _ s₂ grown ⟨formed, bound⟩ => ?_
  replace hosted := stable_hasClass _ grown hosted
  split
  · refine .last (ensures_updateClass (kind.keeps_addTo key)) ⟨formed, hosted⟩
      fun _ after grown formed => ?_
    exact ⟨⟨formed, stable_hasClass _ grown hosted⟩, stable_bound _ _ grown ⟨key, bound⟩⟩
  · exact reaches_noteRedeclaration member kind ⟨⟨formed, hosted⟩, key, bound⟩

/-- A definition whose class and members are all bound. -/
structure Declared (image : Image) (classDef : ClassDef) (graph : Graph) : Prop where
  type : graph.Bound .classes ⟨image.index, classDef.type⟩
  fields : ∀ field ∈ classDef.fields, graph.Bound .fields ⟨image.index, field.id⟩
  methods : ∀ method ∈ classDef.methods, graph.Bound .methods ⟨image.index, method.id⟩

theorem stable_declared (image : Image) (classDef : ClassDef) :
    Stable (Declared image classDef) :=
  fun _ _ grown declared => ⟨stable_bound _ _ grown declared.type,
    fun field member => stable_bound _ _ grown (declared.fields field member),
    fun method member => stable_bound _ _ grown (declared.methods method member)⟩

theorem ensures_noteRedefinition (image : Image) (key : ClassKey) :
    Ensures (Hosts images key) (noteRedefinition image key)
      fun _ graph => Hosts images key graph := by
  intro state hosts
  obtain ⟨entity, present⟩ := (Registry.contains_iff _ _).mp (hosts.2 key rfl)
  refine .graph ?_
  split
  next absent => cases absent.symm.trans present
  next =>
    split
    · exact .raise _ hosts
    · exact .pure hosts

theorem define_keeps (c : ClassEntity) (origin : Origin) (access : Nat) (superclass : Option String)
    (interfaces : List String) : (c.define origin access superclass interfaces).name = c.name ∧
      (c.define origin access superclass interfaces).key = c.key := by
  unfold ClassEntity.define
  split <;> exact ⟨rfl, rfl⟩

theorem ensures_declareClass (numbered : Image.Numbered images) {image : Image}
    (member : image ∈ images) (position : Nat) {classDef : ClassDef}
    (defined : classDef ∈ image.container.classDefs) :
    Ensures (Graph.WellFormed images) (declareClass image position classDef)
      fun _ graph => graph.WellFormed images ∧ Declared image classDef graph := by
  have sound := (numbered.sound member).container
  have inRange := sound.classDefs.inRange classDef defined
  obtain ⟨name, found⟩ := sound.pools.typeDescriptor? inRange.type
  have named : Image.naming images .classes ⟨image.index, classDef.type⟩ = some name := by
    rw [Image.naming_of_get? (numbered.at_index member)]
    exact found
  intro state formed
  unfold declareClass
  simp only [Container.className?, found]
  refine .bind (ensures_intern (fun _ => rfl) (fun _ => rfl) (fun _ => rfl) nofun)
    ⟨formed, nofun⟩ fun (key, _) s₁ _ ⟨formed, known⟩ => ?_
  have present := hasClass_of_known formed known
  refine .bind (ensures_bind named) ⟨formed, known⟩ fun _ s₂ grown ⟨formed, bound⟩ => ?_
  replace present := stable_hasClass _ grown present
  refine .bind (ensures_updateClass fun c => define_keeps c _ _ _ _) ⟨formed, present⟩
    fun _ s₃ grown formed => ?_
  replace present := stable_hasClass _ grown present
  replace bound := (grown .classes).records bound
  refine .bind (ensures_noteRedefinition image key) ⟨formed, present⟩ fun _ s₄ grown hosts => ?_
  replace bound := (grown .classes).records bound
  refine .bind (.forM (fun _ => stable_bound _ _) fun _ listed =>
    ensures_declareMember numbered member defined .field key (List.mem_map_of_mem listed) _ _) hosts
    fun _ s₅ grown ⟨hosts, fields⟩ => ?_
  replace bound := (grown .classes).records bound
  refine .bind (.forM (fun _ => stable_bound _ _) fun _ listed =>
    ensures_declareMember numbered member defined .method key (List.mem_map_of_mem listed) _ _) hosts
    fun _ s₆ grown ⟨hosts, methods⟩ => ?_
  refine .raise _ ⟨hosts.1, ⟨key, (grown .classes).records bound⟩, ?_, methods⟩
  exact fun field listed => stable_bound _ _ grown (fields field listed)

theorem ensures_declareImage (numbered : Image.Numbered images) {image : Image}
    (member : image ∈ images) :
    Ensures (Graph.WellFormed images) (declareImage false image) fun _ graph =>
      graph.WellFormed images ∧
        ∀ classDef ∈ image.container.classDefs, Declared image classDef graph := by
  have each : ∀ entry ∈ image.container.classDefs.toList.zipIdx,
      Ensures (Graph.WellFormed images) (declareClass image entry.2 entry.1)
        fun _ graph => graph.WellFormed images ∧ Declared image entry.1 graph := by
    intro entry listed
    exact ensures_declareClass numbered member entry.2
      (by simpa using List.fst_mem_of_mem_zipIdx listed)
  intro state formed
  refine .last (.forM (fun entry => stable_declared image entry.1) each) formed ?_
  rintro _ after - ⟨formed, declared⟩
  refine ⟨formed, fun classDef defined => ?_⟩
  obtain ⟨position, found⟩ := List.mem_iff_getElem?.mp (Array.mem_toList_iff.mpr defined)
  exact declared (classDef, position) (List.mk_mem_zipIdx_iff_getElem?.mpr found)

/-! ### Ancestors -/

theorem ensures_linkClasses :
    Ensures (Graph.WellFormed images) linkClasses fun _ graph => graph.WellFormed images := by
  intro state formed
  let change (c : ClassEntity) : ClassEntity := { c with
    superclass := c.superclass.map (resolveLink state.graph.classes)
    interfaces := c.interfaces.map (resolveLink state.graph.classes) }
  have keeps : Entity.Keeps .classes change :=
    ⟨fun _ => rfl, fun _ => rfl, fun _ => rfl, fun _ => rfl⟩
  have grown := Registry.Extends.map (state.graph.registry .classes) change
  refine ⟨(), _, rfl, Graph.extends_set _ .classes _ grown, ?_⟩
  exact formed.set grown ((formed.coherent .classes).map keeps) (fun _ owned => by cases owned)
    fun _ located => by cases located

end Builder

end DexAtlas
