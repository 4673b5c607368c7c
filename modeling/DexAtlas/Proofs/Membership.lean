import DexAtlas.Proofs.Declarations
import DexAtlas.Proofs.Erasure

/-!
# Members and their classes

Which member belongs to which class is kept twice, by the member that knows its class and by the
class that lists it. The two agree at all times, because a member is listed as soon as it is made
and never again. A list is therefore in the order in which its members were made: those that are
declared come first, and those that are only used are behind them.
-/
namespace DexAtlas

namespace Entity

/-- The name of the class that a member belongs to. -/
def ownerName : (kind : EntityKind) → Entity kind → String
  | .methods => MethodEntity.ownerName
  | .fields => FieldEntity.ownerName
  | .classes | .strings => fun _ => ""

def external : (kind : EntityKind) → Entity kind → Bool
  | .classes => ClassEntity.external
  | .methods => MethodEntity.external
  | .fields => FieldEntity.external
  | .strings => fun _ => false

/-- What a member says of its class, with its own key. -/
def badge (kind : EntityKind) (entity : Entity kind) : Option ClassKey × String × Key kind :=
  (owner kind entity, ownerName kind entity, key kind entity)

theorem badge_withoutUses (kind : EntityKind) (entity : Entity kind) :
    badge kind (withoutUses kind entity) = badge kind entity := by
  cases kind <;> rfl

end Entity

namespace ClassEntity

/-- The members of a sort that a class lists. -/
def members (c : ClassEntity) : (kind : EntityKind) → List (Key kind)
  | .methods => c.methods.toList
  | .fields => c.fields.toList
  | .classes | .strings => []

theorem members_withoutUses (kind : EntityKind) (c : ClassEntity) :
    (Entity.withoutUses .classes c : ClassEntity).members kind = c.members kind := by
  cases kind <;> rfl

end ClassEntity

namespace MemberKind

theorem badge_make (kind : MemberKind) (owner : Option ClassKey) (member : Pools.Member)
    (access : Nat) (external : Bool) (location : Option Record) (key : Key kind.sort) :
    Entity.badge kind.sort (kind.make owner member access external location key) =
      (owner, member.owner, key) := by
  cases kind <;> rfl

theorem members_addTo (kind : MemberKind) (key : Key kind.sort) (c : ClassEntity) :
    (kind.addTo c key).members kind.sort = c.members kind.sort ++ [key] := by
  cases kind <;> exact Array.toList_push

theorem members_addTo_of_ne {kind other : MemberKind} (apart : kind ≠ other) (key : Key other.sort)
    (c : ClassEntity) : (other.addTo c key).members kind.sort = c.members kind.sort := by
  cases kind <;> cases other <;> first | rfl | exact absurd rfl apart

end MemberKind

/-! ### Lists and rosters -/

/-- The members of the registry that belong to a class, in the order in which they were made. -/
def Registry.roster {kind : EntityKind} (registry : Registry kind (Entity kind))
    (owner : ClassKey) : List (Key kind) :=
  (registry.arena.toList.filter fun entity => Entity.owner kind entity = some owner).map
    (Entity.key kind)

/-- A member enters the list of its class, if it is new and has one. -/
def enter {kind : EntityKind} (created : Bool) (owner : Option ClassKey) (key : Key kind)
    (lists : ClassKey → List (Key kind)) : ClassKey → List (Key kind) :=
  match created, owner with
  | true, some owner => pushAt lists owner key
  | _, _ => lists

namespace Registry

variable {kind : EntityKind} {registry after : Registry kind (Entity kind)}

theorem roster_of_badges
    (same : after.arena.map (Entity.badge kind) = registry.arena.map (Entity.badge kind)) :
    after.roster = registry.roster := by
  have read (any : Registry kind (Entity kind)) (owner : ClassKey) : any.roster owner =
      (((any.arena.map (Entity.badge kind)).toList.filter fun badge => badge.1 = some owner).map
        fun badge => badge.2.2) := by
    simp only [roster, Array.toList_map, List.filter_map, List.map_map, Function.comp_def,
      Entity.badge]
    rfl
  funext owner
  rw [read, read, same]

/-- An entity was there, or it was made. -/
theorem mem_arena_intern {name : String} {make : Key kind → Entity kind} {entity : Entity kind}
    (listed : entity ∈ (registry.intern name make).2.arena) :
    entity ∈ registry.arena ∨ ∃ key, entity = make key := by
  rcases registry.intern_cases name make with ⟨key, known, result⟩ | ⟨new, result⟩
  · rw [result] at listed
    exact .inl listed
  · rw [result] at listed
    rcases Array.mem_push.mp listed with old | rfl
    · exact .inl old
    · exact .inr ⟨_, rfl⟩

theorem roster_intern {name : String} {make : Key kind → Entity kind} {owner : Option ClassKey}
    (owned : ∀ key, Entity.owner kind (make key) = owner)
    (keyed : ∀ key, Entity.key kind (make key) = key) :
    (registry.intern name make).2.roster =
      enter (registry.intern name make).1.2 owner (registry.intern name make).1.1 registry.roster := by
  rcases registry.intern_cases name make with ⟨key, known, result⟩ | ⟨new, result⟩
  · rw [result]
    rfl
  · rw [result]
    funext other
    cases owner with
    | none => simp [roster, enter, owned]
    | some owner =>
      by_cases same : other = owner
      · simp [roster, enter, pushAt, owned, keyed, same]
      · simp [roster, enter, pushAt, owned, same, Ne.symm same]

end Registry

namespace Graph

/-- The members that each class lists. -/
def lists (graph : Graph) (kind : EntityKind) : ClassKey → List (Key kind) :=
  graph.classes.view (ClassEntity.members · kind) []

/-- Classes list their members, and members know their classes also by name. -/
structure Enlisted (kind : EntityKind) (graph : Graph) : Prop where
  listed : graph.lists kind = (graph.registry kind).roster
  owned : ∀ entity ∈ (graph.registry kind).arena, ∀ owner,
    Entity.owner kind entity = some owner →
      graph.classes.byName[Entity.ownerName kind entity]? = some owner

/-- The graph grows, and nothing happens to lists and members. -/
structure Idle (kind : EntityKind) (before after : Graph) : Prop where
  larger : before.Extends after
  lists : after.lists kind = before.lists kind
  badges : (after.registry kind).arena.map (Entity.badge kind) =
    (before.registry kind).arena.map (Entity.badge kind)

/-- The graph grows, and classes go on to list their members. -/
structure Enlists (kind : EntityKind) (before after : Graph) : Prop where
  larger : before.Extends after
  kept : before.Enlisted kind → after.Enlisted kind

/-- The same for steps at a class that is known by its name, or at none. -/
structure EnlistsAt (kind : EntityKind) (name : String) (owner : Option ClassKey)
    (before after : Graph) : Prop where
  larger : before.Extends after
  kept : (∀ key, owner = some key → before.classes.byName[name]? = some key) →
    before.Enlisted kind → after.Enlisted kind

theorem Enlists.at {kind : EntityKind} {before after : Graph} (enlists : Enlists kind before after)
    (name : String) (owner : Option ClassKey) : EnlistsAt kind name owner before after :=
  ⟨enlists.larger, fun _ => enlists.kept⟩

theorem Idle.enlists {kind : EntityKind} {before after : Graph} (idle : Idle kind before after) :
    Enlists kind before after := by
  refine ⟨idle.larger, fun enlisted => ⟨?_, ?_⟩⟩
  · rw [idle.lists, Registry.roster_of_badges idle.badges]
    exact enlisted.listed
  · intro entity listed owner own
    have badge := Array.mem_map_of_mem (f := Entity.badge kind) listed
    rw [idle.badges] at badge
    obtain ⟨old, listedBefore, same⟩ := Array.mem_map.mp badge
    have owners : Entity.owner kind old = Entity.owner kind entity := congrArg Prod.fst same
    have names : Entity.ownerName kind old = Entity.ownerName kind entity :=
      congrArg (·.2.1) same
    rw [← names]
    exact (idle.larger .classes).names (enlisted.owned old listedBefore owner (owners.trans own))

/-- The registry of another sort does not matter. -/
theorem lists_set {kind other : EntityKind} (notClass : .classes ≠ other) (graph : Graph)
    (registry : Registry other (Entity other)) :
    (graph.set other registry).lists kind = graph.lists kind := by
  cases other with
  | classes => exact absurd rfl notClass
  | methods | fields | strings => rfl

end Graph

namespace Builder

open DexAtlas.Graph (Idle Enlists EnlistsAt)

variable {α : Type} {kind : EntityKind}

theorem chained_idle : Chained (Idle kind) where
  refl graph := ⟨.refl graph, rfl, rfl⟩
  trans first second := ⟨first.larger.trans second.larger, second.lists.trans first.lists,
    second.badges.trans first.badges⟩

theorem chained_enlists : Chained (Enlists kind) where
  refl graph := ⟨.refl graph, id⟩
  trans first second := ⟨first.larger.trans second.larger, fun enlisted =>
    second.kept (first.kept enlisted)⟩

theorem chained_enlistsAt {name : String} {owner : Option ClassKey} :
    Chained (EnlistsAt kind name owner) where
  refl graph := ⟨.refl graph, fun _ => id⟩
  trans first second := by
    refine ⟨first.larger.trans second.larger, fun known enlisted => ?_⟩
    have stillKnown := fun key own => (first.larger .classes).names (known key own)
    exact second.kept stillKnown (first.kept known enlisted)

/-! ### Idle steps -/

theorem idle_elsewhere {other : EntityKind} (notClass : .classes ≠ other) (apart : kind ≠ other)
    {step : Registry other (Entity other) → Except Cause α × Registry other (Entity other)}
    (grows : ∀ registry : Registry other (Entity other), registry.Extends (step registry).2) :
    Follows (Idle kind) (onRegistry other step) := by
  apply follows_onRegistry
  intro graph
  constructor
  · exact Graph.extends_set _ _ _ (grows _)
  · exact Graph.lists_set notClass graph _
  · rw [Graph.registry_set_of_ne _ apart]

theorem idle_bind {other : EntityKind} (record : Record) (key : Key other) :
    Follows (Idle kind) (bind other record key) := by
  apply follows_onRegistry
  intro graph
  constructor
  · exact Graph.extends_set _ _ _ (.bind _ _ _)
  · cases other with
    | classes => exact Registry.view_bind ..
    | methods | fields | strings => rfl
  · by_cases same : kind = other
    · subst same
      rw [Graph.registry_set, Registry.arena_bind]
    · rw [Graph.registry_set_of_ne _ same]

theorem idle_internClass (notClass : kind ≠ .classes) {name : String}
    {make : ClassKey → ClassEntity} (blank : ∀ key, (make key).members kind = []) :
    Follows (Idle kind) (intern .classes name make) := by
  apply follows_onRegistry
  intro graph
  constructor
  · exact Graph.extends_set _ _ _ (.intern _ _ _)
  · exact Registry.view_intern graph.classes name make _ _ blank
  · rw [Graph.registry_set_of_ne _ notClass]

theorem idle_updateClass (notClass : kind ≠ .classes) {what : String} {key : ClassKey}
    {change : ClassEntity → ClassEntity} (keeps : ∀ c, (change c).members kind = c.members kind) :
    Follows (Idle kind) (update .classes what key change) := by
  intro state _ after ran
  rw [(update_ok ran).2]
  constructor
  · exact Graph.extends_set _ _ _ (.modify _ _ _)
  · exact Registry.view_modify state.graph.classes key change _ _ keeps
  · rw [Graph.registry_set_of_ne _ notClass]

/-- A note in the lists of uses. -/
theorem idle_note (notClass : kind ≠ .classes) {other : EntityKind} {what : String}
    {key : Key other} {change : Entity other → Entity other}
    (hidden : ∀ entity, Entity.withoutUses other (change entity) =
      Entity.withoutUses other entity) :
    Follows (Idle kind) (update other what key change) := by
  by_cases classes : other = .classes
  · subst classes
    apply idle_updateClass notClass
    intro c
    rw [← ClassEntity.members_withoutUses, hidden, ClassEntity.members_withoutUses]
  · intro state _ after ran
    rw [(update_ok ran).2]
    constructor
    · exact Graph.extends_set _ _ _ (.modify _ _ _)
    · exact Graph.lists_set (Ne.symm classes) _ _
    · by_cases same : kind = other
      · subst same
        rw [Graph.registry_set]
        apply Registry.map_modify_arena
        intro entity
        rw [← Entity.badge_withoutUses, hidden, Entity.badge_withoutUses]
      · rw [Graph.registry_set_of_ne _ same]

end Builder

/-! ### Making a member -/

namespace Builder

open DexAtlas.Graph (Idle Enlists EnlistsAt)

variable {kind : MemberKind}

theorem idle_enrol {other : MemberKind} (apart : kind ≠ other) (created : Bool)
    (owner : Option ClassKey) (key : Key other.sort) :
    Follows (Idle kind.sort) (enrol created owner (other.addTo · key)) := by
  unfold enrol
  split
  · exact idle_updateClass kind.sort_ne_classes (MemberKind.members_addTo_of_ne apart key)
  · exact .pure chained_idle _

/-- The list of the class is one longer if the member is new and has a class. -/
theorem enrol_ok {created : Bool} {owner : Option ClassKey} {key : Key kind.sort}
    {state after : Build} (ran : enrol created owner (kind.addTo · key) state = .ok () after) :
    state.graph.Extends after.graph ∧
      after.graph.lists kind.sort = enter created owner key (state.graph.lists kind.sort) ∧
      after.graph.registry kind.sort = state.graph.registry kind.sort := by
  have unchanged (ran : (pure () : Builder Unit) state = .ok () after) :
      state.graph.Extends after.graph ∧
        after.graph.lists kind.sort = state.graph.lists kind.sort ∧
        after.graph.registry kind.sort = state.graph.registry kind.sort := by
    obtain ⟨-, rfl⟩ := EStateM.Result.ok.inj ran
    exact ⟨.refl _, rfl, rfl⟩
  cases created with
  | false => exact unchanged ran
  | true =>
    cases owner with
    | none => exact unchanged ran
    | some owner =>
      replace ran : update .classes _ _ _ state = _ := ran
      obtain ⟨present, changed⟩ := update_ok ran
      rw [changed]
      refine ⟨Graph.extends_set _ _ _ (.modify _ _ _), ?_,
        Graph.registry_set_of_ne _ kind.sort_ne_classes _⟩
      exact Registry.view_push state.graph.classes present (kind.members_addTo key)

section

variable {name ownerName : String} {owner : Option ClassKey} {state s₁ s₂ after : Build}

/-- A list and the roster of the same class have the same new member put to their ends. -/
theorem listed_made {make : Key kind.sort → Entity kind.sort} {key : Key kind.sort} {created : Bool}
    (made : ∀ key, Entity.badge kind.sort (make key) = (owner, ownerName, key))
    (interned : intern kind.sort name make state = .ok (key, created) s₁)
    (between : Idle kind.sort s₁.graph s₂.graph)
    (enrolled : enrol created owner (kind.addTo · key) s₂ = .ok () after)
    (listed : state.graph.lists kind.sort = (state.graph.registry kind.sort).roster) :
    after.graph.lists kind.sort = (after.graph.registry kind.sort).roster := by
  obtain ⟨returned, changed⟩ := intern_ok interned
  obtain ⟨-, lists, registry⟩ := enrol_ok enrolled
  have roster : (s₁.graph.registry kind.sort).roster =
      enter created owner key (state.graph.registry kind.sort).roster := by
    rw [changed, Graph.registry_set, Registry.roster_intern
      (fun key => congrArg Prod.fst (made key)) (fun key => congrArg (·.2.2) (made key)),
      ← returned]
  have listsBefore : s₁.graph.lists kind.sort = state.graph.lists kind.sort := by
    rw [changed]
    exact Graph.lists_set kind.sort_ne_classes.symm _ _
  rw [lists, between.lists, listsBefore, listed, registry, Registry.roster_of_badges between.badges,
    roster]

/-- What belongs to a class after a member is made was there before or is that member. -/
theorem owned_made {make : Key kind.sort → Entity kind.sort} {key : Key kind.sort} {created : Bool}
    (made : ∀ key, Entity.badge kind.sort (make key) = (owner, ownerName, key))
    (interned : intern kind.sort name make state = .ok (key, created) s₁)
    (between : Idle kind.sort s₁.graph s₂.graph)
    {entity : Entity kind.sort} (listed : entity ∈ (s₂.graph.registry kind.sort).arena)
    {o : ClassKey} (own : Entity.owner kind.sort entity = some o) :
    (∃ old ∈ (state.graph.registry kind.sort).arena, Entity.owner kind.sort old = some o ∧
      Entity.ownerName kind.sort old = Entity.ownerName kind.sort entity) ∨
    owner = some o ∧ ownerName = Entity.ownerName kind.sort entity := by
  -- the badges are those right after the interning, whatever was noted since
  have badge := Array.mem_map_of_mem (f := Entity.badge kind.sort) listed
  rw [between.badges, (intern_ok interned).2, Graph.registry_set] at badge
  obtain ⟨old, listedBefore, equal⟩ := Array.mem_map.mp badge
  have owners : Entity.owner kind.sort old = some o := (congrArg Prod.fst equal).trans own
  have names : Entity.ownerName kind.sort old = Entity.ownerName kind.sort entity :=
    congrArg (·.2.1) equal
  rcases Registry.mem_arena_intern listedBefore with before | ⟨place, rfl⟩
  · exact .inl ⟨old, before, owners, names⟩
  · have ownKey : Entity.owner kind.sort (make place) = owner := congrArg Prod.fst (made place)
    have ownName : Entity.ownerName kind.sort (make place) = ownerName :=
      congrArg (·.2.1) (made place)
    exact .inr ⟨ownKey.symm.trans owners, ownName.symm.trans names⟩

/-- A member of any kind is made and then listed. The class that it knows is the one that its name
for it leads to. -/
theorem enlists_made {other : MemberKind} {make : Key other.sort → Entity other.sort}
    {key : Key other.sort} {created : Bool}
    (made : ∀ key, Entity.badge other.sort (make key) = (owner, ownerName, key))
    (interned : intern other.sort name make state = .ok (key, created) s₁)
    (between : Idle kind.sort s₁.graph s₂.graph)
    (enrolled : enrol created owner (other.addTo · key) s₂ = .ok () after) :
    EnlistsAt kind.sort ownerName owner state.graph after.graph := by
  by_cases same : kind = other
  · subst same
    obtain ⟨larger, -, registry⟩ := enrol_ok enrolled
    have grown : state.graph.Extends s₁.graph := by
      rw [(intern_ok interned).2]
      exact Graph.extends_set _ _ _ (.intern _ _ _)
    have grownOn := grown.trans (between.larger.trans larger)
    refine ⟨grownOn, fun known enlisted => ⟨?_, ?_⟩⟩
    · exact listed_made made interned between enrolled enlisted.listed
    · intro entity listed o own
      rw [registry] at listed
      apply (grownOn .classes).names
      rcases owned_made made interned between listed own with
        ⟨old, before, owners, names⟩ | ⟨owners, names⟩
      · rw [← names]
        exact enlisted.owned old before o owners
      · rw [← names]
        exact known o owners
  · -- members of the other kind are in other lists
    have first : Idle kind.sort state.graph s₁.graph :=
      idle_elsewhere other.sort_ne_classes.symm (MemberKind.sort_ne same)
        (fun registry => .intern registry _ _) interned
    have last : Idle kind.sort s₂.graph after.graph := idle_enrol same _ _ _ enrolled
    exact (chained_idle.trans first (chained_idle.trans between last)).enlists.at _ _

end

/-! ### The first pass -/

theorem enlistsAt_declareMember (other : MemberKind) {image : Image} (owner : ClassKey) {id : Nat}
    (access : Nat) (external : Bool) {member : Pools.Member}
    (found : other.find? image.container.pools id = some member) :
    Follows (EnlistsAt kind.sort member.owner (some owner))
      (declareMember other image owner id access external) := by
  intro state _ after ran
  unfold declareMember at ran
  rw [found] at ran
  obtain ⟨⟨key, created⟩, s₁, interned, ran⟩ := bind_ok ran
  obtain ⟨_, s₂, bound, ran⟩ := bind_ok ran
  have made := other.badge_make (some owner) member access external (some ⟨image.index, id⟩)
  have between : Idle kind.sort s₁.graph s₂.graph := idle_bind _ key bound
  cases created with
  | true => exact enlists_made made interned between ran
  | false =>
    have listed : EnlistsAt kind.sort member.owner (some owner) state.graph s₂.graph :=
      enlists_made made interned between rfl
    have noted : Idle kind.sort s₂.graph after.graph :=
      follows_noteRedeclaration chained_idle member other ran
    exact chained_enlistsAt.trans listed (noted.enlists.at _ _)

end Builder

namespace Container.OwnMembers

variable {pools : Pools} {classDef : ClassDef} {name : String} {member : Pools.Member}

/-- The pools spell the class of a declared member like the class that declares it. -/
theorem owner_eq (own : OwnMembers pools classDef) {kind : MemberKind} {id : Nat}
    (listed : id ∈ classDef.memberIds kind.sort)
    (named : pools.typeDescriptor? classDef.type = some name)
    (found : kind.find? pools id = some member) : member.owner = name := by
  cases kind with
  | field =>
    obtain ⟨field, among, rfl⟩ := List.mem_map.mp listed
    obtain ⟨item, there, same⟩ := Option.map_eq_some_iff.mp (own.fields field among)
    simp only [MemberKind.find?, Pools.field?, there, same, named, Option.bind_eq_bind,
      Option.bind_some, Option.bind_eq_some_iff] at found
    obtain ⟨_, -, _, -, made⟩ := found
    rw [← Option.some.inj made]
  | method =>
    obtain ⟨method, among, rfl⟩ := List.mem_map.mp listed
    obtain ⟨item, there, same⟩ := Option.map_eq_some_iff.mp (own.methods method among)
    simp only [MemberKind.find?, Pools.method?, there, same, named, Option.bind_eq_bind,
      Option.bind_some, Option.bind_eq_some_iff] at found
    obtain ⟨_, -, _, -, made⟩ := found
    rw [← Option.some.inj made]

end Container.OwnMembers

namespace Builder

open DexAtlas.Graph (Idle Enlists EnlistsAt)

variable {kind : MemberKind}

theorem members_define (c : ClassEntity) (origin : Origin) (access : Nat)
    (superclass : Option String) (interfaces : List String) (kind : EntityKind) :
    (c.define origin access superclass interfaces).members kind = c.members kind := by
  unfold ClassEntity.define
  split <;> cases kind <;> rfl

/-- A definition declares members of its own class. -/
theorem enlistsAt_listed {image : Image} (sound : image.Sound) {classDef : ClassDef}
    (defined : classDef ∈ image.container.classDefs) {name : String}
    (named : image.container.className? classDef = some name) (owner : ClassKey)
    (other : MemberKind) {id : Nat} (listed : id ∈ classDef.memberIds other.sort) (access : Nat)
    (external : Bool) :
    Follows (EnlistsAt kind.sort name (some owner))
      (declareMember other image owner id access external) := by
  obtain ⟨member, found⟩ := sound.container.find?_of_listed defined listed
  have own := sound.container.classDefs.ownMembers classDef defined
  rw [← own.owner_eq listed named found]
  exact enlistsAt_declareMember other owner access external found

theorem enlists_declareClass {image : Image} (sound : image.Sound) (position : Nat)
    {classDef : ClassDef} (defined : classDef ∈ image.container.classDefs) :
    Follows (Enlists kind.sort) (declareClass image position classDef) := by
  have notClass := kind.sort_ne_classes
  intro state _ after ran
  obtain ⟨name, key, created, s₁, s₂, s₃, named, interned, bound, described, members⟩ :=
    declareClass_ok ran
  have first : Idle kind.sort state.graph s₁.graph :=
    idle_internClass notClass (fun _ => by cases kind <;> rfl) interned
  have known : s₁.graph.classes.byName[name]? = some key := known_of_intern interned
  have second : Idle kind.sort s₁.graph s₂.graph := idle_bind _ _ bound
  have third : Idle kind.sort s₂.graph s₃.graph :=
    idle_updateClass notClass (fun c => members_define c _ _ _ _ kind.sort) described
  -- only the members declared from here on are listed, with a key that their class has by now
  have rest : EnlistsAt kind.sort name (some key) s₃.graph after.graph := by
    apply members _ chained_enlistsAt
    · intro field listed
      exact enlistsAt_listed sound defined named key .field (List.mem_map_of_mem listed) _ _
    · intro method listed
      exact enlistsAt_listed sound defined named key .method (List.mem_map_of_mem listed) _ _
  have begun := chained_idle.trans first (chained_idle.trans second third)
  refine ⟨begun.larger.trans rest.larger, fun enlisted => ?_⟩
  refine rest.kept ?_ (begun.enlists.kept enlisted)
  rintro _ ⟨rfl⟩
  exact (third.larger .classes).names ((second.larger .classes).names known)

theorem enlists_declared {images : List Image} (numbered : Image.Numbered images)
    (cancelled : Bool) :
    Follows (Enlists kind.sort)
      (images.forM fun image => within (.image image.name) (declareImage cancelled image)) := by
  apply Follows.forM chained_enlists
  intro image listed
  apply Follows.within
  apply follows_declareImage chained_enlists
  intro position classDef defined
  exact enlists_declareClass (numbered.sound listed) position defined

theorem enlists_linkClasses : Follows (Enlists kind.sort) linkClasses := by
  apply follows_onRegistry
  intro graph
  apply Idle.enlists
  constructor
  · exact Graph.extends_set _ _ _ (.map _ _)
  · exact Registry.view_map graph.classes _ _ _ fun c => by cases kind <;> rfl
  · rw [Graph.registry_set_of_ne _ kind.sort_ne_classes]

/-! ### The search of code -/

theorem idle_classFor (descriptor : String) : Follows (Idle kind.sort) (classFor descriptor) :=
  .bind chained_idle (idle_internClass kind.sort_ne_classes fun _ => by cases kind <;> rfl)
    fun _ => .pure chained_idle _

theorem idle_ownerFor (descriptor : String) : Follows (Idle kind.sort) (ownerFor descriptor) := by
  unfold ownerFor
  split
  · exact .bind chained_idle (idle_classFor descriptor) fun _ => .pure chained_idle _
  · exact .pure chained_idle _

theorem idle_addUse (site : Site) (target : Target) :
    Follows (Idle kind.sort) (addUse site target) := by
  unfold addUse updateMethod
  exact idle_note kind.sort_ne_classes fun _ => rfl

theorem idle_addEdge (source target : Option ClassKey) (use : ClassUse) (site : Site) :
    Follows (Idle kind.sort) (addEdge source target use site) := by
  unfold addEdge
  split
  · exact .bind chained_idle (idle_note kind.sort_ne_classes fun _ => rfl)
      fun _ => idle_note kind.sort_ne_classes fun _ => rfl
  · exact .pure chained_idle _

/-- A member that code refers to. -/
theorem enlists_meetMember (other : MemberKind) (record : Record) (member : Pools.Member) :
    Follows (Enlists kind.sort) (meetMember other record member) := by
  intro state _ after ran
  obtain ⟨owner, s₁, found, ran⟩ := bind_ok ran
  obtain ⟨⟨key, created⟩, s₂, interned, ran⟩ := bind_ok ran
  obtain ⟨_, s₃, enrolled, ran⟩ := bind_ok ran
  have first : Idle kind.sort state.graph s₁.graph := idle_ownerFor member.owner found
  have made := other.badge_make owner member 0 true none
  have listed : EnlistsAt kind.sort member.owner owner s₁.graph s₃.graph :=
    enlists_made made interned (chained_idle.refl _) enrolled
  have last : Idle kind.sort s₃.graph after.graph :=
    Follows.bind chained_idle (idle_bind record key) (fun _ => .pure chained_idle _) ran
  have known : ∀ o, owner = some o → s₁.graph.classes.byName[member.owner]? = some o := by
    intro o own
    have leads := ownerFor_ok found
    rw [own, Descriptor.ownClass?] at leads
    split at leads
    · cases leads with
      | some known => exact known
    · cases leads
  have enlists : Enlists kind.sort s₁.graph s₃.graph := ⟨listed.larger, listed.kept known⟩
  exact chained_enlists.trans first.enlists (chained_enlists.trans enlists last.enlists)

/-- What is noted of a use changes no list of members. -/
theorem enlists_noted {keepUses : Bool} {step : Builder Unit}
    (idle : Follows (Idle kind.sort) step) :
    Follows (Enlists kind.sort) (if keepUses then step else pure ()) :=
  .optional chained_enlists fun _ _ _ ran => (idle ran).enlists

theorem enlists_useMember (other : MemberKind) (keepUses : Bool) (scene : Scene) (index : Nat)
    (member : Pools.Member) :
    Follows (Enlists kind.sort) (useMember other keepUses scene index member) := by
  apply Follows.bind chained_enlists (enlists_meetMember other _ member)
  rintro ⟨owner, key⟩
  apply enlists_noted
  apply Follows.bind chained_idle
  · exact idle_note kind.sort_ne_classes (other.withoutUses_addSite _ _)
  · exact fun _ => .bind chained_idle (idle_addUse _ _) fun _ => idle_addEdge _ _ _ _

theorem idle_meetString (record : Record) (value : String) :
    Follows (Idle kind.sort) (meetString record value) := by
  apply Follows.bind chained_idle
  · apply idle_elsewhere (by decide)
    · cases kind <;> decide
    · exact fun registry => .intern registry _ _
  · exact fun _ => .bind chained_idle (idle_bind _ _) fun _ => .pure chained_idle _

theorem idle_meetClass (record : Record) (descriptor element : String) :
    Follows (Idle kind.sort) (meetClass record descriptor element) := by
  apply Follows.bind chained_idle (idle_classFor element)
  intro key
  split
  · exact .bind chained_idle (idle_bind _ _) fun _ => .pure chained_idle _
  · exact .pure chained_idle _

/-- Only the use of a member can lengthen a list. -/
theorem enlists_use (keepUses : Bool) (scene : Scene) (reference : Reference) :
    Follows (Enlists kind.sort) (use keepUses scene reference) := by
  cases reference with
  | string index value =>
    apply Follows.bind chained_enlists fun _ _ _ ran => (idle_meetString _ value ran).enlists
    intro key
    apply enlists_noted
    apply Follows.bind chained_idle
    · exact idle_note kind.sort_ne_classes fun _ => rfl
    · exact fun _ => idle_addUse _ _
  | type index descriptor =>
    simp only [use, useType]
    split
    next way element _ =>
      apply Follows.bind chained_enlists fun _ _ _ ran => (idle_meetClass _ _ element ran).enlists
      intro key
      apply enlists_noted
      exact .bind chained_idle (idle_addUse _ _) fun _ => idle_addEdge _ _ _ _
    next => exact .pure chained_enlists _
  | field index member => exact enlists_useMember .field keepUses scene index member
  | method index member => exact enlists_useMember .method keepUses scene index member
  | proto | callSite | methodHandle => exact .pure chained_enlists _

theorem enlists_scanMethod (keepUses : Bool) (image : Image) (method : EncodedMethod) :
    Follows (Enlists kind.sort) (scanMethod keepUses image method) := by
  intro state _ after ran
  cases scanMethod_ok ran with
  | passed unchanged =>
    rw [unchanged]
    exact chained_enlists.refl _
  | searched key caller body _ _ _ _ ran =>
    refine Follows.forM chained_enlists (fun insn _ => ?_) ran
    exact .forM chained_enlists fun reference _ => enlists_use keepUses _ reference

theorem enlists_package {images : List Image} (numbered : Image.Numbered images)
    (cancelled keepUses : Bool) :
    Follows (Enlists kind.sort) (package cancelled keepUses images) := by
  apply Follows.bind chained_enlists (enlists_declared numbered cancelled)
  intro _
  apply Follows.bind chained_enlists enlists_linkClasses
  intro _
  apply Follows.forM chained_enlists
  intro image _
  apply Follows.within
  apply follows_scanImage chained_enlists
  exact enlists_scanMethod keepUses image

end Builder

/-! ### Declared members -/

/-- A member that stems from a declaration: it is located there, and has a class that the pools
spell. -/
def Entity.Stems (images : List Image) (kind : MemberKind) (entity : Entity kind.sort) : Prop :=
  ∃ image ∈ images, ∃ id member, kind.find? image.container.pools id = some member ∧
    location kind.sort entity = some ⟨image.index, id⟩ ∧
    ownerName kind.sort entity = member.owner ∧ (owner kind.sort entity).isSome = true ∧
    (kind = .field → external kind.sort entity = false)

theorem Entity.stems_of_bare {images : List Image} {kind : MemberKind} {a b : Entity kind.sort}
    (same : bare kind.sort a = bare kind.sort b) (stems : Stems images kind b) :
    Stems images kind a := by
  have read (entity : Entity kind.sort) :
      location kind.sort (bare kind.sort entity) = location kind.sort entity ∧
      ownerName kind.sort (bare kind.sort entity) = ownerName kind.sort entity ∧
      owner kind.sort (bare kind.sort entity) = owner kind.sort entity ∧
      external kind.sort (bare kind.sort entity) = external kind.sort entity := by
    cases kind <;> exact ⟨rfl, rfl, rfl, rfl⟩
  obtain ⟨location, ownerName, owner, external⟩ := read a
  rw [same] at location ownerName owner external
  obtain ⟨locationToo, ownerNameToo, ownerToo, externalToo⟩ := read b
  obtain ⟨image, inside, id, member, found, located, spelled, owned, plain⟩ := stems
  refine ⟨image, inside, id, member, found, ?_, ?_, ?_, ?_⟩
  · rw [← location, locationToo, located]
  · rw [← ownerName, ownerNameToo, spelled]
  · rw [← owner, ownerToo, owned]
  · rw [← external, externalToo]
    exact plain

/-- All members stem from declarations. -/
def Graph.Stem (images : List Image) (kind : MemberKind) (graph : Graph) : Prop :=
  ∀ entity ∈ (graph.registry kind.sort).arena, Entity.Stems images kind entity

namespace Builder

variable {kind : MemberKind} {images : List Image}

/-- Steps that keep all members to declarations. -/
abbrev Stemming (images : List Image) (kind : MemberKind) (before after : Graph) : Prop :=
  before.Stem images kind → after.Stem images kind

theorem chained_stemming : Chained (Stemming images kind) where
  refl _ := id
  trans first second := fun stem => second (first stem)

theorem stemming_elsewhere {α : Type} {other : EntityKind} (apart : kind.sort ≠ other)
    (step : Registry other (Entity other) → Except Cause α × Registry other (Entity other)) :
    Follows (Stemming images kind) (onRegistry other step) := by
  apply follows_onRegistry
  intro graph stem
  rwa [Graph.Stem, Graph.registry_set_of_ne _ apart]

theorem stemming_bind {other : EntityKind} (record : Record) (key : Key other) :
    Follows (Stemming images kind) (bind other record key) := by
  by_cases same : kind.sort = other
  · subst same
    apply follows_onRegistry
    intro graph stem
    rwa [Graph.Stem, Graph.registry_set, Registry.arena_bind]
  · exact stemming_elsewhere same _

theorem stemming_intern {other : MemberKind} {name : String}
    {make : Key other.sort → Entity other.sort}
    (stems : ∀ key, Entity.Stems images other (make key)) :
    Follows (Stemming images kind) (intern other.sort name make) := by
  by_cases same : kind = other
  · subst same
    apply follows_onRegistry
    intro graph stem entity listed
    rw [Graph.registry_set] at listed
    rcases Registry.mem_arena_intern listed with before | ⟨key, rfl⟩
    · exact stem entity before
    · exact stems key
  · exact stemming_elsewhere (MemberKind.sort_ne same) _

theorem stemming_updateClass (key : ClassKey) (change : ClassEntity → ClassEntity) :
    Follows (Stemming images kind) (updateClass key change) := by
  unfold updateClass update
  exact stemming_elsewhere kind.sort_ne_classes _

/-- A declared field is never external. -/
theorem stemming_declareMember (other : MemberKind) {image : Image} (inside : image ∈ images)
    (owner : ClassKey) (id access : Nat) {external : Bool}
    (plain : other = .field → external = false) :
    Follows (Stemming images kind) (declareMember other image owner id access external) := by
  apply follows_declareMember chained_stemming
  · intro member found
    apply stemming_intern
    intro key
    have badge := other.badge_make (some owner) member access external (some ⟨image.index, id⟩) key
    have ownName := congrArg (·.2.1) badge
    refine ⟨image, inside, id, member, found, other.location_make .., ownName, ?_, ?_⟩
    · rw [other.owner_make]
      rfl
    · rintro rfl
      exact plain rfl
  · exact fun record key => stemming_bind record key
  · exact fun _ => stemming_updateClass _ _

theorem stemming_declared (cancelled : Bool) (images : List Image) :
    Follows (Stemming images kind)
      (images.forM fun image => within (.image image.name) (declareImage cancelled image)) := by
  apply Follows.forM chained_stemming
  intro image listed
  apply Follows.within
  apply follows_declareImage chained_stemming
  intro position classDef _
  apply follows_declareClass chained_stemming
  · exact fun _ => stemming_elsewhere kind.sort_ne_classes _
  · exact fun record key => stemming_bind record key
  · exact fun key _ _ _ _ => stemming_updateClass key _
  · exact fun owner _ _ => stemming_declareMember .field listed owner _ _ fun _ => rfl
  · exact fun owner _ _ => stemming_declareMember .method listed owner _ _ fun same => by cases same

/-- What code is searched for was declared before, and what the search adds is only used. -/
theorem package_stems (kind : MemberKind) {cancelled keepUses : Bool} {state : Build}
    (ran : package cancelled keepUses images {} = .ok () state) :
    ∃ middle : Graph, middle.Stem images kind ∧
      (middle.registry kind.sort).Meets (state.graph.registry kind.sort) := by
  obtain ⟨_, s₁, declared, ran⟩ := bind_ok ran
  obtain ⟨_, s₂, linked, scanned⟩ := bind_ok ran
  have start : ({} : Graph).Stem images kind := by
    intro entity listed
    cases kind <;> exact absurd listed (Array.not_mem_empty _)
  have stem := stemming_declared cancelled images declared start
  refine ⟨s₂.graph, stemming_elsewhere kind.sort_ne_classes _ linked stem, ?_⟩
  exact follows_scanned searchable_meets cancelled keepUses images scanned kind.sort

end Builder

/-- A member that is only used. -/
theorem Entity.outside_member {kind : MemberKind} {entity : Entity kind.sort}
    (outside : Outside kind.sort entity) :
    location kind.sort entity = none ∧ external kind.sort entity = true := by
  cases kind <;> exact ⟨outside.2, outside.1⟩

/-- In a graph that was built a member stems from a declaration, or it is only used. -/
theorem Builder.package_members (kind : MemberKind) {images : List Image}
    {cancelled keepUses : Bool} {state : Build}
    (ran : package cancelled keepUses images {} = .ok () state) :
    ∃ count, ∀ (place : Nat) (m : Entity kind.sort),
      (state.graph.registry kind.sort).arena[place]? = some m →
        place < count ∧ Entity.Stems images kind m ∨
        count ≤ place ∧ Entity.location kind.sort m = none ∧ Entity.external kind.sort m = true := by
  obtain ⟨middle, stem, searched⟩ := package_stems kind ran
  refine ⟨(middle.registry kind.sort).arena.size, fun place m present => ?_⟩
  cases there : (middle.registry kind.sort).arena[place]? with
  | some old =>
    left
    obtain ⟨inside, -⟩ := Array.getElem?_eq_some_iff.mp there
    obtain ⟨same, stillThere, bare⟩ := searched.kept there
    obtain rfl := Option.some.inj (present.symm.trans stillThere)
    exact ⟨inside, Entity.stems_of_bare bare (stem old (Array.mem_of_getElem? there))⟩
  | none =>
    right
    obtain ⟨-, outside⟩ := searched.fresh there present
    exact ⟨Array.getElem?_eq_none_iff.mp there, Entity.outside_member outside⟩

/-! ### Whole graphs -/

/-- What is known of the members of a sort: how classes list them, and which of them are declared. -/
structure Graph.Membership (kind : EntityKind) (graph : Graph) : Prop where
  /-- A class lists the members that belong to it in the order in which they were made. -/
  listed : ∀ key c, graph.classes.get? key = some c →
    c.members kind = (graph.registry kind).roster key
  owned : ∀ m ∈ (graph.registry kind).arena, ∀ owner, Entity.owner kind m = some owner →
    graph.classes.lookup? (.name (Entity.ownerName kind m)) = some owner
  /-- Up to some key all members are declared, and from there on all are only used. -/
  declaredFirst : ∃ count, ∀ key m, (graph.registry kind).get? key = some m →
    (key.index < count ↔ (Entity.location kind m).isSome = true) ∧
    (count ≤ key.index → Entity.location kind m = none ∧ Entity.external kind m = true)

/-- Each member is listed once, by the class that it belongs to and is named after, and lists are in
the order of keys. -/
structure Graph.Partitions (kind : EntityKind) (graph : Graph) : Prop where
  members : ∀ key c, graph.classes.get? key = some c → ∀ k, k ∈ c.members kind ↔
    ∃ m, (graph.registry kind).get? k = some m ∧ Entity.owner kind m = some key
  once : ∀ key c, graph.classes.get? key = some c → ∀ k ∈ c.members kind,
    (c.members kind).count k = 1
  increasing : ∀ key c, graph.classes.get? key = some c →
    (c.members kind).Pairwise fun a b => a.index < b.index
  named : ∀ key c, graph.classes.get? key = some c → ∀ k ∈ c.members kind, ∀ m,
    (graph.registry kind).get? k = some m → Entity.ownerName kind m = c.name
  declaredFirst : ∀ key c, graph.classes.get? key = some c →
    (c.members kind).Pairwise fun a b => ∀ m n, (graph.registry kind).get? a = some m →
      (graph.registry kind).get? b = some n → (Entity.location kind n).isSome = true →
        (Entity.location kind m).isSome = true

namespace Graph

variable {kind : EntityKind} {graph : Graph} {images : List Image}

theorem membership_of_build (kind : MemberKind) (numbered : Image.Numbered images)
    {keepUses : Bool} (built : (build false keepUses images).outcome = .ok graph) :
    graph.Membership kind.sort := by
  obtain ⟨state, ran, rfl⟩ := build_ok built
  have start : ({} : Graph).Enlisted kind.sort := by
    constructor
    · cases kind <;> rfl
    · intro entity listed
      cases kind <;> exact absurd listed (Array.not_mem_empty _)
  have enlisted := (Builder.enlists_package numbered false keepUses ran).kept start
  obtain ⟨count, members⟩ := Builder.package_members kind ran
  constructor
  · intro key c present
    rw [← enlisted.listed, lists, Registry.view_of_get? present]
  · exact enlisted.owned
  · refine ⟨count, fun key m present => ?_⟩
    rcases members key.index m present with ⟨inside, stems⟩ | ⟨beyond, nowhere, external⟩
    · obtain ⟨_, _, _, _, _, located, -⟩ := stems
      rw [located]
      exact ⟨by simp [inside], fun beyond => absurd inside (Nat.not_lt.mpr beyond)⟩
    · rw [nowhere]
      exact ⟨by simpa using beyond, fun _ => ⟨rfl, external⟩⟩

section

variable (membership : graph.Membership kind) (formed : graph.WellFormed images)
  (members : (graph.registry kind).size < 2 ^ 32)
include membership formed members

/-- A class lists the keys of the members that belong to it. -/
theorem Membership.mem_iff {key : ClassKey} {c : ClassEntity}
    (present : graph.classes.get? key = some c) (k : Key kind) :
    k ∈ c.members kind ↔
      ∃ m, (graph.registry kind).get? k = some m ∧ Entity.owner kind m = some key := by
  have coherent := formed.coherent kind
  rw [membership.listed key c present]
  simp only [Registry.roster, List.mem_map, List.mem_filter, Array.mem_toList_iff,
    decide_eq_true_eq]
  constructor
  · rintro ⟨m, ⟨there, own⟩, rfl⟩
    exact ⟨m, coherent.get?_key members there, own⟩
  · rintro ⟨m, there, own⟩
    have keyed := (coherent.entities there).1
    rw [Key.ofIndex_index] at keyed
    exact ⟨m, ⟨Array.mem_of_getElem? there, own⟩, keyed⟩

theorem Membership.increasing {key : ClassKey} {c : ClassEntity}
    (present : graph.classes.get? key = some c) :
    (c.members kind).Pairwise fun a b => a.index < b.index := by
  rw [membership.listed key c present, Registry.roster, List.pairwise_map]
  exact ((formed.coherent kind).keys_increasing members).sublist List.filter_sublist

end

/-- While keys suffice, each key stands for one member and each name for one class. -/
theorem Membership.partitions (membership : graph.Membership kind)
    (formed : graph.WellFormed images) (classes : graph.classes.size < 2 ^ 32)
    (members : (graph.registry kind).size < 2 ^ 32) : graph.Partitions kind := by
  constructor
  · exact fun _ _ present => membership.mem_iff formed members present
  · intro key c present k listed
    have distinct : (c.members kind).Nodup :=
      (membership.increasing formed members present).imp fun before same => by simp [same] at before
    exact List.count_eq_one_of_mem distinct listed
  · exact fun _ _ present => membership.increasing formed members present
  · intro key c present k listed m there
    obtain ⟨other, alsoThere, own⟩ := (membership.mem_iff formed members present k).mp listed
    obtain rfl := Option.some.inj (there.symm.trans alsoThere)
    have leads := membership.owned m (Array.mem_of_getElem? there) key own
    obtain ⟨owner, found, named⟩ :=
      ((formed.coherent .classes).lookup?_iff classes).mp leads
    obtain rfl := Option.some.inj (present.symm.trans found)
    exact named.symm
  · -- keys grow along a list, and the declared ones are those below a bound
    intro key c present
    obtain ⟨count, declared⟩ := membership.declaredFirst
    apply (membership.increasing formed members present).imp
    intro a b before m n first second located
    apply (declared a m first).1.mp
    exact Nat.lt_trans before ((declared b n second).1.mpr located)

/-- Methods and fields are listed by their classes: each in the order in which it was made and by the
class that its own name for it leads to, with all declared members before those that are only used.
While keys suffice, each is listed exactly once. -/
theorem members_listed (numbered : Image.Numbered images) {keepUses : Bool}
    (built : (build false keepUses images).outcome = .ok graph) :
    graph.Membership .methods ∧ graph.Membership .fields ∧
    (graph.classes.size < 2 ^ 32 →
      (graph.methods.size < 2 ^ 32 → graph.Partitions .methods) ∧
      (graph.fields.size < 2 ^ 32 → graph.Partitions .fields)) := by
  have formed := (populated_of_build numbered built).1
  have methods := membership_of_build .method numbered built
  have fields := membership_of_build .field numbered built
  exact ⟨methods, fields, fun fits => ⟨methods.partitions formed fits, fields.partitions formed fits⟩⟩

/-- The one method of the sample and its class. -/
theorem members_listed_sample :
    ∃ graph key c k m, (build false true [Sample.image]).outcome = .ok graph ∧
      graph.classes.size < 2 ^ 32 ∧ graph.methods.size < 2 ^ 32 ∧
      graph.classes.get? key = some c ∧ graph.methods.get? k = some m ∧ m.owner = some key ∧
      k ∈ c.methods.toList ∧ c.methods.toList.count k = 1 ∧ m.ownerName = c.name := by
  obtain ⟨graph, built, formed, -⟩ := build_populated Sample.numbered true
  have fits (kind : EntityKind) : (graph.registry kind).size < 2 ^ 32 :=
    Nat.lt_of_le_of_lt (size_le_entityBound built kind) Sample.entityBound_lt
  have partitions := ((members_listed Sample.numbered built).2.2 (fits .classes)).1 (fits .methods)
  obtain ⟨state, ran, rfl⟩ := build_ok built
  obtain ⟨k, m, place, -, present, located⟩ :=
    Builder.declared_located Sample.numbered ran (Sample.lists_iff.mpr rfl)
  -- a method with a place has a class
  obtain ⟨count, members⟩ := Builder.package_members .method ran
  obtain ⟨key, own⟩ : ∃ key, m.owner = some key := by
    rcases members k.index m present with ⟨-, stems⟩ | ⟨-, nowhere, -⟩
    · obtain ⟨_, _, _, _, _, _, _, owned, -⟩ := stems
      exact Option.isSome_iff_exists.mp owned
    · cases located.symm.trans nowhere
  obtain ⟨c, there⟩ := (Registry.contains_iff _ _).mp (formed.owned present own)
  have listed := (partitions.members key c there k).mpr ⟨m, present, own⟩
  exact ⟨state.graph, key, c, k, m, built, fits .classes, fits .methods, there, present, own, listed,
    partitions.once key c there k listed, partitions.named key c there k listed m present⟩

end Graph

end DexAtlas
