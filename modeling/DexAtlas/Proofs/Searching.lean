import DexAtlas.Proofs.Builder

/-!
# What a search of code may change

The last pass of the construction only adds. An entity that is there keeps everything but the lists
of its members and of its uses, and an entity that is new is one that no image declares: its name
was unknown, and it is marked as lying outside the package. Both follow from the elementary steps,
as does any other relation that these steps respect and that can be chained.
-/
namespace DexAtlas

namespace Entity

/-- An entity without the lists that a search adds to. -/
def bare : (kind : EntityKind) → Entity kind → Entity kind
  | .classes => fun c => { c with methods := #[], fields := #[], incoming := #[], outgoing := #[] }
  | .methods => fun m => { m with callers := #[], uses := #[] }
  | .fields => fun f => { f with reads := #[], writes := #[] }
  | .strings => fun s => { s with loads := #[] }

theorem name_bare (kind : EntityKind) (entity : Entity kind) :
    name kind (bare kind entity) = name kind entity := by
  cases kind <;> rfl

theorem name_of_bare {kind : EntityKind} {a b : Entity kind} (same : bare kind a = bare kind b) :
    name kind a = name kind b := by
  rw [← name_bare, same, name_bare]

/-- An entity that is used but not declared. -/
def Outside : (kind : EntityKind) → Entity kind → Prop
  | .classes => fun (c : ClassEntity) => c.external = true ∧ c.definitions = #[] ∧
      c.access = 0 ∧ c.superclass = none ∧ c.interfaces = []
  | .methods => fun (m : MethodEntity) => m.external = true ∧ m.location = none
  | .fields => fun (f : FieldEntity) => f.external = true ∧ f.location = none
  | .strings => fun _ => True

theorem outside_of_bare {kind : EntityKind} {a b : Entity kind} (same : bare kind a = bare kind b)
    (outside : Outside kind b) : Outside kind a := by
  cases kind with
  | classes =>
    have external := congrArg ClassEntity.external same
    have definitions := congrArg ClassEntity.definitions same
    have access := congrArg ClassEntity.access same
    have superclass := congrArg ClassEntity.superclass same
    have interfaces := congrArg ClassEntity.interfaces same
    obtain ⟨outside, undefined, plain, orphan, bare⟩ := outside
    exact ⟨external.trans outside, definitions.trans undefined, access.trans plain,
      superclass.trans orphan, interfaces.trans bare⟩
  | methods =>
    have external := congrArg MethodEntity.external same
    have location := congrArg MethodEntity.location same
    exact ⟨external.trans outside.1, location.trans outside.2⟩
  | fields =>
    have external := congrArg FieldEntity.external same
    have location := congrArg FieldEntity.location same
    exact ⟨external.trans outside.1, location.trans outside.2⟩
  | strings => trivial

end Entity

namespace MemberKind

theorem outside_make (kind : MemberKind) (owner : Option ClassKey) (member : Pools.Member)
    (access : Nat) (key : Key kind.sort) :
    Entity.Outside kind.sort (kind.make owner member access true none key) := by
  cases kind <;> exact ⟨rfl, rfl⟩

theorem bare_addTo (kind : MemberKind) (key : Key kind.sort) (c : ClassEntity) :
    Entity.bare .classes (kind.addTo c key) = Entity.bare .classes c := by
  cases kind <;> rfl

theorem bare_addSite (kind : MemberKind) (insn : Instruction) (site : Site)
    (entity : Entity kind.sort) :
    Entity.bare kind.sort (kind.addSite insn site entity) = Entity.bare kind.sort entity := by
  cases kind with
  | field =>
    unfold addSite
    split <;> rfl
  | method => rfl

end MemberKind

/-! ### Registries -/

namespace Registry

variable {kind : EntityKind}

/-- What is there stays but for its lists, and what is new is not declared. -/
structure Meets (before after : Registry kind (Entity kind)) : Prop where
  larger : before.Extends after
  kept : ∀ {place : Nat} {entity : Entity kind}, before.arena[place]? = some entity →
    ∃ same, after.arena[place]? = some same ∧ Entity.bare kind same = Entity.bare kind entity
  fresh : ∀ {place : Nat} {entity : Entity kind}, before.arena[place]? = none →
    after.arena[place]? = some entity →
      before.byName[Entity.name kind entity]? = none ∧ Entity.Outside kind entity

namespace Meets

variable {registry : Registry kind (Entity kind)}

theorem refl (registry : Registry kind (Entity kind)) : Meets registry registry := by
  refine ⟨.refl registry, fun found => ⟨_, found, rfl⟩, fun absent found => ?_⟩
  rw [absent] at found
  cases found

theorem trans {a b c : Registry kind (Entity kind)} (first : Meets a b) (second : Meets b c) :
    Meets a c := by
  refine ⟨first.larger.trans second.larger, fun found => ?_, fun {place entity} absent found => ?_⟩
  · obtain ⟨same, there, bare⟩ := first.kept found
    obtain ⟨again, stillThere, stillBare⟩ := second.kept there
    exact ⟨again, stillThere, stillBare.trans bare⟩
  · cases between : b.arena[place]? with
    | none =>
      obtain ⟨unknown, outside⟩ := second.fresh between found
      refine ⟨?_, outside⟩
      -- a name that was known at first would have been known in between
      cases known : a.byName[Entity.name kind entity]? with
      | none => rfl
      | some key => cases (first.larger.names known).symm.trans unknown
    | some old =>
      obtain ⟨unknown, outside⟩ := first.fresh absent between
      obtain ⟨same, there, bare⟩ := second.kept between
      obtain rfl := Option.some.inj (found.symm.trans there)
      rw [Entity.name_of_bare bare]
      exact ⟨unknown, Entity.outside_of_bare bare outside⟩

theorem intern {name : String} {make : Key kind → Entity kind}
    (named : ∀ key, Entity.name kind (make key) = name)
    (outside : ∀ key, Entity.Outside kind (make key)) :
    Meets registry (registry.intern name make).2 := by
  rcases registry.intern_cases name make with ⟨key, -, result⟩ | ⟨new, result⟩
  · rw [result]
    exact refl registry
  · refine ⟨.intern registry name make, fun {place entity} found => ?_,
      fun {place entity} absent found => ?_⟩
    · obtain ⟨inside, -⟩ := Array.getElem?_eq_some_iff.mp found
      refine ⟨entity, ?_, rfl⟩
      simpa [result, Array.getElem?_push, Nat.ne_of_lt inside] using found
    · simp only [result, Array.getElem?_push] at found
      split at found
      · obtain rfl := Option.some.inj found
        exact ⟨(named _).symm ▸ new, outside _⟩
      · rw [absent] at found
        cases found

theorem bind (record : Record) (key : Key kind) : Meets registry (registry.bind record key).2 := by
  refine ⟨.bind registry record key, fun found => ⟨_, by rwa [arena_bind], rfl⟩,
    fun absent found => ?_⟩
  rw [arena_bind, absent] at found
  cases found

theorem modify (key : Key kind) {change : Entity kind → Entity kind}
    (keeps : ∀ entity, Entity.bare kind (change entity) = Entity.bare kind entity) :
    Meets registry (registry.modify key change) := by
  refine ⟨.modify registry key change, fun {place entity} found => ?_, fun absent found => ?_⟩
  · simp only [Registry.modify, Array.getElem?_modify, found]
    split
    · exact ⟨change entity, rfl, keeps entity⟩
    · exact ⟨entity, rfl, rfl⟩
  · simp [Registry.modify, Array.getElem?_modify, absent] at found

end Meets

end Registry

/-! ### Graphs -/

/-- What is there stays but for its lists, and what is new is not declared, in every registry. -/
def Graph.Meets (before after : Graph) : Prop :=
  ∀ kind, (before.registry kind).Meets (after.registry kind)

theorem Graph.Meets.set {graph : Graph} {kind : EntityKind} {registry : Registry kind (Entity kind)}
    (meets : (graph.registry kind).Meets registry) : graph.Meets (graph.set kind registry) := by
  intro other
  by_cases same : other = kind
  · subst same
    rwa [registry_set]
  · rw [registry_set_of_ne graph same]
    exact .refl _

namespace Builder

/-- A relation that the elementary steps of a search respect: to intern what is not declared, to
bind a record, and to change the lists of an entity. -/
structure Searchable (relation : Graph → Graph → Prop) : Prop extends Chained relation where
  intern : ∀ {kind : EntityKind} {name : String} {make : Key kind → Entity kind},
    (∀ key, Entity.name kind (make key) = name) → (∀ key, Entity.Outside kind (make key)) →
      Follows relation (intern kind name make)
  bind : ∀ {kind : EntityKind} (record : Record) (key : Key kind),
    Follows relation (bind kind record key)
  update : ∀ {kind : EntityKind} {what : String} {change : Entity kind → Entity kind}
    (key : Key kind), (∀ entity, Entity.bare kind (change entity) = Entity.bare kind entity) →
      Follows relation (update kind what key change)

theorem searchable_meets : Searchable Graph.Meets where
  refl graph := fun kind => .refl (graph.registry kind)
  trans first second := fun kind => (first kind).trans (second kind)
  intern named outside := follows_onRegistry fun _ => .set (.intern named outside)
  bind record key := follows_onRegistry fun _ => .set (.bind record key)
  update key keeps := by
    intro state _ after ran
    rw [(update_ok ran).2]
    exact .set (.modify key keeps)

section

variable {relation : Graph → Graph → Prop} (searchable : Searchable relation)
include searchable

theorem follows_classFor (descriptor : String) : Follows relation (classFor descriptor) :=
  .bind searchable.toChained (searchable.intern (fun _ => rfl)
    fun _ => ⟨rfl, rfl, rfl, rfl, rfl⟩) fun _ => .pure searchable.toChained _

theorem follows_ownerFor (descriptor : String) : Follows relation (ownerFor descriptor) := by
  unfold ownerFor
  split
  · exact .bind searchable.toChained (follows_classFor searchable descriptor)
      fun _ => .pure searchable.toChained _
  · exact .pure searchable.toChained _

theorem follows_enrol (created : Bool) (owner : Option ClassKey)
    {change : ClassEntity → ClassEntity}
    (keeps : ∀ c, Entity.bare .classes (change c) = Entity.bare .classes c) :
    Follows relation (enrol created owner change) := by
  unfold enrol
  split
  · exact searchable.update _ keeps
  · exact .pure searchable.toChained _

theorem follows_addUse (site : Site) (target : Target) :
    Follows relation (addUse site target) := by
  unfold addUse updateMethod
  exact searchable.update _ fun _ => rfl

theorem follows_addEdge (source target : Option ClassKey) (use : ClassUse) (site : Site) :
    Follows relation (addEdge source target use site) := by
  unfold addEdge
  split
  · exact .bind searchable.toChained (searchable.update _ fun _ => rfl)
      fun _ => searchable.update _ fun _ => rfl
  · exact .pure searchable.toChained _

theorem follows_meetString (record : Record) (value : String) :
    Follows relation (meetString record value) :=
  .bind searchable.toChained (searchable.intern (fun _ => rfl) fun _ => trivial) fun _ =>
    .bind searchable.toChained (searchable.bind _ _) fun _ => .pure searchable.toChained _

theorem follows_meetClass (record : Record) (descriptor element : String) :
    Follows relation (meetClass record descriptor element) := by
  refine .bind searchable.toChained (follows_classFor searchable element) fun key => ?_
  split
  · exact .bind searchable.toChained (searchable.bind _ _) fun _ => .pure searchable.toChained _
  · exact .pure searchable.toChained _

theorem follows_useString (keepUses : Bool) (scene : Scene) (index : Nat) (value : String) :
    Follows relation (useString keepUses scene index value) := by
  have chained := searchable.toChained
  refine .bind chained (follows_meetString searchable _ value) fun key => .optional chained ?_
  exact .bind chained (searchable.update key fun _ => rfl) fun _ => follows_addUse searchable _ _

theorem follows_useType (keepUses : Bool) (scene : Scene) (index : Nat) (descriptor : String) :
    Follows relation (useType keepUses scene index descriptor) := by
  unfold useType
  split
  next use element _ =>
    have chained := searchable.toChained
    have met := follows_meetClass searchable ⟨scene.image, index⟩ descriptor element
    refine .bind chained met fun key => .optional chained ?_
    exact .bind chained (follows_addUse searchable _ _) fun _ => follows_addEdge searchable _ _ _ _
  next => exact .pure searchable.toChained _

/-- A member is interned, listed with its class if it is new, and bound. -/
theorem follows_meetMember (kind : MemberKind) (record : Record) (member : Pools.Member) :
    Follows relation (meetMember kind record member) := by
  have chained := searchable.toChained
  refine .bind chained (follows_ownerFor searchable member.owner) fun owner => ?_
  have interned := searchable.intern (kind.name_make owner member 0 true none)
    (kind.outside_make owner member 0)
  refine .bind chained interned fun (key, created) => ?_
  refine .bind chained (follows_enrol searchable created owner (kind.bare_addTo key)) fun _ => ?_
  exact .bind chained (searchable.bind record key) fun _ => .pure chained _

/-- The use of a member is noted at the member, at the method and at both classes. -/
theorem follows_useMember (kind : MemberKind) (keepUses : Bool) (scene : Scene) (index : Nat)
    (member : Pools.Member) : Follows relation (useMember kind keepUses scene index member) := by
  have chained := searchable.toChained
  refine .bind chained (follows_meetMember searchable kind _ member) fun (owner, key) => ?_
  apply Follows.optional chained
  refine .bind chained (searchable.update key (kind.bare_addSite _ _)) fun _ => ?_
  exact .bind chained (follows_addUse searchable _ _) fun _ => follows_addEdge searchable _ _ _ _

theorem follows_use (keepUses : Bool) (scene : Scene) (reference : Reference) :
    Follows relation (use keepUses scene reference) := by
  cases reference with
  | string => exact follows_useString searchable _ _ _ _
  | type => exact follows_useType searchable _ _ _ _
  | field => exact follows_useMember searchable .field _ _ _ _
  | method => exact follows_useMember searchable .method _ _ _ _
  | proto | callSite | methodHandle => exact .pure searchable.toChained _

theorem follows_scanMethod (keepUses : Bool) (image : Image) (method : EncodedMethod) :
    Follows relation (scanMethod keepUses image method) := by
  unfold scanMethod
  refine .bind searchable.toChained (.graph searchable.toChained) fun graph => ?_
  split
  · split
    · split
      · exact .pure searchable.toChained _
      · split
        · exact .forM searchable.toChained fun insn _ =>
            .forM searchable.toChained fun reference _ => follows_use searchable _ _ reference
        · exact .pure searchable.toChained _
    · exact .pure searchable.toChained _
  · exact .fail _

/-- The whole pass over the code of all images. -/
theorem follows_scanned (cancelled keepUses : Bool) (images : List Image) :
    Follows relation (images.forM fun image =>
      within (.image image.name) (scanImage cancelled keepUses image)) :=
  .forM searchable.toChained fun _ _ => .within _
    (follows_scanImage searchable.toChained cancelled keepUses
      (follows_scanMethod searchable keepUses _))

end

end Builder

end DexAtlas
