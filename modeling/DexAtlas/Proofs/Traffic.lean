import DexAtlas.Proofs.Builder

/-!
# Traffic

The uses that a graph holds, as tables from keys to lists, and the steps of a builder that leave
them alone. Classes and members are declared quietly, and so are ancestors linked; even what code
refers to is first made an entity, found by its name from then on, before any use is noted.
-/
namespace DexAtlas

/-! ### Tables -/

/-- A table of lists with one more entry at a key. -/
def pushAt {κ β : Type} [DecidableEq κ] (table : κ → List β) (key : κ) (entry : β) : κ → List β :=
  fun other => if other = key then table other ++ [entry] else table other

namespace Registry

variable {kind : EntityKind} {α β γ : Type}

theorem view_push (registry : Registry kind α) {key : Key kind} {change : α → α} {f : α → List β}
    {entry : β} (present : registry.contains key = true)
    (pushes : ∀ entity, f (change entity) = f entity ++ [entry]) :
    (registry.modify key change).view f [] = pushAt (registry.view f []) key entry := by
  obtain ⟨entity, found⟩ := (contains_iff registry key).mp present
  funext other
  by_cases same : other = key
  · subst same
    simp [view, get?_modify, pushAt, found, pushes]
  · simp [view, get?_modify, pushAt, same]

/-- A view through another one. -/
theorem view_comp (registry : Registry kind α) (f : α → β) (g : β → γ) (absent : β)
    (key : Key kind) :
    registry.view (fun entity => g (f entity)) (g absent) key = g (registry.view f absent key) := by
  simp only [view]
  cases registry.get? key <;> rfl

end Registry

/-- All uses of a graph by key. A key without an entity has none. -/
@[ext] structure Traffic where
  uses : MethodKey → List Use
  callers : MethodKey → List Site
  reads : FieldKey → List Site
  writes : FieldKey → List Site
  loads : StringKey → List Site
  outgoing : ClassKey → List ClassEdge
  incoming : ClassKey → List ClassEdge

def Graph.traffic (graph : Graph) : Traffic where
  uses := graph.methods.view (fun m => m.uses.toList) []
  callers := graph.methods.view (fun m => m.callers.toList) []
  reads := graph.fields.view (fun f => f.reads.toList) []
  writes := graph.fields.view (fun f => f.writes.toList) []
  loads := graph.strings.view (fun s => s.loads.toList) []
  outgoing := graph.classes.view (fun c => c.outgoing.toList) []
  incoming := graph.classes.view (fun c => c.incoming.toList) []

/-- The class that a descriptor names by itself; an array names none. -/
def Descriptor.ownClass? (descriptor : String) : Option String :=
  if elementClass? descriptor = some descriptor then some descriptor else none

/-- A name leads to a class where there is one. -/
def Graph.Leads (graph : Graph) : Option String → Option ClassKey → Prop :=
  Option.Rel fun name key => graph.classes.byName[name]? = some key

theorem Graph.Leads.of_extends {before after : Graph} (grown : before.Extends after)
    {name : Option String} {key : Option ClassKey} (leads : before.Leads name key) :
    after.Leads name key := by
  cases leads with
  | none => exact .none
  | some known => exact .some ((grown .classes).names known)

/-! ### Quiet steps -/

namespace Entity

/-- The two ends of uses that an entity of each sort lists. -/
abbrev Notes : EntityKind → Type
  | .classes => List ClassEdge × List ClassEdge
  | .methods => List Use × List Site
  | .fields => List Site × List Site
  | .strings => List Site

def notes : (kind : EntityKind) → Entity kind → Notes kind
  | .classes => fun c => (c.outgoing.toList, c.incoming.toList)
  | .methods => fun m => (m.uses.toList, m.callers.toList)
  | .fields => fun f => (f.reads.toList, f.writes.toList)
  | .strings => fun s => s.loads.toList

def noNotes : (kind : EntityKind) → Notes kind
  | .classes => ([], [])
  | .methods => ([], [])
  | .fields => ([], [])
  | .strings => []

end Entity

/-- A member is made without notes. -/
theorem MemberKind.notes_make (kind : MemberKind) (owner : Option ClassKey) (member : Pools.Member)
    (access : Nat) (external : Bool) (location : Option Record) (key : Key kind.sort) :
    Entity.notes kind.sort (kind.make owner member access external location key) =
      Entity.noNotes kind.sort := by
  cases kind <;> rfl

theorem MemberKind.edges_addTo (kind : MemberKind) (key : Key kind.sort) (c : ClassEntity) :
    (kind.addTo c key).outgoing = c.outgoing ∧ (kind.addTo c key).incoming = c.incoming := by
  cases kind <;> exact ⟨rfl, rfl⟩

namespace Graph

def notes (graph : Graph) (kind : EntityKind) : Key kind → Entity.Notes kind :=
  (graph.registry kind).view (Entity.notes kind) (Entity.noNotes kind)

theorem traffic_eq (graph : Graph) : graph.traffic = {
    uses := fun key => (graph.notes .methods key).1
    callers := fun key => (graph.notes .methods key).2
    reads := fun key => (graph.notes .fields key).1
    writes := fun key => (graph.notes .fields key).2
    loads := graph.notes .strings
    outgoing := fun key => (graph.notes .classes key).1
    incoming := fun key => (graph.notes .classes key).2 } := by
  have uses := graph.methods.view_comp (Entity.notes .methods) Prod.fst ([], [])
  have callers := graph.methods.view_comp (Entity.notes .methods) Prod.snd ([], [])
  have reads := graph.fields.view_comp (Entity.notes .fields) Prod.fst ([], [])
  have writes := graph.fields.view_comp (Entity.notes .fields) Prod.snd ([], [])
  have outgoing := graph.classes.view_comp (Entity.notes .classes) Prod.fst ([], [])
  have incoming := graph.classes.view_comp (Entity.notes .classes) Prod.snd ([], [])
  rw [traffic, Traffic.mk.injEq]
  exact ⟨funext uses, funext callers, funext reads, funext writes, rfl, funext outgoing,
    funext incoming⟩

/-- Equal lists everywhere make equal traffic. -/
theorem traffic_of_notes {before after : Graph} (same : after.notes = before.notes) :
    after.traffic = before.traffic := by
  rw [traffic_eq, traffic_eq, same]

theorem notes_set (graph : Graph) {kind : EntityKind} {registry : Registry kind (Entity kind)}
    (same : registry.view (Entity.notes kind) (Entity.noNotes kind) = graph.notes kind) :
    (graph.set kind registry).notes = graph.notes := by
  funext other
  by_cases equal : other = kind
  · subst equal
    rw [notes, registry_set, same]
  · rw [notes, notes, registry_set_of_ne graph equal]

/-- Methods that are there keep their class and their declaration. -/
def Settled (before after : Graph) : Prop :=
  ∀ key m, before.methods.get? key = some m →
    ∃ m', after.methods.get? key = some m' ∧ m'.owner = m.owner ∧ m'.location = m.location

namespace Settled

theorem refl (graph : Graph) : Settled graph graph :=
  fun _ m present => ⟨m, present, rfl, rfl⟩

theorem trans {a b c : Graph} (first : Settled a b) (second : Settled b c) : Settled a c := by
  intro key m present
  obtain ⟨m', present', owner', location'⟩ := first key m present
  obtain ⟨m'', present'', owner'', location''⟩ := second key m' present'
  exact ⟨m'', present'', owner''.trans owner', location''.trans location'⟩

theorem set {graph : Graph} {kind : EntityKind} {registry : Registry kind (Entity kind)}
    (keeps : ∀ key entity, (graph.registry kind).get? key = some entity →
      ∃ entity', registry.get? key = some entity' ∧
        Entity.owner kind entity' = Entity.owner kind entity ∧
        Entity.location kind entity' = Entity.location kind entity) :
    Settled graph (graph.set kind registry) := by
  intro key m present
  cases kind with
  | methods => exact keeps key m present
  | classes | fields | strings => exact ⟨m, present, rfl, rfl⟩

end Settled

/-- The graph grows, and no method changes what it is. -/
structure Grows (before after : Graph) : Prop where
  larger : before.Extends after
  settled : Settled before after

/-- The graph grows, and no use is noted. -/
structure Quiet (before after : Graph) : Prop extends Grows before after where
  notes : after.notes = before.notes

theorem Quiet.traffic {before after : Graph} (quiet : Quiet before after) :
    after.traffic = before.traffic :=
  traffic_of_notes quiet.notes

end Graph

namespace Builder

open DexAtlas.Graph (Grows Quiet Settled)

theorem chained_grows : Chained Grows where
  refl graph := ⟨.refl graph, .refl graph⟩
  trans first second := ⟨first.larger.trans second.larger, first.settled.trans second.settled⟩

theorem chained_quiet : Chained Quiet where
  refl graph := ⟨chained_grows.refl graph, rfl⟩
  trans first second :=
    ⟨chained_grows.trans first.toGrows second.toGrows, second.notes.trans first.notes⟩

theorem quiet_intern {kind : EntityKind} {name : String} {make : Key kind → Entity kind}
    (blank : ∀ key, Entity.notes kind (make key) = Entity.noNotes kind) :
    Follows Quiet (intern kind name make) := by
  refine follows_onRegistry fun graph => ⟨⟨?_, .set fun key entity present => ?_⟩, ?_⟩
  · exact Graph.extends_set _ _ _ (Registry.Extends.intern _ _ _)
  · rcases (graph.registry kind).get?_intern name make key with same | ⟨new, -⟩
    · exact ⟨entity, same.trans present, rfl, rfl⟩
    · rw [new] at present
      cases present
  · exact Graph.notes_set graph (Registry.view_intern _ _ _ _ _ blank)

theorem quiet_bind {kind : EntityKind} (record : Record) (key : Key kind) :
    Follows Quiet (bind kind record key) := by
  refine follows_onRegistry fun graph => ⟨⟨?_, .set fun other entity present => ?_⟩, ?_⟩
  · exact Graph.extends_set _ _ _ (Registry.Extends.bind _ _ _)
  · refine ⟨entity, ?_, rfl, rfl⟩
    rwa [Registry.get?, Registry.arena_bind]
  · exact Graph.notes_set graph (Registry.view_bind _ _ _ _ _)

theorem grows_update {kind : EntityKind} {what : String} {key : Key kind}
    {change : Entity kind → Entity kind}
    (keeps : ∀ entity, Entity.owner kind (change entity) = Entity.owner kind entity ∧
      Entity.location kind (change entity) = Entity.location kind entity) :
    Follows Grows (update kind what key change) := by
  intro state a after ran
  rw [(update_ok ran).2]
  refine ⟨Graph.extends_set _ _ _ (Registry.Extends.modify _ _ _), .set ?_⟩
  intro other entity present
  rw [Registry.get?_modify, present]
  split
  · exact ⟨change entity, rfl, keeps entity⟩
  · exact ⟨entity, rfl, rfl, rfl⟩

theorem quiet_updateClass {key : ClassKey} {change : ClassEntity → ClassEntity}
    (untouched : ∀ c, (change c).outgoing = c.outgoing ∧ (change c).incoming = c.incoming) :
    Follows Quiet (updateClass key change) := by
  intro state a after ran
  refine ⟨grows_update (by exact fun _ => ⟨rfl, rfl⟩) ran, ?_⟩
  rw [(update_ok ran).2]
  refine Graph.notes_set _ (Registry.view_modify _ _ _ _ _ fun c => ?_)
  simp only [Entity.notes, untouched]

/-! ### Declarations are quiet -/

theorem quiet_declareMember (kind : MemberKind) (image : Image) (owner : ClassKey)
    (id access : Nat) (external : Bool) :
    Follows Quiet (declareMember kind image owner id access external) := by
  apply follows_declareMember chained_quiet
  · exact fun member _ => quiet_intern (kind.notes_make _ member access external _)
  · exact fun record key => quiet_bind record key
  · exact fun key => quiet_updateClass (kind.edges_addTo key)

theorem quiet_declareImage (cancelled : Bool) (image : Image) :
    Follows Quiet (declareImage cancelled image) := by
  refine follows_declareImage chained_quiet cancelled fun position classDef _ => ?_
  refine follows_declareClass chained_quiet (fun _ => quiet_intern fun _ => rfl)
    (fun record key => quiet_bind record key) (fun key _ _ _ _ => quiet_updateClass fun c => ?_)
    (fun owner _ _ => quiet_declareMember .field image owner _ _ _)
    (fun owner _ _ => quiet_declareMember .method image owner _ _ _)
  unfold ClassEntity.define
  split <;> exact ⟨rfl, rfl⟩

theorem quiet_linkClasses : Follows Quiet linkClasses := by
  refine follows_onRegistry fun graph => ⟨⟨?_, fun key m present => ⟨m, present, rfl, rfl⟩⟩, ?_⟩
  · exact Graph.extends_set _ _ _ (Registry.Extends.map _ _)
  · exact Graph.notes_set graph (Registry.view_map _ _ _ _ fun _ => rfl)

/-! ### Entities are met quietly -/

theorem quiet_classFor (descriptor : String) : Follows Quiet (classFor descriptor) :=
  .bind chained_quiet (quiet_intern fun _ => rfl) fun _ => .pure chained_quiet _

theorem quiet_ownerFor (descriptor : String) : Follows Quiet (ownerFor descriptor) := by
  unfold ownerFor
  split
  · exact .bind chained_quiet (quiet_classFor descriptor) fun _ => .pure chained_quiet _
  · exact .pure chained_quiet _

theorem quiet_enrol (created : Bool) (owner : Option ClassKey) {change : ClassEntity → ClassEntity}
    (untouched : ∀ c, (change c).outgoing = c.outgoing ∧ (change c).incoming = c.incoming) :
    Follows Quiet (enrol created owner change) := by
  unfold enrol
  split
  · exact quiet_updateClass untouched
  · exact .pure chained_quiet _

/-- What was met is known by its name. -/
theorem known_of_intern {kind : EntityKind} {name : String} {make : Key kind → Entity kind}
    {state after : Build} {result : Key kind × Bool}
    (ran : intern kind name make state = .ok result after) :
    (after.graph.registry kind).byName[name]? = some result.1 := by
  obtain ⟨rfl, changed⟩ := intern_ok ran
  rw [changed, Graph.registry_set]
  exact Registry.byName_intern _ _ _

/-- One name is interned on the way and nothing is noted. -/
theorem quiet_known {kind : EntityKind} {name : String} {make : Key kind → Entity kind}
    {state middle : Build} {result : Key kind × Bool} {before after : Graph}
    (blank : ∀ key, Entity.notes kind (make key) = Entity.noNotes kind)
    (first : Quiet before state.graph) (interned : intern kind name make state = .ok result middle)
    (rest : Quiet middle.graph after) :
    Quiet before after ∧ (after.registry kind).byName[name]? = some result.1 :=
  ⟨chained_quiet.trans first (chained_quiet.trans (quiet_intern blank interned) rest),
    (rest.larger kind).names (known_of_intern interned)⟩

theorem meetString_ok {record : Record} {value : String} {state after : Build} {key : StringKey}
    (ran : meetString record value state = .ok key after) :
    Quiet state.graph after.graph ∧ after.graph.strings.byName[value]? = some key := by
  obtain ⟨⟨key, _⟩, s₁, interned, ran⟩ := bind_ok ran
  obtain ⟨_, s₂, bound, ran⟩ := bind_ok ran
  obtain ⟨rfl, rfl⟩ := EStateM.Result.ok.inj ran
  exact quiet_known (fun _ => rfl) (chained_quiet.refl _) interned (quiet_bind record key bound)

theorem classFor_ok {descriptor : String} {state after : Build} {key : ClassKey}
    (ran : classFor descriptor state = .ok key after) :
    Quiet state.graph after.graph ∧ after.graph.classes.byName[descriptor]? = some key := by
  refine ⟨quiet_classFor descriptor ran, ?_⟩
  obtain ⟨⟨key, _⟩, s₁, interned, ran⟩ := bind_ok ran
  obtain ⟨rfl, rfl⟩ := EStateM.Result.ok.inj ran
  exact known_of_intern interned

/-- A member has the class that its descriptor names. -/
theorem ownerFor_ok {descriptor : String} {state after : Build} {owner : Option ClassKey}
    (ran : ownerFor descriptor state = .ok owner after) :
    after.graph.Leads (Descriptor.ownClass? descriptor) owner := by
  unfold ownerFor at ran
  unfold Descriptor.ownClass?
  split at ran
  next own =>
    obtain ⟨key, middle, met, ran⟩ := bind_ok ran
    obtain ⟨rfl, rfl⟩ := EStateM.Result.ok.inj ran
    rw [if_pos own]
    exact .some (classFor_ok met).2
  next array =>
    obtain ⟨rfl, rfl⟩ := EStateM.Result.ok.inj ran
    rw [if_neg array]
    exact .none

theorem meetClass_ok {record : Record} {descriptor element : String} {state after : Build}
    {key : ClassKey} (ran : meetClass record descriptor element state = .ok key after) :
    Quiet state.graph after.graph ∧ after.graph.classes.byName[element]? = some key := by
  obtain ⟨key, s₁, met, ran⟩ := bind_ok ran
  obtain ⟨first, known⟩ := classFor_ok met
  split at ran
  · obtain ⟨_, s₂, bound, ran⟩ := bind_ok ran
    obtain ⟨rfl, rfl⟩ := EStateM.Result.ok.inj ran
    have second := quiet_bind record key bound
    exact ⟨chained_quiet.trans first second, (second.larger .classes).names known⟩
  · obtain ⟨rfl, rfl⟩ := EStateM.Result.ok.inj ran
    exact ⟨first, known⟩

theorem meetMember_ok {kind : MemberKind} {record : Record} {member : Pools.Member}
    {state after : Build} {met : Option ClassKey × Key kind.sort}
    (ran : meetMember kind record member state = .ok met after) :
    Quiet state.graph after.graph ∧
      (after.graph.registry kind.sort).byName[kind.fullName member]? = some met.2 ∧
      after.graph.Leads (Descriptor.ownClass? member.owner) met.1 := by
  obtain ⟨owner, s₁, found, ran⟩ := bind_ok ran
  obtain ⟨⟨key, created⟩, s₂, interned, ran⟩ := bind_ok ran
  obtain ⟨_, s₃, enrolled, ran⟩ := bind_ok ran
  obtain ⟨_, s₄, bound, ran⟩ := bind_ok ran
  obtain ⟨rfl, rfl⟩ := EStateM.Result.ok.inj ran
  have blank := kind.notes_make owner member 0 true none
  have third := quiet_enrol created owner (kind.edges_addTo key) enrolled
  have rest := chained_quiet.trans third (quiet_bind record key bound)
  obtain ⟨quiet, known⟩ := quiet_known blank (quiet_ownerFor _ found) interned rest
  have later := chained_quiet.trans (quiet_intern blank interned) rest
  exact ⟨quiet, known, (ownerFor_ok found).of_extends later.larger⟩

end Builder

end DexAtlas
