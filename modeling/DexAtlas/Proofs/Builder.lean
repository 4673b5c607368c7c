import DexAtlas.Graph.Build
import DexAtlas.Proofs.Registry

/-!
# Running a builder

How the steps of a builder act on the graph. `Follows` says that every run that ends well relates
the graph before and after; `Ensures` says that a run from a suitable graph does end well and what
holds of the graph then. Both are closed under the ways in which steps are put together, so a
property of the whole construction comes down to the three elementary steps: to intern a name, to
bind a record and to change an entity.
-/
namespace DexAtlas

namespace Graph

/-- The graph with the registry of one sort replaced. -/
def set (graph : Graph) (kind : EntityKind) (registry : Registry kind (Entity kind)) : Graph :=
  (graph.modifyGet kind fun _ => ((), registry)).2

@[simp] theorem registry_set (graph : Graph) (kind : EntityKind)
    (registry : Registry kind (Entity kind)) :
    (graph.set kind registry).registry kind = registry := by
  cases kind <;> rfl

theorem registry_set_of_ne (graph : Graph) {kind other : EntityKind} (apart : other ≠ kind)
    (registry : Registry kind (Entity kind)) :
    (graph.set kind registry).registry other = graph.registry other := by
  cases kind <;> cases other <;> first | rfl | exact absurd rfl apart

theorem modifyGet_eq {β : Type} (graph : Graph) (kind : EntityKind)
    (f : Registry kind (Entity kind) → β × Registry kind (Entity kind)) :
    graph.modifyGet kind f =
      ((f (graph.registry kind)).1, graph.set kind (f (graph.registry kind)).2) := by
  cases kind <;> rfl

/-- No name, record or entity of any sort is lost. -/
def Extends (before after : Graph) : Prop :=
  ∀ kind, (before.registry kind).Extends (after.registry kind)

theorem Extends.refl (graph : Graph) : Extends graph graph :=
  fun kind => Registry.Extends.refl (graph.registry kind)

theorem Extends.trans {a b c : Graph} (first : Extends a b) (second : Extends b c) :
    Extends a c :=
  fun kind => (first kind).trans (second kind)

theorem extends_set (graph : Graph) (kind : EntityKind) (registry : Registry kind (Entity kind))
    (grown : (graph.registry kind).Extends registry) : Extends graph (graph.set kind registry) := by
  intro other
  by_cases same : other = kind
  · subst same
    rwa [registry_set]
  · rw [registry_set_of_ne graph same]
    exact Registry.Extends.refl _

/-- Whatever was accounted for before, the step adds its own behind it. -/
def Continues {δ : Type} (fact : List δ → Graph → Prop) (next : List δ)
    (before after : Graph) : Prop :=
  ∀ list, fact list before → fact (list ++ next) after

end Graph

/-! ### Members

What fields and methods have in common, so that a step with a member is looked at once. -/

namespace MemberKind

section

variable (kind : MemberKind) (owner : Option ClassKey) (member : Pools.Member) (access : Nat)
  (external : Bool) (location : Option Record) (key : Key kind.sort)

@[simp] theorem name_make :
    Entity.name kind.sort (kind.make owner member access external location key) =
      kind.fullName member := by
  cases kind <;> rfl

@[simp] theorem key_make :
    Entity.key kind.sort (kind.make owner member access external location key) = key := by
  cases kind <;> rfl

@[simp] theorem owner_make :
    Entity.owner kind.sort (kind.make owner member access external location key) = owner := by
  cases kind <;> rfl

@[simp] theorem location_make :
    Entity.location kind.sort (kind.make owner member access external location key) =
      location := by
  cases kind <;> rfl

end

theorem sort_ne_classes (kind : MemberKind) : kind.sort ≠ .classes := by
  cases kind <;> decide

theorem sort_ne {kind other : MemberKind} (apart : kind ≠ other) : kind.sort ≠ other.sort := by
  cases kind <;> cases other <;> first | decide | exact absurd rfl apart

theorem keeps_addTo (kind : MemberKind) (key : Key kind.sort) (c : ClassEntity) :
    (kind.addTo c key).name = c.name ∧ (kind.addTo c key).key = c.key := by
  cases kind <;> exact ⟨rfl, rfl⟩

theorem keeps_addSite (kind : MemberKind) (insn : Instruction) (site : Site) :
    Entity.Keeps kind.sort (kind.addSite insn site) := by
  cases kind with
  | field =>
    unfold addSite
    constructor <;> intro f <;> split <;> rfl
  | method => exact ⟨fun _ => rfl, fun _ => rfl, fun _ => rfl, fun _ => rfl⟩

end MemberKind

namespace Builder

variable {α β : Type}

/-! ### Successful runs -/

theorem bind_ok {step : Builder α} {next : α → Builder β} {state after : Build} {b : β}
    (ran : (step >>= next) state = .ok b after) :
    ∃ a middle, step state = .ok a middle ∧ next a middle = .ok b after := by
  change EStateM.bind step next state = _ at ran
  unfold EStateM.bind at ran
  split at ran
  next a middle first => exact ⟨a, middle, first, ran⟩
  next => cases ran

theorem bind_of_ok {step : Builder α} {next : α → Builder β} {state middle : Build} {a : α}
    (first : step state = .ok a middle) : (step >>= next) state = next a middle := by
  change EStateM.bind step next state = _
  rw [EStateM.bind, first]

theorem onRegistry_ok {kind : EntityKind}
    {step : Registry kind (Entity kind) → Except Cause β × Registry kind (Entity kind)}
    {state after : Build} {b : β} (ran : onRegistry kind step state = .ok b after) :
    (step (state.graph.registry kind)).1 = .ok b ∧
      after.graph = state.graph.set kind (step (state.graph.registry kind)).2 := by
  simp only [onRegistry, Graph.modifyGet_eq] at ran
  split at ran
  next result =>
    obtain ⟨rfl, rfl⟩ := EStateM.Result.ok.inj ran
    exact ⟨result, rfl⟩
  next => cases ran

theorem onRegistry_of_ok {kind : EntityKind}
    {step : Registry kind (Entity kind) → Except Cause β × Registry kind (Entity kind)}
    {state : Build} {b : β} (accepted : (step (state.graph.registry kind)).1 = .ok b) :
    onRegistry kind step state = .ok b
      ⟨state.graph.set kind (step (state.graph.registry kind)).2, state.notices⟩ := by
  simp only [onRegistry, Graph.modifyGet_eq, accepted]

theorem intern_run (kind : EntityKind) (name : String) (make : Key kind → Entity kind)
    (state : Build) :
    intern kind name make state = .ok ((state.graph.registry kind).intern name make).1
      ⟨state.graph.set kind ((state.graph.registry kind).intern name make).2, state.notices⟩ :=
  onRegistry_of_ok rfl

/-- The run of an interning step, with what it found out. -/
theorem intern_ok {kind : EntityKind} {name : String} {make : Key kind → Entity kind}
    {state after : Build} {result : Key kind × Bool}
    (ran : intern kind name make state = .ok result after) :
    result = ((state.graph.registry kind).intern name make).1 ∧
      after.graph = state.graph.set kind ((state.graph.registry kind).intern name make).2 := by
  obtain ⟨returned, changed⟩ := onRegistry_ok ran
  exact ⟨(Except.ok.inj returned).symm, changed⟩

theorem update_ok {kind : EntityKind} {what : String} {key : Key kind}
    {change : Entity kind → Entity kind} {state after : Build}
    (ran : update kind what key change state = .ok () after) :
    (state.graph.registry kind).contains key = true ∧
      after.graph = state.graph.set kind ((state.graph.registry kind).modify key change) := by
  obtain ⟨accepted, changed⟩ := onRegistry_ok ran
  split at accepted
  next present => exact ⟨present, by rw [changed, if_pos present]⟩
  next => cases accepted

theorem within_ok {context : Context} {step : Builder α} {state after : Build} {a : α}
    (ran : within context step state = .ok a after) : step state = .ok a after := by
  unfold within at ran
  split at ran
  next result => rwa [result]
  next => cases ran

theorem within_of_ok {context : Context} {step : Builder α} {state after : Build} {a : α}
    (ran : step state = .ok a after) : within context step state = .ok a after := by
  rw [within, ran]

theorem forM_cons_ok {ι : Type} {step : ι → Builder Unit} {i : ι} {rest : List ι}
    {state after : Build} (ran : (i :: rest).forM step state = .ok () after) :
    ∃ middle, step i state = .ok () middle ∧ rest.forM step middle = .ok () after := by
  obtain ⟨⟨⟩, middle, first, others⟩ := bind_ok ran
  exact ⟨middle, first, others⟩

/-! ### What every run respects -/

/-- Every run that ends well relates the graph before it to the graph after it. -/
def Follows (relation : Graph → Graph → Prop) (step : Builder α) : Prop :=
  ∀ ⦃state a after⦄, step state = .ok a after → relation state.graph after.graph

/-- A relation that holds along any number of steps if it holds along each. -/
structure Chained (relation : Graph → Graph → Prop) : Prop where
  refl : ∀ graph, relation graph graph
  trans : ∀ {a b c}, relation a b → relation b c → relation a c

namespace Follows

variable {relation : Graph → Graph → Prop}

theorem fail (cause : Cause) : Follows relation (Builder.fail cause : Builder α) := by
  intro state a after ran
  cases ran

theorem pure (chained : Chained relation) (a : α) :
    Follows relation (Pure.pure a : Builder α) := by
  intro state b after ran
  obtain ⟨-, rfl⟩ := EStateM.Result.ok.inj ran
  exact chained.refl _

theorem raise (chained : Chained relation) (notice : Notice) :
    Follows relation (Builder.raise notice) := by
  intro state b after ran
  obtain ⟨-, rfl⟩ := EStateM.Result.ok.inj ran
  exact chained.refl _

theorem graph (chained : Chained relation) : Follows relation Builder.graph := by
  intro state b after ran
  obtain ⟨-, rfl⟩ := EStateM.Result.ok.inj ran
  exact chained.refl _

theorem bind (chained : Chained relation) {step : Builder α} {next : α → Builder β}
    (first : Follows relation step) (others : ∀ a, Follows relation (next a)) :
    Follows relation (step >>= next) := by
  intro state b after ran
  obtain ⟨a, middle, begun, ended⟩ := bind_ok ran
  exact chained.trans (first begun) (others a ended)

theorem forM (chained : Chained relation) {ι : Type} {step : ι → Builder Unit} {list : List ι}
    (each : ∀ i ∈ list, Follows relation (step i)) : Follows relation (list.forM step) := by
  induction list with
  | nil => exact pure chained _
  | cons i rest ih =>
    exact bind chained (each i (by simp)) fun _ => ih fun j member => each j (by simp [member])

/-- A step that is left out if there is no need for it. -/
theorem optional (chained : Chained relation) {needed : Bool} {step : Builder Unit}
    (inner : Follows relation step) :
    Follows relation (if needed then step else Pure.pure ()) := by
  split
  · exact inner
  · exact pure chained _

theorem within (context : Context) {step : Builder α} (inner : Follows relation step) :
    Follows relation (Builder.within context step) :=
  fun _ _ _ ran => inner (within_ok ran)

theorem ensureRunning (chained : Chained relation) (cancelled : Bool) :
    Follows relation (Builder.ensureRunning cancelled) := by
  unfold Builder.ensureRunning
  split
  · exact fail _
  · exact pure chained _

end Follows

/-- An elementary step follows whatever its change of one registry amounts to. -/
theorem follows_onRegistry {relation : Graph → Graph → Prop} {kind : EntityKind}
    {step : Registry kind (Entity kind) → Except Cause β × Registry kind (Entity kind)}
    (changes : ∀ graph : Graph, relation graph (graph.set kind (step (graph.registry kind)).2)) :
    Follows relation (onRegistry kind step) := by
  intro state b after ran
  rw [(onRegistry_ok ran).2]
  exact changes state.graph

/-! ### Passes

A chained relation is followed by a whole pass if it is followed by what the pass is made of. -/

section

variable {relation : Graph → Graph → Prop} (chained : Chained relation)
include chained

theorem follows_noteRedefinition (image : Image) (key : ClassKey) :
    Follows relation (noteRedefinition image key) := by
  refine .bind chained (.graph chained) fun graph => ?_
  split
  · exact .fail _
  · split
    · exact .raise chained _
    · exact .pure chained _

theorem follows_noteRedeclaration (member : Pools.Member) (kind : MemberKind) :
    Follows relation (noteRedeclaration member kind) := by
  cases kind with
  | field => exact .pure chained _
  | method => exact .raise chained _

/-- A member is interned and bound, and listed with its class if it is new. -/
theorem follows_declareMember {kind : MemberKind} {image : Image} {owner : ClassKey}
    {id access : Nat} {external : Bool}
    (interned : ∀ member, kind.find? image.container.pools id = some member →
      Follows relation (intern kind.sort (kind.fullName member)
        (kind.make (some owner) member access external (some ⟨image.index, id⟩))))
    (bound : ∀ record key, Follows relation (bind kind.sort record key))
    (listed : ∀ key, Follows relation (updateClass owner (kind.addTo · key))) :
    Follows relation (declareMember kind image owner id access external) := by
  unfold declareMember
  split
  next member found =>
    apply Follows.bind chained (interned member found)
    rintro ⟨key, created⟩
    apply Follows.bind chained (bound _ key)
    intro _
    split
    · exact listed key
    · exact follows_noteRedeclaration chained member kind
  next => exact .fail _

omit chained in
/-- A class is interned, bound and defined, and then come its members. -/
theorem declareClass_ok {image : Image} {position : Nat} {classDef : ClassDef} {state after : Build}
    (ran : declareClass image position classDef state = .ok () after) :
    ∃ name key created s₁ s₂ s₃, image.container.className? classDef = some name ∧
      intern .classes name (fun key => { key, name, external := false : ClassEntity }) state =
        .ok (key, created) s₁ ∧
      bind .classes ⟨image.index, classDef.type⟩ key s₁ = .ok () s₂ ∧
      updateClass key (·.define ⟨image.index, position⟩ classDef.access
        (image.container.superclassName? classDef) (image.container.interfaceNames classDef)) s₂ =
          .ok () s₃ ∧
      ∀ relation : Graph → Graph → Prop, Chained relation →
        (∀ field ∈ classDef.fields, Follows relation (declareField image key field)) →
        (∀ method ∈ classDef.methods, Follows relation (declareMethod image key method)) →
        relation s₃.graph after.graph := by
  unfold declareClass at ran
  cases named : image.container.className? classDef with
  | none =>
    simp only [named] at ran
    cases ran
  | some name =>
    simp only [named] at ran
    obtain ⟨⟨key, created⟩, s₁, interned, ran⟩ := bind_ok ran
    obtain ⟨_, s₂, bound, ran⟩ := bind_ok ran
    obtain ⟨_, s₃, defined, ran⟩ := bind_ok ran
    refine ⟨name, key, created, s₁, s₂, s₃, rfl, interned, bound, defined, ?_⟩
    intro relation chained fields methods
    refine Follows.bind chained (follows_noteRedefinition chained image key) (fun _ => ?_) ran
    refine .bind chained (.forM chained fields) fun _ => ?_
    exact .bind chained (.forM chained methods) fun _ => .raise chained _

theorem follows_declareClass {image : Image} {position : Nat} {classDef : ClassDef}
    (interned : ∀ name, Follows relation
      (intern .classes name fun key => { key, name, external := false : ClassEntity }))
    (bound : ∀ record key, Follows relation (bind .classes record key))
    (defined : ∀ key origin access superclass interfaces,
      Follows relation (updateClass key (·.define origin access superclass interfaces)))
    (fields : ∀ owner, ∀ field ∈ classDef.fields, Follows relation (declareField image owner field))
    (methods : ∀ owner, ∀ method ∈ classDef.methods,
      Follows relation (declareMethod image owner method)) :
    Follows relation (declareClass image position classDef) := by
  intro state _ after ran
  obtain ⟨name, key, _, s₁, s₂, s₃, -, making, binding, defining, members⟩ := declareClass_ok ran
  have made : relation state.graph s₂.graph :=
    chained.trans (interned name making) (bound _ key binding)
  have described : relation s₂.graph s₃.graph := defined key _ _ _ _ defining
  have declared := members relation chained (fields key) (methods key)
  exact chained.trans made (chained.trans described declared)

theorem follows_declareImage (cancelled : Bool) {image : Image}
    (classes : ∀ position, ∀ classDef ∈ image.container.classDefs,
      Follows relation (declareClass image position classDef)) :
    Follows relation (declareImage cancelled image) := by
  refine .forM chained fun (classDef, position) member => ?_
  have defined := List.mem_zipIdx_iff_getElem?.mp member
  refine .bind chained (.ensureRunning chained cancelled) fun _ => classes position classDef ?_
  exact Array.mem_toList_iff.mp (List.mem_of_getElem? defined)

theorem follows_scanImage (cancelled keepUses : Bool) {image : Image}
    (methods : ∀ method, Follows relation (scanMethod keepUses image method)) :
    Follows relation (scanImage cancelled keepUses image) := by
  refine .forM chained fun classDef _ => ?_
  refine .bind chained (.ensureRunning chained cancelled) fun _ => ?_
  exact .forM chained fun method _ => methods method

end

/-! ### What a run adds -/

section

open DexAtlas.Graph (Continues)

variable {δ : Type}

/-- A relation with a list of what a step adds: nothing if nothing changes, and one list behind the
other for two steps in a row. -/
structure Accrues (relation : List δ → Graph → Graph → Prop) : Prop where
  refl : ∀ graph, relation [] graph graph
  trans : ∀ {first second : List δ} {a b c : Graph},
    relation first a b → relation second b c → relation (first ++ second) a c

namespace Accrues

variable {relation : List δ → Graph → Graph → Prop} {step : Builder α} {next : α → Builder β}

theorem chained (accrues : Accrues relation) : Chained (relation []) where
  refl := accrues.refl
  trans first second := by simpa using accrues.trans first second

theorem bind (accrues : Accrues relation) {first others : List δ}
    (begun : Follows (relation first) step) (ended : ∀ a, Follows (relation others) (next a)) :
    Follows (relation (first ++ others)) (step >>= next) := by
  intro state b after ran
  obtain ⟨a, middle, ran, rest⟩ := bind_ok ran
  exact accrues.trans (begun ran) (ended a rest)

/-- A step that adds nothing, and then one that does. -/
theorem later (accrues : Accrues relation) {others : List δ}
    (begun : Follows (relation []) step) (ended : ∀ a, Follows (relation others) (next a)) :
    Follows (relation others) (step >>= next) :=
  accrues.bind begun ended

/-- A step that adds something, and then one that does not. -/
theorem first (accrues : Accrues relation) {first : List δ}
    (begun : Follows (relation first) step) (ended : ∀ a, Follows (relation []) (next a)) :
    Follows (relation first) (step >>= next) := by
  have both := accrues.bind begun ended
  rwa [List.append_nil] at both

theorem forM (accrues : Accrues relation) {ι : Type} {step : ι → Builder Unit}
    {next : ι → List δ} {list : List ι} (each : ∀ i ∈ list, Follows (relation (next i)) (step i)) :
    Follows (relation (list.flatMap next)) (list.forM step) := by
  induction list with
  | nil => exact .pure accrues.chained _
  | cons i rest ih =>
    exact accrues.bind (each i (by simp)) fun _ => ih fun j member => each j (by simp [member])

end Accrues

theorem accrues_continues {fact : List δ → Graph → Prop} : Accrues (Continues fact) where
  refl _ list holds := by simpa using holds
  trans first second list holds := by simpa using second _ (first _ holds)

end

/-! ### What a run reaches -/

/-- The step ends well; the graph has grown and is as promised. -/
def Reaches (step : Builder α) (state : Build) (promised : α → Graph → Prop) : Prop :=
  ∃ a after, step state = .ok a after ∧ state.graph.Extends after.graph ∧ promised a after.graph

/-- From every graph as required the step reaches one as promised. -/
def Ensures (required : Graph → Prop) (step : Builder α) (promised : α → Graph → Prop) : Prop :=
  ∀ state : Build, required state.graph → Reaches step state promised

/-- A fact that survives as the graph grows. -/
def Stable (fact : Graph → Prop) : Prop :=
  ∀ ⦃before after : Graph⦄, before.Extends after → fact before → fact after

namespace Reaches

variable {state : Build} {required : Graph → Prop} {promised : α → Graph → Prop}

theorem pure {a : α} (holds : promised a state.graph) :
    Reaches (Pure.pure a : Builder α) state promised :=
  ⟨a, state, rfl, Graph.Extends.refl _, holds⟩

theorem raise {promised : Unit → Graph → Prop} (notice : Notice)
    (holds : promised () state.graph) : Reaches (Builder.raise notice) state promised :=
  ⟨(), _, rfl, Graph.Extends.refl _, holds⟩

/-- To look at the graph changes nothing. -/
theorem graph {next : Graph → Builder α} (others : Reaches (next state.graph) state promised) :
    Reaches (Builder.graph >>= next) state promised :=
  others

/-- The last step of a run. -/
theorem last {step : Builder α} {reached : α → Graph → Prop}
    (ensures : Ensures required step reached) (holds : required state.graph)
    (enough : ∀ a after, state.graph.Extends after → reached a after → promised a after) :
    Reaches step state promised := by
  obtain ⟨a, after, ran, grown, result⟩ := ensures state holds
  exact ⟨a, after, ran, grown, enough a after.graph grown result⟩

/-- A step, and then the others. -/
theorem bind {step : Builder α} {next : α → Builder β} {reached : α → Graph → Prop}
    {promised : β → Graph → Prop} (ensures : Ensures required step reached)
    (holds : required state.graph)
    (others : ∀ (a : α) (middle : Build), state.graph.Extends middle.graph →
      reached a middle.graph → Reaches (next a) middle promised) :
    Reaches (step >>= next) state promised := by
  obtain ⟨a, middle, ran, grown, result⟩ := ensures state holds
  obtain ⟨b, after, ended, grownOn, reached⟩ := others a middle grown result
  exact ⟨b, after, (bind_of_ok ran).trans ended, grown.trans grownOn, reached⟩

end Reaches

namespace Ensures

variable {required : Graph → Prop}

/-- What is ensured holds of the run that was made. -/
theorem of_run {step : Builder α} {promised : α → Graph → Prop}
    (ensures : Ensures required step promised) {state after : Build} {a : α}
    (holds : required state.graph) (ran : step state = .ok a after) : promised a after.graph := by
  obtain ⟨b, other, alsoRan, -, result⟩ := ensures state holds
  obtain ⟨rfl, rfl⟩ := EStateM.Result.ok.inj (ran.symm.trans alsoRan)
  exact result

theorem forM {ι : Type} {step : ι → Builder Unit} {list : List ι} {fact : ι → Graph → Prop}
    (stable : ∀ i, Stable (fact i))
    (each : ∀ i ∈ list, Ensures required (step i) fun _ graph => required graph ∧ fact i graph) :
    Ensures required (list.forM step) fun _ graph =>
      required graph ∧ ∀ i ∈ list, fact i graph := by
  induction list with
  | nil => exact fun state holds => .pure ⟨holds, by simp⟩
  | cons i rest ih =>
    intro state holds
    refine .bind (each i (by simp)) holds fun _ middle grown ⟨kept, fresh⟩ => ?_
    refine .last (ih fun j member => each j (by simp [member])) kept ?_
    rintro _ after grownOn ⟨keptOn, others⟩
    refine ⟨keptOn, fun j member => ?_⟩
    rcases List.mem_cons.mp member with rfl | member
    · exact stable j grownOn fresh
    · exact others j member

/-- A requirement that every step keeps is kept by all of them. -/
theorem forM_keeps {ι : Type} {step : ι → Builder Unit} {list : List ι}
    (each : ∀ i ∈ list, Ensures required (step i) fun _ graph => required graph) :
    Ensures required (list.forM step) fun _ graph => required graph := by
  induction list with
  | nil => exact fun state holds => .pure holds
  | cons i rest ih =>
    intro state holds
    refine .bind (each i (by simp)) holds fun _ middle _ kept => ?_
    exact ih (fun j member => each j (by simp [member])) middle kept

theorem within (context : Context) {step : Builder α} {promised : α → Graph → Prop}
    (inner : Ensures required step promised) :
    Ensures required (Builder.within context step) promised := by
  intro state holds
  obtain ⟨a, after, ran, reached⟩ := inner state holds
  exact ⟨a, after, within_of_ok ran, reached⟩

end Ensures

end Builder

/-- A graph that was built is what the three passes left. -/
theorem Graph.build_ok {cancelled keepUses : Bool} {images : List Image} {graph : Graph}
    (built : (Graph.build cancelled keepUses images).outcome = .ok graph) :
    ∃ state, Builder.package cancelled keepUses images {} = .ok () state ∧ state.graph = graph := by
  unfold Graph.build at built
  split at built
  next state ran => exact ⟨state, ran, Except.ok.inj built⟩
  next => cases built

end DexAtlas
