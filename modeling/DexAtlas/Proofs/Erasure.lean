import DexAtlas.Proofs.Completeness

/-!
# Leaving uses out

Whether uses are kept makes no difference to anything else. Both constructions run in step: what one
makes of a graph with uses, the other makes of the same graph with all uses erased. The steps that
declare, link and meet entities never look at a use. The steps that note a use change nothing else,
so on the erased graph there is nothing left for them to do.
-/
namespace DexAtlas

/-! ### Graphs without uses -/

namespace Entity

/-- An entity with its lists of uses emptied. -/
def withoutUses : (kind : EntityKind) → Entity kind → Entity kind
  | .classes => fun c => { c with incoming := #[], outgoing := #[] }
  | .methods => fun m => { m with callers := #[], uses := #[] }
  | .fields => fun f => { f with reads := #[], writes := #[] }
  | .strings => fun s => { s with loads := #[] }

end Entity

namespace MemberKind

theorem withoutUses_make (kind : MemberKind) (owner : Option ClassKey) (member : Pools.Member)
    (access : Nat) (external : Bool) (location : Option Record) (key : Key kind.sort) :
    Entity.withoutUses kind.sort (kind.make owner member access external location key) =
      kind.make owner member access external location key := by
  cases kind <;> rfl

theorem withoutUses_addTo (kind : MemberKind) (key : Key kind.sort) (c : ClassEntity) :
    Entity.withoutUses .classes (kind.addTo c key) =
      kind.addTo (Entity.withoutUses .classes c) key := by
  cases kind <;> rfl

theorem withoutUses_addSite (kind : MemberKind) (insn : Instruction) (site : Site)
    (entity : Entity kind.sort) :
    Entity.withoutUses kind.sort (kind.addSite insn site entity) =
      Entity.withoutUses kind.sort entity := by
  cases kind with
  | field =>
    unfold addSite
    split <;> rfl
  | method => rfl

end MemberKind

/-- The same graph with every list of uses emptied. -/
def Graph.withoutUses (graph : Graph) : Graph where
  classes := graph.classes.map (Entity.withoutUses .classes)
  methods := graph.methods.map (Entity.withoutUses .methods)
  fields := graph.fields.map (Entity.withoutUses .fields)
  strings := graph.strings.map (Entity.withoutUses .strings)

def Build.withoutUses (state : Build) : Build := { state with graph := state.graph.withoutUses }

namespace Graph

@[simp] theorem registry_withoutUses (graph : Graph) (kind : EntityKind) :
    graph.withoutUses.registry kind = (graph.registry kind).map (Entity.withoutUses kind) := by
  cases kind <;> rfl

theorem withoutUses_set (graph : Graph) (kind : EntityKind)
    (registry : Registry kind (Entity kind)) :
    (graph.set kind registry).withoutUses =
      graph.withoutUses.set kind (registry.map (Entity.withoutUses kind)) := by
  cases kind <;> rfl

theorem set_registry (graph : Graph) (kind : EntityKind) :
    graph.set kind (graph.registry kind) = graph := by
  cases kind <;> rfl

end Graph

namespace Registry

variable {kind : EntityKind} {α : Type}

@[simp] theorem size_map (registry : Registry kind α) (f : α → α) :
    (registry.map f).arena.size = registry.arena.size := by
  simp [map]

@[simp] theorem contains_map (registry : Registry kind α) (f : α → α) (key : Key kind) :
    (registry.map f).contains key = registry.contains key := by
  simp [contains]

/-- Interning looks at no entity. -/
theorem intern_map (registry : Registry kind α) (f : α → α) (name : String) {make : Key kind → α}
    (fixed : ∀ key, f (make key) = make key) :
    (registry.map f).intern name make =
      ((registry.intern name make).1, (registry.intern name make).2.map f) := by
  unfold intern
  cases known : registry.byName[name]? with
  | some key => simp [map, known]
  | none => simp [map, known, fixed]

theorem bind_map (registry : Registry kind α) (f : α → α) (record : Record) (key : Key kind) :
    (registry.map f).bind record key =
      ((registry.bind record key).1, (registry.bind record key).2.map f) := by
  unfold bind
  cases bound : registry.byRecord[record]? with
  | none => simp [map, bound]
  | some other => by_cases same : other = key <;> simp [map, bound, same]

theorem modify_map (registry : Registry kind α) (f : α → α) (key : Key kind) {change : α → α}
    (commutes : ∀ entity, f (change entity) = change (f entity)) :
    (registry.map f).modify key change = (registry.modify key change).map f := by
  have arenas : (registry.arena.map f).modify key.index change =
      (registry.arena.modify key.index change).map f := by
    apply Array.ext_getElem?
    intro place
    simp only [Array.getElem?_modify, Array.getElem?_map]
    by_cases here : key.index = place <;> simp [here, commutes, Function.comp_def]
  simp [modify, map, arenas]

/-- A change that `f` undoes is not seen through `f`. -/
theorem map_modify_eq (registry : Registry kind α) (f : α → α) (key : Key kind) {change : α → α}
    (hidden : ∀ entity, f (change entity) = f entity) :
    (registry.modify key change).map f = registry.map f := by
  simp [modify, map, map_modify_arena registry.arena key.index hidden]

end Registry

/-! ### Runs in step -/

namespace Builder

variable {α β : Type}

/-- Whenever the first step ends well, the second one does the same to the graph without uses. -/
def Mirrors (step mirrored : Builder α) : Prop :=
  ∀ ⦃state a after⦄, step state = .ok a after →
    mirrored state.withoutUses = .ok a after.withoutUses

namespace Mirrors

theorem pure (a : α) : Mirrors (Pure.pure a : Builder α) (Pure.pure a) := by
  intro state b after ran
  obtain ⟨rfl, rfl⟩ := EStateM.Result.ok.inj ran
  rfl

theorem fail {mirrored : Builder α} (cause : Cause) : Mirrors (Builder.fail cause) mirrored := by
  intro state a after ran
  cases ran

theorem raise (notice : Notice) : Mirrors (Builder.raise notice) (Builder.raise notice) := by
  intro state a after ran
  obtain ⟨rfl, rfl⟩ := EStateM.Result.ok.inj ran
  rfl

theorem bind {step mirrored : Builder α} {next mirroredNext : α → Builder β}
    (first : Mirrors step mirrored) (others : ∀ a, Mirrors (next a) (mirroredNext a)) :
    Mirrors (step >>= next) (mirrored >>= mirroredNext) := by
  intro state b after ran
  obtain ⟨a, middle, begun, ended⟩ := bind_ok ran
  rw [bind_of_ok (first begun)]
  exact others a ended

theorem forM {ι : Type} {step mirrored : ι → Builder Unit} {list : List ι}
    (each : ∀ i, Mirrors (step i) (mirrored i)) : Mirrors (list.forM step) (list.forM mirrored) := by
  induction list with
  | nil => exact pure _
  | cons i rest ih => exact bind (each i) fun _ => ih

theorem within (context : Context) {step mirrored : Builder α} (inner : Mirrors step mirrored) :
    Mirrors (Builder.within context step) (Builder.within context mirrored) := by
  intro state a after ran
  exact within_of_ok (inner (within_ok ran))

theorem ensureRunning (cancelled : Bool) :
    Mirrors (Builder.ensureRunning cancelled) (Builder.ensureRunning cancelled) := by
  unfold Builder.ensureRunning
  split
  · exact fail _
  · exact pure _

/-- To look at the graph, and then to go on alike whether or not it shows its uses. -/
theorem graph {next mirroredNext : Graph → Builder α}
    (others : ∀ graph, Mirrors (next graph) (mirroredNext graph.withoutUses)) :
    Mirrors (Builder.graph >>= next) (Builder.graph >>= mirroredNext) := by
  intro state a after ran
  exact others state.graph ran

/-- A step of one registry that goes by names and records only. -/
theorem onRegistry {kind : EntityKind}
    {step : Registry kind (Entity kind) → Except Cause β × Registry kind (Entity kind)}
    (commutes : ∀ registry, step (registry.map (Entity.withoutUses kind)) =
      ((step registry).1, (step registry).2.map (Entity.withoutUses kind))) :
    Mirrors (Builder.onRegistry kind step) (Builder.onRegistry kind step) := by
  intro state b after ran
  have result := commutes (state.graph.registry kind)
  obtain ⟨accepted, -⟩ := onRegistry_ok ran
  have mirrored : (step (state.withoutUses.graph.registry kind)).1 = .ok b := by
    simp only [Build.withoutUses, Graph.registry_withoutUses, result, accepted]
  rw [onRegistry_of_ok accepted] at ran
  obtain ⟨-, rfl⟩ := EStateM.Result.ok.inj ran
  rw [onRegistry_of_ok mirrored]
  simp only [Build.withoutUses, Graph.registry_withoutUses, result, Graph.withoutUses_set]

end Mirrors

theorem mirrors_intern {kind : EntityKind} (name : String) {make : Key kind → Entity kind}
    (unused : ∀ key, Entity.withoutUses kind (make key) = make key) :
    Mirrors (intern kind name make) (intern kind name make) := by
  apply Mirrors.onRegistry
  intro registry
  simp only [Registry.intern_map registry _ name unused]

theorem mirrors_bind {kind : EntityKind} (record : Record) (key : Key kind) :
    Mirrors (bind kind record key) (bind kind record key) :=
  Mirrors.onRegistry fun registry => registry.bind_map _ record key

theorem mirrors_update {kind : EntityKind} {what : String} (key : Key kind)
    {change : Entity kind → Entity kind}
    (commutes : ∀ entity, Entity.withoutUses kind (change entity) =
      change (Entity.withoutUses kind entity)) :
    Mirrors (update kind what key change) (update kind what key change) := by
  apply Mirrors.onRegistry
  intro registry
  by_cases present : registry.contains key = true
  · simp [present, Registry.modify_map registry _ key commutes]
  · simp [present]

/-- A note in the lists of uses leaves nothing to do where there are none. -/
theorem silent_update {kind : EntityKind} {what : String} (key : Key kind)
    {change : Entity kind → Entity kind}
    (hidden : ∀ entity, Entity.withoutUses kind (change entity) = Entity.withoutUses kind entity) :
    Mirrors (update kind what key change) (pure ()) := by
  intro state a after ran
  obtain ⟨accepted, -⟩ := onRegistry_ok ran
  have notices : after.notices = state.notices := by
    rw [update, onRegistry_of_ok accepted] at ran
    obtain ⟨-, rfl⟩ := EStateM.Result.ok.inj ran
    rfl
  have graphs : after.graph.withoutUses = state.graph.withoutUses := by
    rw [(update_ok ran).2, Graph.withoutUses_set, Registry.map_modify_eq _ _ key hidden,
      ← Graph.registry_withoutUses, Graph.set_registry]
  have states : after.withoutUses = state.withoutUses := by
    simp [Build.withoutUses, graphs, notices]
  rw [states]
  rfl

/-- Two notes one after the other. -/
theorem silent_bind {first second : Builder Unit} (begun : Mirrors first (pure ()))
    (ended : Mirrors second (pure ())) : Mirrors (first >>= fun _ => second) (pure ()) :=
  Mirrors.bind begun fun _ => ended

/-! ### Declaring and linking -/

theorem mirrors_noteRedeclaration (member : Pools.Member) (kind : MemberKind) :
    Mirrors (noteRedeclaration member kind) (noteRedeclaration member kind) := by
  cases kind with
  | field => exact .pure _
  | method => exact .raise _

theorem mirrors_declareMember (kind : MemberKind) (image : Image) (owner : ClassKey)
    (id access : Nat) (external : Bool) :
    Mirrors (declareMember kind image owner id access external)
      (declareMember kind image owner id access external) := by
  unfold declareMember
  split
  · apply Mirrors.bind (mirrors_intern _ (kind.withoutUses_make _ _ _ _ _))
    rintro ⟨key, created⟩
    apply Mirrors.bind (mirrors_bind _ _)
    intro _
    split
    · exact mirrors_update owner (kind.withoutUses_addTo key)
    · exact mirrors_noteRedeclaration _ kind
  · exact .fail _

theorem mirrors_noteRedefinition (image : Image) (key : ClassKey) :
    Mirrors (noteRedefinition image key) (noteRedefinition image key) := by
  apply Mirrors.graph
  intro graph
  have entity : graph.withoutUses.classes.get? key =
      (graph.classes.get? key).map (Entity.withoutUses .classes) := Registry.get?_map ..
  rw [entity]
  cases graph.classes.get? key with
  | none => exact .fail _
  | some c =>
    -- the notice is made of the name and the definitions, which are the same
    simp only [Option.map_some]
    by_cases again : 1 < c.definitions.size
    · simp only [Entity.withoutUses, again, if_true]
      exact .raise _
    · simp only [Entity.withoutUses, again, if_false]
      exact .pure _

theorem withoutUses_define (c : ClassEntity) (origin : Origin) (access : Nat)
    (superclass : Option String) (interfaces : List String) :
    Entity.withoutUses .classes (c.define origin access superclass interfaces) =
      ClassEntity.define (Entity.withoutUses .classes c) origin access superclass interfaces := by
  simp only [Entity.withoutUses, ClassEntity.define]
  by_cases first : c.definitions.isEmpty = true <;> simp [first]

theorem mirrors_declareClass (image : Image) (position : Nat) (classDef : ClassDef) :
    Mirrors (declareClass image position classDef) (declareClass image position classDef) := by
  unfold declareClass
  dsimp only
  split
  · apply Mirrors.bind (mirrors_intern _ fun _ => rfl)
    rintro ⟨key, _⟩
    apply Mirrors.bind (mirrors_bind _ key)
    intro _
    apply Mirrors.bind (mirrors_update key fun c => withoutUses_define c _ _ _ _)
    intro _
    apply Mirrors.bind (mirrors_noteRedefinition image key)
    intro _
    apply Mirrors.bind (.forM fun _ => mirrors_declareMember .field image key _ _ _)
    intro _
    apply Mirrors.bind (.forM fun _ => mirrors_declareMember .method image key _ _ _)
    intro _
    exact .raise _
  · exact .fail _

theorem mirrors_declareImage (cancelled : Bool) (image : Image) :
    Mirrors (declareImage cancelled image) (declareImage cancelled image) := by
  apply Mirrors.forM
  rintro ⟨classDef, position⟩
  apply Mirrors.bind (.ensureRunning cancelled)
  intro _
  exact mirrors_declareClass image position classDef

/-- What a name resolves to as a link does not depend on who uses it. -/
theorem resolveLink_withoutUses (classes : Registry .classes ClassEntity) (link : Link) :
    resolveLink (classes.map (Entity.withoutUses .classes)) link = resolveLink classes link := by
  cases link with
  | inside key => rfl
  | outside name =>
    have entity : (classes.map (Entity.withoutUses .classes)).resolve? (.name name) =
        (classes.resolve? (.name name)).map (Entity.withoutUses .classes) := by
      unfold Registry.resolve?
      have known : (classes.map (Entity.withoutUses .classes)).lookup? (.name name) =
          classes.lookup? (.name name) := rfl
      rw [known]
      cases classes.lookup? (.name name) with
      | none => rfl
      | some key => exact Registry.get?_map ..
    simp only [resolveLink, entity]
    cases classes.resolve? (.name name) <;> rfl

theorem mirrors_linkClasses : Mirrors linkClasses linkClasses := by
  apply Mirrors.onRegistry
  intro classes
  have links : resolveLink (classes.map (Entity.withoutUses .classes)) = resolveLink classes :=
    funext (resolveLink_withoutUses classes)
  rw [links]
  simp [Registry.map, Entity.withoutUses, Function.comp_def]

/-! ### Searching code -/

theorem mirrors_classFor (descriptor : String) :
    Mirrors (classFor descriptor) (classFor descriptor) :=
  .bind (mirrors_intern _ fun _ => rfl) fun _ => .pure _

theorem mirrors_ownerFor (descriptor : String) :
    Mirrors (ownerFor descriptor) (ownerFor descriptor) := by
  unfold ownerFor
  split
  · exact .bind (mirrors_classFor descriptor) fun _ => .pure _
  · exact .pure _

theorem mirrors_enrol (created : Bool) (owner : Option ClassKey)
    {change : ClassEntity → ClassEntity}
    (commutes : ∀ c, Entity.withoutUses .classes (change c) =
      change (Entity.withoutUses .classes c)) :
    Mirrors (enrol created owner change) (enrol created owner change) := by
  unfold enrol
  split
  · exact mirrors_update _ commutes
  · exact .pure _

theorem silent_addUse (site : Site) (target : Target) : Mirrors (addUse site target) (pure ()) :=
  silent_update site.method fun _ => rfl

theorem silent_addEdge (source target : Option ClassKey) (use : ClassUse) (site : Site) :
    Mirrors (addEdge source target use site) (pure ()) := by
  unfold addEdge
  split
  · exact silent_bind (silent_update _ fun _ => rfl) (silent_update _ fun _ => rfl)
  · exact .pure _

theorem mirrors_useString (scene : Scene) (index : Nat) (value : String) :
    Mirrors (useString true scene index value) (useString false scene index value) := by
  apply Mirrors.bind
  · apply Mirrors.bind (mirrors_intern _ fun _ => rfl)
    intro _
    exact .bind (mirrors_bind _ _) fun _ => .pure _
  · intro key
    exact silent_bind (silent_update key fun _ => rfl) (silent_addUse _ _)

theorem mirrors_useType (scene : Scene) (index : Nat) (descriptor : String) :
    Mirrors (useType true scene index descriptor) (useType false scene index descriptor) := by
  unfold useType
  split
  · apply Mirrors.bind
    · apply Mirrors.bind (mirrors_classFor _)
      intro key
      split
      · exact .bind (mirrors_bind _ _) fun _ => .pure _
      · exact .bind (.pure _) fun _ => .pure _
    · intro key
      exact silent_bind (silent_addUse _ _) (silent_addEdge _ _ _ _)
  · exact .pure _

theorem mirrors_meetMember (kind : MemberKind) (record : Record) (member : Pools.Member) :
    Mirrors (meetMember kind record member) (meetMember kind record member) := by
  apply Mirrors.bind (mirrors_ownerFor _)
  intro owner
  apply Mirrors.bind (mirrors_intern _ (kind.withoutUses_make _ _ _ _ _))
  rintro ⟨key, created⟩
  apply Mirrors.bind (mirrors_enrol created owner (kind.withoutUses_addTo key))
  intro _
  exact .bind (mirrors_bind _ _) fun _ => .pure _

theorem mirrors_useMember (kind : MemberKind) (scene : Scene) (index : Nat)
    (member : Pools.Member) :
    Mirrors (useMember kind true scene index member) (useMember kind false scene index member) := by
  apply Mirrors.bind (mirrors_meetMember kind _ member)
  rintro ⟨owner, key⟩
  apply silent_bind (silent_update key (kind.withoutUses_addSite scene.insn scene.site))
  exact silent_bind (silent_addUse _ _) (silent_addEdge _ _ _ _)

/-- Every sort of reference makes the same entities in both runs. -/
theorem mirrors_use (scene : Scene) (reference : Reference) :
    Mirrors (use true scene reference) (use false scene reference) := by
  cases reference with
  | string index value => exact mirrors_useString scene index value
  | type index descriptor => exact mirrors_useType scene index descriptor
  | field index member => exact mirrors_useMember .field scene index member
  | method index member => exact mirrors_useMember .method scene index member
  | proto | callSite | methodHandle => exact .pure _

/-- Both runs search the same bodies: which declaration counts is written in its location. -/
theorem mirrors_scanMethod (image : Image) (method : EncodedMethod) :
    Mirrors (scanMethod true image method) (scanMethod false image method) := by
  apply Mirrors.graph
  intro graph
  have bound : graph.withoutUses.methods.lookup? (.record ⟨image.index, method.id⟩) =
      graph.methods.lookup? (.record ⟨image.index, method.id⟩) := rfl
  rw [bound]
  cases graph.methods.lookup? (.record ⟨image.index, method.id⟩) with
  | none => exact .fail _
  | some key =>
    have entity : graph.withoutUses.methods.get? key =
        (graph.methods.get? key).map (Entity.withoutUses .methods) := Registry.get?_map ..
    dsimp only
    rw [entity]
    cases graph.methods.get? key with
    | none => exact .pure _
    | some caller =>
      simp only [Option.map_some, Entity.withoutUses]
      by_cases other : caller.location ≠ some ⟨image.index, method.id⟩
      · simp only [if_pos other]
        exact .pure _
      · simp only [if_neg other]
        cases image.body? method.id with
        | none => exact .pure _
        | some body =>
          exact .forM fun insn => .forM fun reference => mirrors_use _ reference

theorem mirrors_scanImage (cancelled : Bool) (image : Image) :
    Mirrors (scanImage cancelled true image) (scanImage cancelled false image) := by
  apply Mirrors.forM
  intro classDef
  apply Mirrors.bind (.ensureRunning cancelled)
  intro _
  exact .forM fun method => mirrors_scanMethod image method

theorem mirrors_package (cancelled : Bool) (images : List Image) :
    Mirrors (package cancelled true images) (package cancelled false images) := by
  apply Mirrors.bind (.forM fun image => .within _ (mirrors_declareImage cancelled image))
  intro _
  apply Mirrors.bind mirrors_linkClasses
  intro _
  exact .forM fun image => .within _ (mirrors_scanImage cancelled image)

end Builder

namespace Graph

/-- A graph that was built with its uses, built again without. -/
theorem build_mirrored {cancelled : Bool} {images : List Image} {graph : Graph}
    (built : (build cancelled true images).outcome = .ok graph) :
    build cancelled false images = ⟨.ok graph.withoutUses, (build cancelled true images).notices⟩ := by
  obtain ⟨state, ran, rfl⟩ := build_ok built
  have empty : Build.withoutUses {} = {} := by simp [Build.withoutUses, withoutUses, Registry.map]
  have mirrored := Builder.mirrors_package cancelled images ran
  rw [empty] at mirrored
  rw [build, build, ran, mirrored]
  rfl

/-- To keep no uses is to keep all else. The images give a graph either way, and the one without
uses is the other with its lists of uses emptied: the same entities at the same places, under the
same keys, with the same names, records, flags, owners, members and links. The notices are the same
as well. -/
theorem build_without_uses {images : List Image} (numbered : Image.Numbered images) :
    ∃ graph notices, build false true images = ⟨.ok graph, notices⟩ ∧
      build false false images = ⟨.ok graph.withoutUses, notices⟩ := by
  obtain ⟨graph, built, -⟩ := build_populated numbered true
  have whole : build false true images = ⟨.ok graph, (build false true images).notices⟩ := by
    rw [← built]
  exact ⟨graph, _, whole, build_mirrored built⟩

/-- The one method of the sample uses four things, and then none. -/
theorem build_without_uses_sample :
    ∃ graph notices, build false true [Sample.image] = ⟨.ok graph, notices⟩ ∧
      build false false [Sample.image] = ⟨.ok graph.withoutUses, notices⟩ ∧
      ∃ key m, graph.methods.get? key = some m ∧ m.uses.size = 4 ∧
        graph.withoutUses.methods.get? key = some { m with callers := #[], uses := #[] } := by
  obtain ⟨graph, notices, built, erased⟩ := build_without_uses Sample.numbered
  obtain ⟨state, ran, rfl⟩ := build_ok (congrArg Journaled.outcome built)
  have separate : ∀ image ∈ [Sample.image], image.Separate := by
    intro image member
    rw [List.mem_singleton.mp member]
    exact Sample.separate
  obtain ⟨key, m, place, -, present, located⟩ :=
    Builder.declared_located Sample.numbered ran (Sample.lists_iff.mpr rfl)
  have populated := populated_of_build Sample.numbered (congrArg Journaled.outcome built)
  obtain rfl := Sample.lists_iff.mp (populated.1.placed present located).1
  have offsets := congrArg List.length
    ((Builder.package_uses Sample.numbered separate ran present).1 _ located)
  have searched : (state.graph.mentionsIn (Image.bodyAt [Sample.image] ⟨0, 0⟩)).length = 4 := by
    rw [← List.length_map Prod.fst, map_fst_mentionsIn]
    simp only [Image.bodyAt, Image.body?, Sample.image]
    decide +kernel
  have size : m.uses.size = 4 := by
    rw [searched, List.length_map] at offsets
    exact offsets
  have entity : state.graph.withoutUses.methods.get? key =
      (state.graph.methods.get? key).map (Entity.withoutUses .methods) := Registry.get?_map ..
  refine ⟨_, _, built, erased, key, m, present, size, ?_⟩
  rw [entity, present]
  rfl

end Graph

end DexAtlas
