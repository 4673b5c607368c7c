import DexAtlas.Proofs.Quotations

/-!
# No orphans

An entity that no image declares is in the graph because some code uses it, and that use is kept.
Such an entity is made before the use is noted, and it may be made on the way to another one, as the
class of a member is; but the note follows in the same step of the search, at the entity and at the
class that is used with it. The class of the caller is known, since only declared code is searched.
Also, whatever holds a key holds one that leads to an entity: what is used is known by a name, and
all other ends are found from there, since every use is kept at both its ends.
-/
namespace DexAtlas

/-! ### Citations -/

namespace Traffic

/-- The places that are kept where something is used. A class keeps them with its incoming edges. -/
def sites (traffic : Traffic) : Target → List Site
  | .ofClass key => (traffic.incoming key).map ClassEdge.site
  | .ofMethod key => traffic.callers key
  | .ofField key => traffic.reads key ++ traffic.writes key
  | .ofString key => traffic.loads key

/-- Whether any use of something is kept. -/
def Cites (traffic : Traffic) (target : Target) : Prop := traffic.sites target ≠ []

variable {traffic : Traffic} {mention : Mention}

/-- A mention takes no use away. -/
theorem Cites.add {target : Target} (cited : traffic.Cites target) (mention : Mention) :
    (traffic.add mention).Cites target := by
  unfold Cites at cited ⊢
  rw [add_eq_append]
  cases target <;> simp [sites, append] at cited ⊢ <;> tauto

/-- The class that is used with a target is cited if the class of the code is known. -/
theorem cites_used {a b : ClassKey} {use : ClassUse} (source : mention.source = some a)
    (used : mention.used = some (b, use)) : (traffic.add mention).Cites (.ofClass b) := by
  rw [add_eq_append]
  simp [Cites, sites, append, incoming_add_empty, source, used]

/-- So is the target itself, be it a class or not. -/
theorem cites_target (consistent : mention.Consistent) {a : ClassKey}
    (source : mention.source = some a) : (traffic.add mention).Cites mention.target := by
  unfold Mention.Consistent at consistent
  cases named : mention.target with
  | ofClass key =>
    rw [named] at consistent
    obtain ⟨use, used, -⟩ := consistent
    exact cites_used source used
  | ofMethod key =>
    rw [add_eq_append]
    simp [Cites, sites, append, callers_add_empty, named]
  | ofField key =>
    rw [add_eq_append]
    cases write : mention.write <;>
      simp [Cites, sites, append, reads_add_empty, writes_add_empty, named, write]
  | ofString key =>
    rw [add_eq_append]
    simp [Cites, sites, append, loads_add_empty, named]

end Traffic

namespace Graph

/-- A name that is known is one of the new ones, or it leads where it led. -/
theorem Knows.target?_cases {before after : Graph} {names more : List (EntityKind × String)}
    (knows : before.Knows names) (knowsMore : after.Knows (names ++ more))
    (grown : before.Extends after) {kind : EntityKind} {name : String} {target : Target}
    (known : after.target? kind name = some target) :
    before.target? kind name = some target ∨ (kind, name) ∈ more := by
  obtain ⟨key, leads, rfl⟩ := Option.map_eq_some_iff.mp known
  have listed := (knowsMore.names kind name).mp ((Registry.mem_byName_iff _).mpr ⟨key, leads⟩)
  rcases List.mem_append.mp listed with old | new
  · left
    obtain ⟨other, led⟩ := (Registry.mem_byName_iff _).mp ((knows.names kind name).mpr old)
    obtain rfl := Option.some.inj (((grown kind).names led).symm.trans leads)
    exact Option.map_eq_some_iff.mpr ⟨other, led, rfl⟩
  · exact .inr new

/-- What a graph knows beyond the names of a first graph is cited, and what it uses is known. -/
structure Attends (start graph : Graph) : Prop where
  knows : ∃ names, graph.Knows names
  cited : ∀ kind name target, graph.target? kind name = some target →
    name ∈ (start.registry kind).byName ∨ graph.traffic.Cites target
  targets : ∀ key, ∀ use ∈ graph.traffic.uses key,
    ∃ kind name, graph.target? kind name = some use.target

end Graph

/-- A quote names what its reference names, and uses the same class with it. -/
theorem Reference.names_of_quote? {caller source : String} {insn : Instruction}
    {reference : Reference} {quote : Quote}
    (quoted : reference.quote? caller source insn = some quote) :
    reference.named? = some (quote.kind, quote.target) ∧ reference.used? insn = quote.used := by
  cases reference with
  | type index descriptor =>
    obtain ⟨used, isUsed, rfl⟩ := Option.map_eq_some_iff.mp quoted
    refine ⟨?_, isUsed⟩
    cases mnemonic : ClassUse.ofMnemonic? insn.name <;>
      cases behind : Descriptor.elementClass? descriptor <;>
      simp only [used?, mnemonic, behind, reduceCtorEq, Option.some.injEq] at isUsed
    simp [named?, behind, ← isUsed]
  | string | field | method =>
    obtain rfl := Option.some.inj quoted
    exact ⟨rfl, rfl⟩
  | proto | callSite | methodHandle => cases quoted

/-! ### The search -/

namespace Builder

open DexAtlas.Graph (Attends Grows Knows)

variable {start final : Graph} {owner : ClassKey}

/-- The use of a reference by the code of a class. -/
theorem attends_use {scene : Scene} (owned : scene.owner = some owner) (reference : Reference) :
    Follows (fun before after => start.Attends before → start.Attends after)
      (use true scene reference) := by
  rintro state _ after ran ⟨⟨names, knows⟩, cited, targets⟩
  have knowsMore := knows_use true scene "" "" reference ran names knows
  cases use_ok ran with
  | skipped quiet reason =>
    -- what is not noted is not quoted either, so no name becomes known
    rw [Reference.quote?_eq_none (reason rfl)] at knowsMore
    refine ⟨⟨_, knowsMore⟩, fun kind name target known => ?_, fun key use member => ?_⟩
    · rw [quiet.traffic]
      rcases knows.target?_cases knowsMore quiet.larger known with before | new
      · exact cited kind name target before
      · cases new
    · rw [quiet.traffic] at member
      obtain ⟨kind, name, known⟩ := targets key use member
      exact ⟨kind, name, quiet.larger.target? known⟩
  | noted kind name mention kept named located consistent target grows traffic used =>
    have source : mention.source = some owner := located.2.trans owned
    refine ⟨⟨_, knowsMore⟩, fun other word found known => ?_, fun key use member => ?_⟩
    · rw [traffic]
      rcases knows.target?_cases knowsMore grows.larger known with before | new
      · exact (cited other word found before).imp_right fun before => before.add mention
      -- a name that is new is the one that is used, or that of the class used with it
      right
      obtain ⟨quote, quoted, listed⟩ := List.mem_flatMap.mp new
      obtain ⟨names, uses⟩ := Reference.names_of_quote? (Option.mem_toList.mp quoted)
      rcases List.mem_append.mp listed with ofUsed | ofTarget
      · obtain ⟨⟨name, use⟩, isUsed, same⟩ := List.mem_map.mp ofUsed
        obtain ⟨rfl, rfl⟩ := Prod.mk.inj same
        rw [uses, Option.mem_toList.mp isUsed] at used
        obtain ⟨key, leads, rfl⟩ := Option.map_eq_some_iff.mp known
        generalize keyed : mention.used = keys at used
        cases used with
        | some uses =>
          obtain rfl := Option.some.inj (leads.symm.trans uses.1)
          exact Traffic.cites_used source keyed
      · obtain ⟨rfl, rfl⟩ := Prod.mk.inj (List.mem_singleton.mp ofTarget)
        obtain ⟨rfl, rfl⟩ := Prod.mk.inj (Option.some.inj (named.symm.trans names))
        obtain rfl := Option.some.inj (target.symm.trans known)
        exact Traffic.cites_target consistent source
    · rw [traffic, Traffic.uses_add, pushAt] at member
      split at member
      · rcases List.mem_append.mp member with old | new
        · obtain ⟨kind, name, known⟩ := targets key use old
          exact ⟨kind, name, grows.larger.target? known⟩
        · obtain rfl := List.mem_singleton.mp new
          exact ⟨kind, name, target⟩
      · obtain ⟨kind, name, known⟩ := targets key use member
        exact ⟨kind, name, grows.larger.target? known⟩

/-- Between two graphs of a search everything new is cited. The end of the whole search is given
along, where it is known that the methods that are declared have classes. -/
structure Attending (start final before after : Graph) : Prop where
  grows : Grows before after
  attends : Grows after final → start.Attends before → start.Attends after

theorem chained_attending : Chained (Attending start final) where
  refl graph := ⟨chained_grows.refl graph, fun _ => id⟩
  trans first second := by
    refine ⟨chained_grows.trans first.grows second.grows, fun upTo attends => ?_⟩
    exact second.attends upTo (first.attends (chained_grows.trans second.grows upTo) attends)

theorem attending_scanMethod
    (hosted : ∀ key m, final.methods.get? key = some m → m.location.isSome = true →
      m.owner.isSome = true) (image : Image) (method : EncodedMethod) :
    Follows (Attending start final) (scanMethod true image method) := by
  intro state _ after ran
  cases scanMethod_ok ran with
  | passed unchanged =>
    rw [unchanged]
    exact chained_attending.refl _
  | searched key caller body _ present located _ ran =>
    have grows := (sustains_searchBody true image.index key caller.owner body ran).toGrows
    refine ⟨grows, fun upTo => ?_⟩
    -- the caller keeps its place and its class to the end of the search
    obtain ⟨m, there, owner, location⟩ :=
      (chained_grows.trans grows upTo).settled key caller present
    have isHosted := hosted key m there (by rw [location, located]; rfl)
    rw [owner] at isHosted
    obtain ⟨a, owned⟩ := Option.isSome_iff_exists.mp isHosted
    have chained : Chained fun before after => start.Attends before → start.Attends after :=
      ⟨fun _ => id, fun first second attends => second (first attends)⟩
    refine Follows.forM chained (fun insn _ => ?_) ran
    exact .forM chained fun reference _ => attends_use owned reference

end Builder

/-! ### Declared or cited -/

namespace Entity

/-- An entity that some image declares. No string is declared. -/
def Declared : (kind : EntityKind) → Entity kind → Prop
  | .classes => fun (c : ClassEntity) => c.external = false
  | .methods => fun (m : MethodEntity) => m.location.isSome = true
  | .fields => fun (f : FieldEntity) => f.location.isSome = true
  | .strings => fun _ => False

theorem declared_of_bare {kind : EntityKind} {a b : Entity kind} (same : bare kind a = bare kind b)
    (declared : Declared kind b) : Declared kind a := by
  cases kind with
  | classes =>
    have external := congrArg ClassEntity.external same
    exact external.trans declared
  | methods =>
    have location := congrArg MethodEntity.location same
    exact (congrArg Option.isSome location).trans declared
  | fields =>
    have location := congrArg FieldEntity.location same
    exact (congrArg Option.isSome location).trans declared
  | strings => exact declared

/-- The places where an entity is used. -/
def sites : (kind : EntityKind) → Entity kind → List Site
  | .classes => fun (c : ClassEntity) => c.incoming.toList.map ClassEdge.site
  | .methods => fun (m : MethodEntity) => m.callers.toList
  | .fields => fun (f : FieldEntity) => f.reads.toList ++ f.writes.toList
  | .strings => fun (s : StringEntity) => s.loads.toList

end Entity

theorem Graph.sites_of_get? {graph : Graph} {kind : EntityKind} {key : Key kind}
    {entity : Entity kind} (present : (graph.registry kind).get? key = some entity) :
    graph.traffic.sites (.ofKey kind key) = Entity.sites kind entity := by
  cases kind with
  | classes =>
    have incoming : graph.traffic.incoming key = _ := Registry.view_of_get? present _ _
    exact congrArg (List.map ClassEdge.site) incoming
  | methods => exact Registry.view_of_get? present _ _
  | fields =>
    have reads : graph.traffic.reads key = _ := Registry.view_of_get? present _ _
    have writes : graph.traffic.writes key = _ := Registry.view_of_get? present _ _
    exact congrArg₂ (· ++ ·) reads writes
  | strings => exact Registry.view_of_get? present _ _

namespace Builder

open DexAtlas.Graph (Grows)

variable {images : List Image} {state : Build}

/-- Before code is searched everything is declared. -/
theorem Ready.declared {graph : Graph} (ready : Ready images graph) {kind : EntityKind}
    {entity : Entity kind} (listed : entity ∈ (graph.registry kind).arena) :
    Entity.Declared kind entity := by
  cases kind with
  | classes => exact ready.inside .classes (by decide) entity listed
  | methods =>
    obtain ⟨_, _, _, _, _, located, -⟩ := ready.stem .method entity listed
    exact congrArg Option.isSome located
  | fields =>
    obtain ⟨_, _, _, _, _, located, -⟩ := ready.stem .field entity listed
    exact congrArg Option.isSome located
  | strings =>
    -- images declare no strings, so there are none yet
    obtain ⟨place, found⟩ := Array.mem_iff_getElem?.mp listed
    have leads := ((ready.populated.1.coherent .strings).entities found).2
    have declared := (ready.knows.names _ _).mp ((Registry.mem_byName_iff _).mpr ⟨_, leads⟩)
    simp [Image.names, ClassDef.names] at declared

theorem package_attends (numbered : Image.Numbered images)
    (ran : package false true images {} = .ok () state) :
    ∃ middle, Ready images middle ∧ middle.Meets state.graph ∧ middle.Attends state.graph := by
  obtain ⟨middle, ready, scanned⟩ := package_ready numbered ran
  -- a method with a place stems from a declaration, and so it has a class
  have hosted : ∀ key (m : MethodEntity), state.graph.methods.get? key = some m →
      m.location.isSome = true → m.owner.isSome = true := by
    intro key m present located
    obtain ⟨count, members⟩ := package_members .method ran
    rcases members key.index m present with ⟨-, stems⟩ | ⟨-, nowhere, -⟩
    · obtain ⟨_, _, _, _, _, _, _, owned, -⟩ := stems
      exact owned
    · rw [show m.location = none from nowhere] at located
      cases located
  have attending : Attending middle.graph state.graph middle.graph state.graph :=
    Follows.forM chained_attending (fun image _ => .within _ (follows_scanImage chained_attending
      false true (attending_scanMethod hosted image))) scanned
  refine ⟨middle.graph, ready, follows_scanned searchable_meets false true images scanned,
    attending.attends (chained_grows.refl _) ⟨⟨_, ready.knows⟩, ?_, ?_⟩⟩
  · intro kind name target known
    obtain ⟨key, leads, -⟩ := Option.map_eq_some_iff.mp known
    exact .inl ((Registry.mem_byName_iff _).mpr ⟨key, leads⟩)
  · intro key use member
    rw [ready.unused] at member
    cases member

/-- Every entity is declared or used. -/
theorem package_cites (numbered : Image.Numbered images)
    (ran : package false true images {} = .ok () state) {kind : EntityKind} {key : Key kind}
    {entity : Entity kind} (present : (state.graph.registry kind).get? key = some entity) :
    Entity.Declared kind entity ∨ Entity.sites kind entity ≠ [] := by
  obtain ⟨middle, ready, searched, attends⟩ := package_attends numbered ran
  have formed := (ensures_package numbered true).of_run Graph.WellFormed.empty ran
  cases there : (middle.registry kind).arena[key.index]? with
  | some old =>
    -- it was there before the search, so it was declared
    left
    obtain ⟨same, stillThere, bare⟩ := (searched kind).kept there
    obtain rfl := Option.some.inj (present.symm.trans stillThere)
    exact Entity.declared_of_bare bare (ready.declared (Array.mem_of_getElem? there))
  | none =>
    -- its name was unknown, so it became known by a use
    right
    obtain ⟨unknown, -⟩ := (searched kind).fresh there present
    have leads := (formed.1.coherent kind).lookup?_name present
    rcases attends.cited kind _ _ (Option.map_eq_some_iff.mpr ⟨key, leads, rfl⟩) with old | cited
    · exact absurd old ((Registry.not_mem_byName_iff _).mpr unknown)
    · rwa [Traffic.Cites, Graph.sites_of_get? present] at cited

end Builder

/-! ### Stored keys -/

/-- The key of a link that stays inside the package. -/
def Link.keys : Link → List Target
  | .inside key => [.ofClass key]
  | .outside _ => []

/-- The class at the other end, and the method that holds the code. -/
def ClassEdge.keys (edge : ClassEdge) : List Target :=
  [.ofClass edge.other, .ofMethod edge.site.method]

namespace Entity

/-- What an entity leads to besides its class and the places where it is used: a class to its
ancestors and members and to the classes at its edges, and a method to what its code uses. -/
def references : (kind : EntityKind) → Entity kind → List Target
  | .classes => fun (c : ClassEntity) =>
      (c.superclass.toList ++ c.interfaces).flatMap Link.keys ++
        c.methods.toList.map .ofMethod ++ c.fields.toList.map .ofField ++
        (c.incoming.toList ++ c.outgoing.toList).flatMap ClassEdge.keys
  | .methods => fun (m : MethodEntity) => m.uses.toList.map Use.target
  | .fields | .strings => fun _ => []

/-- All keys that an entity holds, its own among them. -/
def keys (kind : EntityKind) (entity : Entity kind) : List Target :=
  .ofKey kind (key kind entity) :: (owner kind entity).toList.map .ofClass ++
    (sites kind entity).map (fun site => .ofMethod site.method) ++ references kind entity

end Entity

namespace Graph

/-- Whether there is an entity at a key. -/
def has (graph : Graph) : Target → Bool
  | .ofClass key => graph.classes.contains key
  | .ofMethod key => graph.methods.contains key
  | .ofField key => graph.fields.contains key
  | .ofString key => graph.strings.contains key

theorem has_ofKey (graph : Graph) (kind : EntityKind) (key : Key kind) :
    graph.has (.ofKey kind key) = (graph.registry kind).contains key := by
  cases kind <;> rfl

/-- Whatever holds a key holds one that leads to an entity. -/
structure Closed (graph : Graph) : Prop where
  entities : ∀ kind key entity, (graph.registry kind).get? key = some entity →
    ∀ target ∈ Entity.keys kind entity, graph.has target = true
  addresses : ∀ kind address key, (graph.registry kind).lookup? address = some key →
    (graph.registry kind).contains key = true

end Graph

/-! ### Links lead to classes -/

/-- Each link of a class stands for a name. -/
theorem ClassEntity.Merges.named {links : String → Link → Prop} {own : List Definition}
    {c : ClassEntity} (merges : c.Merges links own) {link : Link}
    (linked : link ∈ c.superclass.toList ++ c.interfaces) : ∃ name, links name link := by
  obtain ⟨d, -, -, -, superclass, interfaces⟩ := merges.first
  rcases List.mem_append.mp linked with parent | listed
  · rw [Option.mem_toList.mp parent] at superclass
    generalize d.superclass = name at superclass
    cases superclass with
    | some links => exact ⟨_, links⟩
  · obtain ⟨place, inside, rfl⟩ := List.mem_iff_getElem.mp listed
    exact ⟨_, interfaces.get (interfaces.length_eq ▸ inside) inside⟩

theorem Builder.package_links {images : List Image} (numbered : Image.Numbered images)
    {keepUses : Bool} {state : Build} (ran : package false keepUses images {} = .ok () state)
    {key : ClassKey} {c : ClassEntity} (present : state.graph.classes.get? key = some c)
    {link : Link} (linked : link ∈ c.superclass.toList ++ c.interfaces) {target : Target}
    (stored : target ∈ link.keys) : state.graph.has target = true := by
  have formed := (ensures_package numbered keepUses).of_run Graph.WellFormed.empty ran
  cases link with
  | outside => cases stored
  | inside other =>
    obtain rfl := List.mem_singleton.mp stored
    rcases package_merges numbered ran present with merges | ⟨outside, -⟩
    · obtain ⟨name, -, leads⟩ := merges.named linked
      exact (formed.1.coherent .classes).contains leads
    · -- a class that is only used has no ancestors
      obtain ⟨-, -, -, superclass, interfaces⟩ := outside
      rw [superclass, interfaces] at linked
      cases linked

/-! ### Sites and edges lead to methods and classes -/

namespace Registry

variable {kind : EntityKind} {α β : Type}

/-- Only an entity has a list with anything in it. -/
theorem contains_of_mem_view {registry : Registry kind α} {key : Key kind} {f : α → List β}
    {entry : β} (member : entry ∈ registry.view f [] key) : registry.contains key = true := by
  cases present : registry.get? key with
  | none => simp [view, present] at member
  | some entity => exact (contains_iff _ _).mpr ⟨entity, present⟩

theorem Coherent.contains_key {naming : Record → Option String}
    {registry : Registry kind (Entity kind)} (coherent : Coherent naming registry)
    {entity : Entity kind} (listed : entity ∈ registry.arena) :
    registry.contains (Entity.key kind entity) = true := by
  obtain ⟨place, found⟩ := Array.mem_iff_getElem?.mp listed
  rw [(coherent.entities found).1]
  exact coherent.contains (coherent.entities found).2

end Registry

namespace Graph

variable {graph : Graph} {images : List Image}

private theorem mem_of_count_eq {α β : Type} [DecidableEq α] [DecidableEq β] {xs : List α}
    {ys : List β} {a : α} {b : β} (counted : xs.count a = ys.count b) (listed : b ∈ ys) :
    a ∈ xs := by
  rw [← List.count_pos_iff, counted, List.count_pos_iff]
  exact listed

theorem contains_of_ownerOf {method : MethodKey} {owner : ClassKey}
    (owned : graph.ownerOf method = some owner) : graph.methods.contains method = true := by
  cases present : graph.methods.get? method with
  | none => simp [ownerOf, Registry.view, present] at owned
  | some m => exact (Registry.contains_iff _ _).mpr ⟨m, present⟩

/-- A class that uses another is there, and so is the method that makes it do so. -/
theorem Balanced.contains_source (balanced : graph.Balanced) {key : ClassKey} {edge : ClassEdge}
    (kept : edge ∈ graph.traffic.incoming key) :
    graph.classes.contains edge.other = true ∧ graph.methods.contains edge.site.method = true := by
  have outgoing := mem_of_count_eq (balanced.edges edge.other key edge.use edge.site) kept
  have source := balanced.sources edge.other ⟨key, edge.use, edge.site⟩ outgoing
  exact ⟨Registry.contains_of_mem_view outgoing, contains_of_ownerOf source⟩

/-- Where something is used there is code, as the use is kept there as well. -/
theorem Balanced.contains_site (balanced : graph.Balanced) {target : Target} {site : Site}
    (kept : site ∈ graph.traffic.sites target) :
    graph.methods.contains site.method = true := by
  cases target with
  | ofClass key =>
    obtain ⟨edge, listed, rfl⟩ := List.mem_map.mp kept
    exact (balanced.contains_source listed).2
  | ofMethod key =>
    exact Registry.contains_of_mem_view (mem_of_count_eq (balanced.calls _ _ key) kept)
  | ofField key =>
    exact Registry.contains_of_mem_view (mem_of_count_eq (balanced.accesses _ _ key) kept)
  | ofString key =>
    exact Registry.contains_of_mem_view (mem_of_count_eq (balanced.loads _ _ key) kept)

/-- Both ends of an edge are classes, and its site is in a method. -/
theorem Balanced.has_edge (balanced : graph.Balanced) {key : ClassKey} {edge : ClassEdge}
    (kept : edge ∈ graph.traffic.incoming key ++ graph.traffic.outgoing key) {target : Target}
    (stored : target ∈ edge.keys) : graph.has target = true := by
  have ends : graph.classes.contains edge.other = true ∧
      graph.methods.contains edge.site.method = true := by
    rcases List.mem_append.mp kept with incoming | outgoing
    · exact balanced.contains_source incoming
    · have incoming :=
        mem_of_count_eq (balanced.edges key edge.other edge.use edge.site).symm outgoing
      exact ⟨Registry.contains_of_mem_view incoming,
        contains_of_ownerOf (balanced.sources _ _ outgoing)⟩
  rcases List.mem_cons.mp stored with rfl | stored
  · exact ends.1
  · obtain rfl := List.mem_singleton.mp stored
    exact ends.2

theorem has_of_known (formed : graph.WellFormed images) {kind : EntityKind} {name : String}
    {target : Target} (known : graph.target? kind name = some target) :
    graph.has target = true := by
  obtain ⟨key, leads, rfl⟩ := Option.map_eq_some_iff.mp known
  rw [has_ofKey]
  exact (formed.coherent kind).contains leads

/-- A key in the list of a class is that of a member. -/
theorem Membership.contains_member {kind : EntityKind} (membership : graph.Membership kind)
    (formed : graph.WellFormed images) {key : ClassKey} {c : ClassEntity}
    (present : graph.classes.get? key = some c) {k : Key kind} (listed : k ∈ c.members kind) :
    (graph.registry kind).contains k = true := by
  rw [membership.listed key c present] at listed
  obtain ⟨m, there, rfl⟩ := List.mem_map.mp listed
  have inArena := Array.mem_toList_iff.mp (List.mem_filter.mp there).1
  exact (formed.coherent kind).contains_key inArena

/-- What the entities of a graph that was built refer to. -/
theorem references_resolve (numbered : Image.Numbered images)
    (built : (build false true images).outcome = .ok graph) {kind : EntityKind} {key : Key kind}
    {entity : Entity kind} (present : (graph.registry kind).get? key = some entity)
    {target : Target} (stored : target ∈ Entity.references kind entity) :
    graph.has target = true := by
  have formed := (populated_of_build numbered built).1
  have methods := membership_of_build .method numbered built
  have fields := membership_of_build .field numbered built
  obtain ⟨state, ran, rfl⟩ := build_ok built
  cases kind with
  | classes =>
    simp only [Entity.references, List.mem_append, List.mem_map] at stored
    rcases stored with ((linked | ⟨k, listed, rfl⟩) | ⟨k, listed, rfl⟩) | edged
    · obtain ⟨link, linked, inLink⟩ := List.mem_flatMap.mp linked
      exact Builder.package_links numbered ran present linked inLink
    · exact methods.contains_member formed present listed
    · exact fields.contains_member formed present listed
    · obtain ⟨edge, kept, inEdge⟩ := List.mem_flatMap.mp edged
      have incoming : state.graph.traffic.incoming key = _ := Registry.view_of_get? present _ _
      have outgoing : state.graph.traffic.outgoing key = _ := Registry.view_of_get? present _ _
      have balanced := (Builder.sustains_package false true images ran).balanced Balanced.empty
      rw [← incoming, ← outgoing] at kept
      exact balanced.has_edge kept inEdge
  | methods =>
    obtain ⟨use, used, rfl⟩ := List.mem_map.mp stored
    have uses : state.graph.traffic.uses key = _ := Registry.view_of_get? present _ _
    rw [← uses] at used
    obtain ⟨middle, -, -, attends⟩ := Builder.package_attends numbered ran
    obtain ⟨kind, name, known⟩ := attends.targets key use used
    exact has_of_known formed known
  | fields | strings => cases stored

theorem closed_of_build (numbered : Image.Numbered images)
    (built : (build false true images).outcome = .ok graph) : graph.Closed := by
  have formed := (populated_of_build numbered built).1
  constructor
  · intro kind key entity present target stored
    simp only [Entity.keys, List.cons_append, List.mem_cons, List.mem_append, List.mem_map]
      at stored
    rcases stored with rfl | (⟨owner, owned, rfl⟩ | ⟨site, kept, rfl⟩) | referred
    · rw [has_ofKey]
      exact (formed.coherent kind).contains_key (Array.mem_of_getElem? present)
    · exact formed.owned present (Option.mem_toList.mp owned)
    · obtain ⟨state, ran, rfl⟩ := build_ok built
      have balanced := (Builder.sustains_package false true images ran).balanced Balanced.empty
      rw [← sites_of_get? present] at kept
      exact balanced.contains_site kept
    · exact references_resolve numbered built present referred
  · intro kind address key found
    cases address with
    | name name => exact (formed.coherent kind).contains found
    | record record =>
      obtain ⟨name, -, leads⟩ := (formed.coherent kind).records found
      exact (formed.coherent kind).contains leads

/-- What no image declares is used by code: every string, and every class, method or field that
is only used. -/
structure Attested (graph : Graph) : Prop where
  strings : ∀ key s, graph.strings.get? key = some s → s.loads ≠ #[]
  methods : ∀ key m, graph.methods.get? key = some m → m.location = none → m.callers ≠ #[]
  fields : ∀ key f, graph.fields.get? key = some f → f.location = none →
    f.reads ≠ #[] ∨ f.writes ≠ #[]
  classes : ∀ key c, graph.classes.get? key = some c → c.external = true → c.incoming ≠ #[]

theorem attested_of_build (numbered : Image.Numbered images)
    (built : (build false true images).outcome = .ok graph) : graph.Attested := by
  obtain ⟨state, ran, rfl⟩ := build_ok built
  have cites (kind : EntityKind) (key : Key kind) (entity : Entity kind)
      (present : (state.graph.registry kind).get? key = some entity)
      (undeclared : ¬ Entity.Declared kind entity) : Entity.sites kind entity ≠ [] :=
    (Builder.package_cites numbered ran present).resolve_left undeclared
  constructor
  · intro key s present
    have cited := cites .strings key s present id
    exact fun empty => cited (Array.toList_eq_nil_iff.mpr empty)
  · intro key m present nowhere
    have cited := cites .methods key m present (by simp [Entity.Declared, nowhere])
    exact fun empty => cited (Array.toList_eq_nil_iff.mpr empty)
  · intro key f present nowhere
    have cited := cites .fields key f present (by simp [Entity.Declared, nowhere])
    simp only [Entity.sites, ne_eq, List.append_eq_nil_iff, Array.toList_eq_nil_iff, not_and_or]
      at cited
    exact cited
  · intro key c present external
    have cited := cites .classes key c present (by simp [Entity.Declared, external])
    simpa [Entity.sites] using cited

/-- Nothing is an orphan. An entity that is not declared has a use, and every key leads to an
entity: those that entities hold, and those that names and records are bound to. While keys suffice,
each entity is found at its own key, so that all this is said of every entity. -/
theorem no_orphans (numbered : Image.Numbered images)
    (built : (build false true images).outcome = .ok graph) :
    graph.Attested ∧ graph.Closed ∧
    ∀ kind, (graph.registry kind).size < 2 ^ 32 → ∀ entity ∈ (graph.registry kind).arena,
      (graph.registry kind).get? (Entity.key kind entity) = some entity := by
  have formed := (populated_of_build numbered built).1
  refine ⟨attested_of_build numbered built, closed_of_build numbered built, ?_⟩
  intro kind fits entity listed
  exact (formed.coherent kind).get?_key fits listed

/-- The string of the small image, and the method that loads it. -/
theorem no_orphans_sample :
    ∃ graph key s, Image.Numbered [Sample.image] ∧
      (build false true [Sample.image]).outcome = .ok graph ∧
      (∀ kind, (graph.registry kind).size < 2 ^ 32) ∧
      graph.strings.get? key = some s ∧ s.value = "f" ∧ s.loads ≠ #[] ∧
      ∀ site ∈ s.loads, graph.methods.contains site.method = true := by
  obtain ⟨⟨⟩, state, ran, -, populated⟩ :=
    Builder.ensures_package Sample.numbered true {} Graph.WellFormed.empty
  have built : (build false true [Sample.image]).outcome = .ok state.graph := by
    rw [build, ran]
  have fits (kind : EntityKind) : (state.graph.registry kind).size < 2 ^ 32 :=
    Nat.lt_of_le_of_lt (size_le_entityBound built kind) Sample.entityBound_lt
  have separate : ∀ image ∈ [Sample.image], image.Separate := by
    intro image member
    rw [List.mem_singleton.mp member]
    exact Sample.separate
  obtain ⟨k, m, place, -, present, located⟩ :=
    Builder.declared_located Sample.numbered ran (Sample.lists_iff.mpr rfl)
  obtain rfl := Sample.lists_iff.mp (populated.1.placed present located).1
  have body : Image.bodyAt [Sample.image] ⟨0, 0⟩ = Sample.body := by
    simp [Image.bodyAt, Image.body?, Sample.image]
  have uses := (Builder.package_uses Sample.numbered separate ran present).1 _ located
  rw [body] at uses
  -- the first instruction loads the string, so its name is known
  obtain ⟨insn, occurs, place, refers⟩ : ∃ insn ∈ Sample.body.toList,
      insn.offset = 0 ∧ insn.references = [.string 2 "f"] := by decide +kernel
  have loads : (0, state.graph.target? .strings "f") ∈ state.graph.mentionsIn Sample.body := by
    refine List.mem_flatMap.mpr ⟨insn, occurs, List.mem_flatMap.mpr ⟨.string 2 "f", ?_, ?_⟩⟩
    · simp [refers]
    · simp [mentions, Reference.named?, place]
  rw [← uses] at loads
  obtain ⟨use, -, same⟩ := List.mem_map.mp loads
  obtain ⟨key, leads, -⟩ := Option.map_eq_some_iff.mp (congrArg Prod.snd same).symm
  obtain ⟨s, there, named⟩ := (populated.1.coherent .strings).get?_of_name (fits .strings) leads
  obtain ⟨attested, closed, -⟩ := no_orphans Sample.numbered built
  refine ⟨state.graph, key, s, Sample.numbered, built, fits, there, named,
    attested.strings key s there, fun site loaded => ?_⟩
  apply closed.entities .strings key s there (.ofMethod site.method)
  simp only [Entity.keys, Entity.sites, List.mem_append, List.mem_map]
  exact .inl (.inr ⟨site, Array.mem_toList_iff.mpr loaded, rfl⟩)

end Graph

end DexAtlas
