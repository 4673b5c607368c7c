import DexAtlas.Proofs.Building
import DexAtlas.Proofs.Mentions

/-!
# Balance

Every use is kept at both its ends, as often at the one as at the other. A single mention is
balanced by itself, and to add one to balanced traffic keeps the balance, because every table only
has the entries of the mention appended. It does not matter here whether the two ends are one
entity: a method that calls itself and a class that uses itself are counted like any others.
-/
namespace DexAtlas

namespace Traffic

/-! ### Adding a mention appends -/

def empty : Traffic :=
  ⟨fun _ => [], fun _ => [], fun _ => [], fun _ => [], fun _ => [], fun _ => [], fun _ => []⟩

/-- Two tables of each sort, one behind the other. -/
def append (first second : Traffic) : Traffic where
  uses key := first.uses key ++ second.uses key
  callers key := first.callers key ++ second.callers key
  reads key := first.reads key ++ second.reads key
  writes key := first.writes key ++ second.writes key
  loads key := first.loads key ++ second.loads key
  outgoing key := first.outgoing key ++ second.outgoing key
  incoming key := first.incoming key ++ second.incoming key

theorem pushAt_eq {κ β : Type} [DecidableEq κ] (table : κ → List β) (key : κ) (entry : β) :
    pushAt table key entry = fun other => table other ++ pushAt (fun _ => []) key entry other := by
  funext other
  unfold pushAt
  split <;> simp

/-- A mention appends what it would add to no traffic at all. -/
theorem add_eq_append (traffic : Traffic) (mention : Mention) :
    traffic.add mention = traffic.append (empty.add mention) := by
  obtain ⟨site, source, target, used, write⟩ := mention
  cases source <;> cases used <;> cases target <;> cases write <;>
    simp [add, addSite, addUse, addEdge, append, empty, ← pushAt_eq]

/-! ### What one mention adds -/

section

variable (mention : Mention)

theorem uses_add_empty (key : MethodKey) :
    (empty.add mention).uses key = if mention.site.method = key then
      [⟨mention.site.offset, mention.target⟩] else [] := by
  rw [uses_add, pushAt, empty]
  simp [eq_comm]

theorem callers_add_empty (key : MethodKey) :
    (empty.add mention).callers key =
      if mention.target = .ofMethod key then [mention.site] else [] := by
  obtain ⟨site, source, target, used, write⟩ := mention
  cases source <;> cases used <;> cases target <;>
    simp [add, addSite, addUse, addEdge, pushAt, empty, eq_comm]

theorem loads_add_empty (key : StringKey) :
    (empty.add mention).loads key =
      if mention.target = .ofString key then [mention.site] else [] := by
  obtain ⟨site, source, target, used, write⟩ := mention
  cases source <;> cases used <;> cases target <;>
    simp [add, addSite, addUse, addEdge, pushAt, empty, eq_comm]

theorem reads_add_empty (key : FieldKey) :
    (empty.add mention).reads key =
      if mention.target = .ofField key ∧ mention.write = false then [mention.site] else [] := by
  obtain ⟨site, source, target, used, write⟩ := mention
  cases source <;> cases used <;> cases target <;> cases write <;>
    simp [add, addSite, addUse, addEdge, pushAt, empty, eq_comm]

theorem writes_add_empty (key : FieldKey) :
    (empty.add mention).writes key =
      if mention.target = .ofField key ∧ mention.write = true then [mention.site] else [] := by
  obtain ⟨site, source, target, used, write⟩ := mention
  cases source <;> cases used <;> cases target <;> cases write <;>
    simp [add, addSite, addUse, addEdge, pushAt, empty, eq_comm]

/-- An access is a read or a write and never both. -/
theorem accesses_add_empty (key : FieldKey) :
    (empty.add mention).reads key ++ (empty.add mention).writes key =
      if mention.target = .ofField key then [mention.site] else [] := by
  rw [reads_add_empty, writes_add_empty]
  cases mention.write <;> simp

theorem outgoing_add_empty (key : ClassKey) :
    (empty.add mention).outgoing key = if mention.source = some key then
      (mention.used.map fun (b, use) => ⟨b, use, mention.site⟩).toList else [] := by
  obtain ⟨site, source, target, used, write⟩ := mention
  cases source <;> cases used <;> cases target <;>
    simp [add, addSite, addUse, addEdge, pushAt, empty, eq_comm]

theorem incoming_add_empty (key : ClassKey) :
    (empty.add mention).incoming key = (mention.source.toList.flatMap fun a =>
      (mention.used.toList.filter (·.1 = key)).map fun used => ⟨a, used.2, mention.site⟩) := by
  obtain ⟨site, source, target, used, write⟩ := mention
  cases source with
  | none => cases used <;> cases target <;> simp [add, addSite, addUse, addEdge, empty]
  | some a =>
    cases used with
    | none => cases target <;> simp [add, addSite, addUse, addEdge, empty]
    | some used =>
      by_cases same : key = used.1
      · cases target <;> simp [add, addSite, addUse, addEdge, pushAt, empty, same]
      · cases target <;> simp [add, addSite, addUse, addEdge, pushAt, empty, same, Ne.symm same]

theorem edges_add_empty (a b : ClassKey) (use : ClassUse) (site : Site) :
    ((empty.add mention).outgoing a).count ⟨b, use, site⟩ =
      ((empty.add mention).incoming b).count ⟨a, use, site⟩ := by
  obtain ⟨here, source, target, used, write⟩ := mention
  cases source <;> cases used <;> cases target <;>
    simp [add, addSite, addUse, addEdge, pushAt, empty]
  all_goals grind

theorem count_uses_add_empty (method : MethodKey) (offset : Nat) (target : Target) :
    ((empty.add mention).uses method).count ⟨offset, target⟩ =
      (if mention.target = target then [mention.site] else []).count ⟨method, offset⟩ := by
  obtain ⟨⟨here, place⟩, source, other, used, write⟩ := mention
  rw [uses_add_empty]
  by_cases equal : other = target
  · by_cases same : here = method <;> simp [same, equal, List.count_singleton]
  · by_cases same : here = method <;> simp [same, equal]

end

theorem typeUses_add_empty {mention : Mention} (consistent : mention.Consistent)
    {method : MethodKey} {a : ClassKey}
    (source : mention.site.method = method → mention.source = some a) (offset : Nat)
    (b : ClassKey) :
    ((empty.add mention).uses method).count ⟨offset, .ofClass b⟩ =
      ((empty.add mention).outgoing a).countP fun edge =>
        edge.other = b ∧ edge.site = ⟨method, offset⟩ ∧ edge.use.ofType := by
  rw [count_uses_add_empty, outgoing_add_empty]
  by_cases named : mention.target = .ofClass b
  · obtain ⟨use, used, typed⟩ : ∃ use, mention.used = some (b, use) ∧ use.ofType = true := by
      unfold Mention.Consistent at consistent
      rwa [named] at consistent
    by_cases here : mention.site = ⟨method, offset⟩
    · simp [named, used, typed, here, source (by rw [here])]
    · by_cases same : mention.source = some a <;> simp [named, used, here, same]
  · rw [if_neg named, List.count_nil, eq_comm, List.countP_eq_zero]
    intro edge member matching
    obtain ⟨rfl, -, typed⟩ := of_decide_eq_true matching
    split at member
    · obtain ⟨⟨other, use⟩, used, rfl⟩ := Option.map_eq_some_iff.mp (Option.mem_toList.mp member)
      exact named (Mention.Consistent.target_eq consistent used typed)
    · cases member

end Traffic

/-! ### The invariant -/

namespace Graph

/-- The class of the method at a key. -/
def ownerOf (graph : Graph) : MethodKey → Option ClassKey :=
  graph.methods.view MethodEntity.owner none

/-- Both ends of every use agree. -/
structure Balanced (graph : Graph) : Prop where
  calls : ∀ method offset callee,
    (graph.traffic.uses method).count ⟨offset, .ofMethod callee⟩ =
      (graph.traffic.callers callee).count ⟨method, offset⟩
  loads : ∀ method offset string,
    (graph.traffic.uses method).count ⟨offset, .ofString string⟩ =
      (graph.traffic.loads string).count ⟨method, offset⟩
  accesses : ∀ method offset field,
    (graph.traffic.uses method).count ⟨offset, .ofField field⟩ =
      (graph.traffic.reads field ++ graph.traffic.writes field).count ⟨method, offset⟩
  edges : ∀ a b use site,
    (graph.traffic.outgoing a).count ⟨b, use, site⟩ =
      (graph.traffic.incoming b).count ⟨a, use, site⟩
  /-- The code that makes a class use another belongs to the class. -/
  sources : ∀ a, ∀ edge ∈ graph.traffic.outgoing a, graph.ownerOf edge.site.method = some a
  /-- A class that is named by code has as many edges for that from the class of the code. -/
  typeUses : ∀ method offset a b, graph.ownerOf method = some a →
    (graph.traffic.uses method).count ⟨offset, .ofClass b⟩ =
      (graph.traffic.outgoing a).countP fun edge =>
        edge.other = b ∧ edge.site = ⟨method, offset⟩ ∧ edge.use.ofType

variable {before after : Graph}

theorem ownerOf_of_get? {key : MethodKey} {m : MethodEntity}
    (present : before.methods.get? key = some m) : before.ownerOf key = m.owner :=
  Registry.view_of_get? present _ _

/-- A class that a method has once it keeps. -/
theorem Settled.ownerOf (settled : Settled before after) {key : MethodKey} {owner : ClassKey}
    (owned : before.ownerOf key = some owner) : after.ownerOf key = some owner := by
  cases present : before.methods.get? key with
  | none => simp [Graph.ownerOf, Registry.view, present] at owned
  | some m =>
    obtain ⟨m', present', same, -⟩ := settled key m present
    rw [ownerOf_of_get? present', same, ← ownerOf_of_get? present, owned]

/-- A method that has a class had it before, or was not there and used nothing. -/
theorem Settled.ownerOf_cases (settled : Settled before after) {key : MethodKey} {owner : ClassKey}
    (owned : after.ownerOf key = some owner) :
    before.ownerOf key = some owner ∨
      before.ownerOf key = none ∧ before.traffic.uses key = [] := by
  cases present : before.methods.get? key with
  | none => exact .inr (by simp [Graph.ownerOf, Graph.traffic, Registry.view, present])
  | some m =>
    obtain ⟨m', present', same, -⟩ := settled key m present
    left
    rw [ownerOf_of_get? present, ← same, ← ownerOf_of_get? present', owned]

namespace Balanced

theorem empty : Balanced {} := by
  have none : ({} : Graph).traffic = Traffic.empty := by
    ext <;> simp [traffic, Traffic.empty, Registry.view, Registry.get?]
  constructor <;> simp [none, Traffic.empty]

/-- As long as no use is noted, only new methods can gain a class, and those use nothing yet. -/
theorem typeUses_settled (balanced : Balanced before) (settled : Settled before after)
    {method : MethodKey} {a : ClassKey} (owned : after.ownerOf method = some a) (offset : Nat)
    (b : ClassKey) :
    (before.traffic.uses method).count ⟨offset, .ofClass b⟩ =
      (before.traffic.outgoing a).countP fun edge =>
        edge.other = b ∧ edge.site = ⟨method, offset⟩ ∧ edge.use.ofType := by
  rcases settled.ownerOf_cases owned with known | ⟨new, nothing⟩
  · exact balanced.typeUses method offset a b known
  · -- an edge with this site would name a class that the method did not have
    rw [nothing, List.count_nil, eq_comm, List.countP_eq_zero]
    intro edge member matching
    have source := balanced.sources a edge member
    rw [(of_decide_eq_true matching).2.1, new] at source
    cases source

theorem quiet (balanced : Balanced before) (quiet : Quiet before after) : Balanced after where
  calls := by rw [quiet.traffic]; exact balanced.calls
  loads := by rw [quiet.traffic]; exact balanced.loads
  accesses := by rw [quiet.traffic]; exact balanced.accesses
  edges := by rw [quiet.traffic]; exact balanced.edges
  sources a edge member :=
    quiet.settled.ownerOf (balanced.sources a edge (quiet.traffic ▸ member))
  typeUses method offset a b owned := by
    rw [quiet.traffic]
    exact balanced.typeUses_settled quiet.settled owned offset b

theorem add (balanced : Balanced before) (settled : Settled before after) {mention : Mention}
    (traffic : after.traffic = before.traffic.add mention) (consistent : mention.Consistent)
    (sourced : after.ownerOf mention.site.method = mention.source) : Balanced after := by
  rw [Traffic.add_eq_append] at traffic
  constructor
  · intro method offset callee
    rw [traffic, Traffic.append, List.count_append, List.count_append, balanced.calls,
      Traffic.count_uses_add_empty, Traffic.callers_add_empty]
  · intro method offset string
    rw [traffic, Traffic.append, List.count_append, List.count_append, balanced.loads,
      Traffic.count_uses_add_empty, Traffic.loads_add_empty]
  · -- reads and writes are two tables, but together they gain one site
    intro method offset field
    have new := Traffic.accesses_add_empty mention field
    have counted := congrArg (List.count ⟨method, offset⟩) new
    have old := balanced.accesses method offset field
    rw [List.count_append] at counted old
    rw [traffic, Traffic.append, List.count_append, Traffic.count_uses_add_empty, ← counted, old]
    simp only [List.count_append]
    omega
  · intro a b use site
    rw [traffic, Traffic.append, List.count_append, List.count_append, balanced.edges,
      Traffic.edges_add_empty]
  · intro a edge member
    rw [traffic, Traffic.append, List.mem_append] at member
    rcases member with old | new
    · exact settled.ownerOf (balanced.sources a edge old)
    · rw [Traffic.outgoing_add_empty] at new
      split at new
      next source =>
        obtain ⟨⟨b, use⟩, -, rfl⟩ := Option.map_eq_some_iff.mp (Option.mem_toList.mp new)
        rw [sourced, source]
      next => cases new
  · intro method offset a b owned
    have source : mention.site.method = method → mention.source = some a := by
      rintro rfl
      rw [← sourced, owned]
    rw [traffic, Traffic.append, List.count_append, List.countP_append,
      balanced.typeUses_settled settled owned, Traffic.typeUses_add_empty consistent source]

end Balanced

/-- A method with its class. -/
def Holds (method : MethodKey) (owner : Option ClassKey) (graph : Graph) : Prop :=
  ∃ m, graph.methods.get? method = some m ∧ m.owner = owner

theorem Holds.grow {method : MethodKey} {owner : Option ClassKey}
    (holds : Holds method owner before) (settled : Settled before after) :
    Holds method owner after := by
  obtain ⟨m, present, rfl⟩ := holds
  obtain ⟨m', present', same, -⟩ := settled method m present
  exact ⟨m', present', same⟩

end Graph

/-! ### Whole runs -/

namespace Builder

open DexAtlas.Graph (Balanced Grows Holds Quiet)

/-- The graph grows and stays balanced. -/
structure Sustains (before after : Graph) : Prop extends Grows before after where
  balanced : Balanced before → Balanced after

theorem chained_sustains : Chained Sustains where
  refl graph := ⟨chained_grows.refl graph, id⟩
  trans first second := ⟨chained_grows.trans first.toGrows second.toGrows,
    fun balanced => second.balanced (first.balanced balanced)⟩

theorem sustains_of_quiet {α : Type} {step : Builder α} (quiet : Follows Quiet step) :
    Follows Sustains step :=
  fun _ _ _ ran => ⟨(quiet ran).toGrows, fun balanced => balanced.quiet (quiet ran)⟩

/-- The same for code of a method: its class must be the one in the graph. -/
structure SustainsFor (method : MethodKey) (owner : Option ClassKey) (before after : Graph) :
    Prop extends Grows before after where
  balanced : Holds method owner before → Balanced before → Balanced after

theorem chained_sustainsFor (method : MethodKey) (owner : Option ClassKey) :
    Chained (SustainsFor method owner) where
  refl graph := ⟨chained_grows.refl graph, fun _ => id⟩
  trans first second := ⟨chained_grows.trans first.toGrows second.toGrows, fun holds balanced =>
    second.balanced (holds.grow first.settled) (first.balanced holds balanced)⟩

theorem sustains_use (keepUses : Bool) (scene : Scene) (reference : Reference) :
    Follows (SustainsFor scene.site.method scene.owner) (use keepUses scene reference) := by
  intro state _ after ran
  cases use_ok ran with
  | skipped quiet => exact ⟨quiet.toGrows, fun _ balanced => balanced.quiet quiet⟩
  | noted _ _ mention _ _ located consistent _ grows traffic =>
    obtain ⟨site, source⟩ := located
    refine ⟨grows, fun holds balanced => balanced.add grows.settled traffic consistent ?_⟩
    obtain ⟨m, present, owner⟩ := holds.grow grows.settled
    rw [site, source, Graph.ownerOf_of_get? present, owner]

theorem sustains_searchBody (keepUses : Bool) (image : Nat) (key : MethodKey)
    (owner : Option ClassKey) (body : Array Instruction) :
    Follows (SustainsFor key owner) (searchBody keepUses image key owner body) :=
  .forM (chained_sustainsFor _ _) fun _ _ =>
    .forM (chained_sustainsFor _ _) fun reference _ => sustains_use keepUses _ reference

theorem sustains_scanMethod (keepUses : Bool) (image : Image) (method : EncodedMethod) :
    Follows Sustains (scanMethod keepUses image method) := by
  intro state _ after ran
  cases scanMethod_ok ran with
  | passed unchanged => exact unchanged ▸ chained_sustains.refl _
  | searched key caller body _ present _ _ ran =>
    have sustained := sustains_searchBody keepUses image.index key caller.owner body ran
    exact ⟨sustained.toGrows, sustained.balanced ⟨caller, present, rfl⟩⟩

theorem sustains_package (cancelled keepUses : Bool) (images : List Image) :
    Follows Sustains (package cancelled keepUses images) := by
  refine .bind chained_sustains (.forM chained_sustains fun image _ => .within _ ?_) fun _ => ?_
  · exact sustains_of_quiet (quiet_declareImage cancelled image)
  refine .bind chained_sustains (sustains_of_quiet quiet_linkClasses) fun _ => ?_
  refine .forM chained_sustains fun image _ => .within _ ?_
  exact follows_scanImage chained_sustains cancelled keepUses (sustains_scanMethod keepUses image)

end Builder

/-- In the graph of any images, loaded or not, both ends of every use agree. -/
theorem Graph.build_balanced {cancelled keepUses : Bool} {images : List Image} {graph : Graph}
    (built : (Graph.build cancelled keepUses images).outcome = .ok graph) : graph.Balanced := by
  obtain ⟨state, ran, rfl⟩ := Graph.build_ok built
  exact (Builder.sustains_package cancelled keepUses images ran).balanced Graph.Balanced.empty

theorem Graph.build_balanced_sample :
    ∃ graph, (Graph.build false true [Sample.image]).outcome = .ok graph ∧ graph.Balanced := by
  obtain ⟨graph, built, -⟩ := Graph.build_populated Sample.numbered true
  exact ⟨graph, built, Graph.build_balanced built⟩

end DexAtlas
