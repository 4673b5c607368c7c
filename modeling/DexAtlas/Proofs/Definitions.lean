import DexAtlas.Proofs.Externals
import Mathlib.Data.List.Forall2

/-!
# Classes and their definitions

A class lists all definitions of its name, in the order of the images and of their positions there.
The first one supplies its access flags and its ancestors, and each ancestor is linked by key if
some image defines it, were it a later one. A class without definitions has nothing of all that and
is external.

In the first pass the registry of classes is a tally of the definitions so far: the definitions that
a class lists are those whose name leads to its key. The second pass only rewrites links, and the
third adds classes that no definition leads to.
-/
namespace DexAtlas

/-! ### Definitions -/

/-- One definition comes before another: in an earlier image, or earlier in the same. -/
def Origin.Before (a b : Origin) : Prop :=
  a.image < b.image ∨ a.image = b.image ∧ a.position < b.position

/-- What a definition says of a class. -/
structure Definition where
  name : String
  origin : Origin
  access : Nat
  superclass : Option String
  interfaces : List String

namespace Image

def definition? (image : Image) (position : Nat) (classDef : ClassDef) : Option Definition :=
  (image.container.className? classDef).map fun name =>
    { name
      origin := ⟨image.index, position⟩
      access := classDef.access
      superclass := image.container.superclassName? classDef
      interfaces := image.container.interfaceNames classDef }

/-- All definitions of an image in order. -/
def definitions (image : Image) : List Definition :=
  image.container.classDefs.toList.zipIdx.flatMap fun entry =>
    (image.definition? entry.2 entry.1).toList

/-- Where an image defines a class, in order. -/
def definitionsIn (image : Image) (name : String) : List Origin :=
  (image.definitions.filter fun d => d.name = name).map Definition.origin

/-- Some image defines a class of that name. -/
def Define (images : List Image) (name : String) : Prop :=
  ∃ image ∈ images, ∃ position, image.className? position = some name

variable {image : Image} {d : Definition}

theorem origin_of_definition? {position : Nat} {classDef : ClassDef}
    (defined : image.definition? position classDef = some d) :
    d.origin = ⟨image.index, position⟩ := by
  obtain ⟨name, -, rfl⟩ := Option.map_eq_some_iff.mp defined
  rfl

theorem name_of_definition? {position : Nat} {classDef : ClassDef}
    (defined : image.definition? position classDef = some d) :
    image.container.className? classDef = some d.name := by
  obtain ⟨name, named, rfl⟩ := Option.map_eq_some_iff.mp defined
  exact named

/-- A class that has a name has a definition of that name. -/
theorem exists_definition? {classDef : ClassDef} {name : String}
    (named : image.container.className? classDef = some name) (position : Nat) :
    ∃ d, image.definition? position classDef = some d ∧ d.name = name ∧
      d.origin = ⟨image.index, position⟩ := by
  rw [definition?, named]
  exact ⟨_, rfl, rfl, rfl⟩

theorem mem_definitions :
    d ∈ image.definitions ↔ ∃ classDef, image.classDef? d.origin.position = some classDef ∧
      image.definition? d.origin.position classDef = some d := by
  simp only [definitions, List.mem_flatMap, Option.mem_toList, List.mem_zipIdx_iff_getElem?,
    Array.getElem?_toList, classDef?]
  constructor
  · rintro ⟨⟨classDef, position⟩, there, defined⟩
    rw [origin_of_definition? defined]
    exact ⟨classDef, there, defined⟩
  · rintro ⟨classDef, there, defined⟩
    exact ⟨(classDef, d.origin.position), there, defined⟩

theorem definitions_ordered (image : Image) :
    image.definitions.Pairwise fun a b => a.origin.Before b.origin := by
  have positions : image.container.classDefs.toList.zipIdx.Pairwise fun a b => a.2 < b.2 := by
    rw [← List.pairwise_map, List.zipIdx_map_snd]
    exact List.pairwise_lt_range' 1
  rw [definitions, List.pairwise_flatMap]
  constructor
  · intro entry _
    cases image.definition? entry.2 entry.1 <;> simp
  · apply positions.imp
    intro a b before first firstIn second secondIn
    rw [Option.mem_toList] at firstIn secondIn
    rw [origin_of_definition? firstIn, origin_of_definition? secondIn]
    exact .inr ⟨rfl, before⟩

variable {images : List Image}

theorem mem_allDefinitions (numbered : Numbered images) :
    d ∈ images.flatMap definitions ↔ ∃ image classDef, images[d.origin.image]? = some image ∧
      image.classDef? d.origin.position = some classDef ∧
      image.definition? d.origin.position classDef = some d := by
  simp only [List.mem_flatMap, mem_definitions]
  constructor
  · rintro ⟨image, member, classDef, there, defined⟩
    have place := numbered.at_index member
    rw [origin_of_definition? defined] at there ⊢
    exact ⟨image, classDef, place, there, by rwa [origin_of_definition? defined] at defined⟩
  · rintro ⟨image, classDef, place, there, defined⟩
    exact ⟨image, List.mem_of_getElem? place, classDef, there, defined⟩

theorem allDefinitions_ordered (numbered : Numbered images) :
    (images.flatMap definitions).Pairwise fun a b => a.origin.Before b.origin := by
  have places : images.Pairwise fun a b => a.index < b.index := by
    rw [List.pairwise_iff_getElem]
    intro i j inside insideToo before
    rw [(numbered i _ (List.getElem?_eq_getElem inside)).2,
      (numbered j _ (List.getElem?_eq_getElem insideToo)).2]
    exact before
  rw [List.pairwise_flatMap]
  constructor
  · exact fun image _ => definitions_ordered image
  · apply places.imp
    intro a b before first firstIn second secondIn
    obtain ⟨_, -, defined⟩ := mem_definitions.mp firstIn
    obtain ⟨_, -, definedToo⟩ := mem_definitions.mp secondIn
    rw [origin_of_definition? defined, origin_of_definition? definedToo]
    exact .inl before

/-- The names that are defined are those of the definitions. -/
theorem define_iff {name : String} :
    Define images name ↔ ∃ d ∈ images.flatMap definitions, d.name = name := by
  simp only [Define, List.mem_flatMap, mem_definitions]
  constructor
  · rintro ⟨image, member, position, named⟩
    obtain ⟨classDef, there, own⟩ := Option.bind_eq_some_iff.mp named
    obtain ⟨d, defined, rfl, origin⟩ := exists_definition? own position
    refine ⟨d, ⟨image, member, classDef, ?_⟩, rfl⟩
    rw [origin]
    exact ⟨there, defined⟩
  · rintro ⟨d, ⟨image, member, classDef, there, defined⟩, rfl⟩
    refine ⟨image, member, d.origin.position, ?_⟩
    rw [className?, there, Option.bind_some, name_of_definition? defined]

end Image

/-! ### A tally of definitions -/

/-- The class is made of these definitions: it lists them all, and takes after the first. How an
ancestor is linked is left open. -/
structure ClassEntity.Merges (links : String → Link → Prop) (own : List Definition)
    (c : ClassEntity) : Prop where
  inside : c.external = false
  definitions : c.definitions.toList = own.map Definition.origin
  first : ∃ d, own.head? = some d ∧ c.name = d.name ∧ c.access = d.access ∧
    Option.Rel links d.superclass c.superclass ∧ List.Forall₂ links d.interfaces c.interfaces

/-- All ancestors are given by name at first. -/
def Link.Named (name : String) (link : Link) : Prop := link = .outside name

namespace ClassEntity

variable {links : String → Link → Prop} {c : ClassEntity} {own : List Definition} (d : Definition)

/-- A further definition is listed and does nothing else. -/
theorem Merges.define (merges : c.Merges links own) :
    (c.define d.origin d.access d.superclass d.interfaces).Merges links (own ++ [d]) := by
  obtain ⟨first, head, name, access, superclass, interfaces⟩ := merges.first
  obtain ⟨rest, split⟩ := List.head?_eq_some_iff.mp head
  have nonempty : c.definitions.isEmpty = false := by
    have listed := merges.definitions
    rw [split] at listed
    cases empty : c.definitions.isEmpty with
    | false => rfl
    | true =>
      rw [Array.isEmpty_iff.mp empty] at listed
      cases listed
  constructor
  · simp [ClassEntity.define, nonempty]
  · simp [ClassEntity.define, nonempty, merges.definitions]
  · refine ⟨first, by rw [List.head?_append, head, Option.some_or], ?_⟩
    simp [ClassEntity.define, nonempty, name, access, superclass, interfaces]

/-- The first definition of a class. -/
theorem merges_define (named : c.name = d.name) (undefined : c.definitions = #[]) :
    (c.define d.origin d.access d.superclass d.interfaces).Merges Link.Named [d] := by
  have superclass : Option.Rel Link.Named d.superclass (d.superclass.map .outside) := by
    cases d.superclass with
    | none => exact .none
    | some name => exact .some rfl
  have interfaces : List.Forall₂ Link.Named d.interfaces (d.interfaces.map .outside) := by
    rw [List.forall₂_map_right_iff, List.forall₂_same]
    exact fun _ _ => rfl
  constructor
  · simp [ClassEntity.define, undefined]
  · simp [ClassEntity.define, undefined]
  · refine ⟨d, rfl, ?_⟩
    simp only [ClassEntity.define, undefined, Array.isEmpty_empty, if_true]
    exact ⟨named, trivial, superclass, interfaces⟩

theorem Merges.of_bare {other : ClassEntity} (merges : c.Merges links own)
    (same : Entity.bare .classes other = Entity.bare .classes c) : other.Merges links own := by
  have name := congrArg ClassEntity.name same
  have external := congrArg ClassEntity.external same
  have definitions := congrArg ClassEntity.definitions same
  have access := congrArg ClassEntity.access same
  have superclass := congrArg ClassEntity.superclass same
  have interfaces := congrArg ClassEntity.interfaces same
  simp only [Entity.bare] at name external definitions access superclass interfaces
  obtain ⟨d, head, taken⟩ := merges.first
  refine ⟨external.trans merges.inside, definitions ▸ merges.definitions, d, head, ?_⟩
  rwa [name, access, superclass, interfaces]

/-- Links may be rewritten one by one. -/
theorem Merges.relink (merges : c.Merges links own) {linksNow : String → Link → Prop}
    {change : Link → Link} (each : ∀ name link, links name link → linksNow name (change link)) :
    Merges linksNow own { c with
      superclass := c.superclass.map change
      interfaces := c.interfaces.map change } := by
  have parent : ∀ {a : Option String} {b : Option Link}, Option.Rel links a b →
      Option.Rel linksNow a (b.map change) := by
    intro a b related
    cases related with
    | none => exact .none
    | some holds => exact .some (each _ _ holds)
  obtain ⟨d, head, name, access, superclass, interfaces⟩ := merges.first
  refine ⟨merges.inside, merges.definitions, d, head, name, access, parent superclass, ?_⟩
  rw [List.forall₂_map_right_iff]
  exact interfaces.imp each

theorem Merges.origin? (merges : c.Merges links own) :
    c.origin? = own.head?.map Definition.origin := by
  rw [ClassEntity.origin?, ← Array.getElem?_toList, merges.definitions, List.getElem?_map,
    List.head?_eq_getElem?]

end ClassEntity

namespace Registry

/-- The definitions whose name leads to a key. -/
def leading (classes : Registry .classes ClassEntity) (declared : List Definition)
    (key : ClassKey) : List Definition :=
  declared.filter fun d => classes.lookup? (.name d.name) = some key

/-- The first definition that leads to a key is the first of its name. -/
theorem find?_of_leading {classes : Registry .classes ClassEntity} {declared : List Definition}
    {key : ClassKey} {d : Definition} (head : (classes.leading declared key).head? = some d) :
    declared.find? (·.name = d.name) = some d := by
  rw [leading, List.head?_filter, List.find?_eq_some_iff_append] at head
  obtain ⟨leads, before, after, split, others⟩ := head
  rw [List.find?_eq_some_iff_append]
  refine ⟨decide_eq_true rfl, before, after, split, fun earlier listed => ?_⟩
  have astray := others earlier listed
  by_cases same : earlier.name = d.name
  · rw [same, leads] at astray
    cases astray
  · simp [same]

/-- Every class is made of the definitions that lead to it, and every name of a definition is known
and no other. -/
structure Tallies (links : String → Link → Prop) (declared : List Definition)
    (classes : Registry .classes ClassEntity) : Prop where
  entities : ∀ {key : ClassKey} {c : ClassEntity}, classes.get? key = some c →
    c.Merges links (classes.leading declared key)
  known : ∀ {name : String}, name ∈ classes.byName ↔ ∃ d ∈ declared, d.name = name
  inside : ∀ {name : String} {key : ClassKey},
    classes.byName[name]? = some key → classes.contains key = true

namespace Tallies

variable {links : String → Link → Prop} {declared : List Definition}
  {classes : Registry .classes ClassEntity}

theorem empty : Tallies links [] {} :=
  ⟨fun found => by simp [get?] at found, by simp, fun known => by simp at known⟩

theorem leading_congr {after : Registry .classes ClassEntity} (same : after.byName = classes.byName)
    (declared : List Definition) (key : ClassKey) :
    after.leading declared key = classes.leading declared key := by
  unfold leading lookup?
  rw [same]

/-- No definition leads to a key without a class. -/
theorem leading_eq_nil (tallies : Tallies links declared classes) {key : ClassKey}
    (absent : classes.get? key = none) : classes.leading declared key = [] := by
  rw [leading, List.filter_eq_nil_iff]
  intro d _ leads
  obtain ⟨c, present⟩ := (contains_iff _ _).mp (tallies.inside (of_decide_eq_true leads))
  cases absent.symm.trans present

/-- What was declared leads where it did. -/
theorem leading_of_extends (tallies : Tallies links declared classes)
    {after : Registry .classes ClassEntity} (grown : classes.Extends after) (key : ClassKey) :
    after.leading declared key = classes.leading declared key := by
  apply List.filter_congr
  intro d listed
  obtain ⟨own, leads⟩ := (mem_byName_iff _).mp (tallies.known.mpr ⟨d, listed, rfl⟩)
  rw [lookup?, lookup?, leads, grown.names leads]

/-- Interning keeps all names inside. -/
theorem inside_intern {kind : EntityKind} {α : Type} {registry : Registry kind α}
    (inside : ∀ {name : String} {key : Key kind},
      registry.byName[name]? = some key → registry.contains key = true)
    {name other : String} {make : Key kind → α} {key : Key kind}
    (leads : (registry.intern name make).2.byName[other]? = some key) :
    (registry.intern name make).2.contains key = true := by
  have grown := Extends.intern registry name make
  by_cases known : other ∈ registry.byName
  · obtain ⟨old, before⟩ := (mem_byName_iff _).mp known
    obtain rfl := Option.some.inj ((grown.names before).symm.trans leads)
    exact grown.contains (inside before)
  · -- the name is the one interned, and its key is not beyond the new place
    rcases registry.intern_cases name make with ⟨_, _, result⟩ | ⟨_, result⟩
    · rw [result] at leads
      exact absurd ((mem_byName_iff _).mpr ⟨key, leads⟩) known
    · have same : other = name := by
        have learnt := (mem_byName_iff _).mpr ⟨key, leads⟩
        rw [mem_byName_intern] at learnt
        exact learnt.resolve_right known
      rw [same, byName_intern, result] at leads
      obtain rfl := Option.some.inj leads
      rw [result, contains, decide_eq_true_eq, Array.size_push]
      exact Nat.lt_succ_of_le (Key.index_ofIndex_le _)

theorem leading_intern (tallies : Tallies links declared classes) (d : Definition)
    (make : ClassKey → ClassEntity) (key : ClassKey) :
    (classes.intern d.name make).2.leading (declared ++ [d]) key =
      classes.leading declared key ++
        if key = (classes.intern d.name make).1.1 then [d] else [] := by
  have named := byName_intern classes d.name make
  rw [← tallies.leading_of_extends (.intern classes d.name make), leading, List.filter_append]
  by_cases same : key = (classes.intern d.name make).1.1
  · simp [leading, lookup?, named, same]
  · simp [leading, lookup?, named, same, Ne.symm same]

/-- A definition goes to the class that its name leads to, which is there or is made for it. -/
theorem define (tallies : Tallies Link.Named declared classes) (d : Definition) (record : Record)
    {make : ClassKey → ClassEntity} (named : ∀ key, (make key).name = d.name)
    (blank : ∀ key, (make key).definitions = #[])
    {made : (ClassKey × Bool) × Registry .classes ClassEntity}
    (interned : made = classes.intern d.name make) :
    Tallies Link.Named (declared ++ [d]) ((made.2.bind record made.1.1).2.modify made.1.1
      (·.define d.origin d.access d.superclass d.interfaces)) := by
  have names : ((made.2.bind record made.1.1).2.modify made.1.1
      (·.define d.origin d.access d.superclass d.interfaces)).byName = made.2.byName :=
    byName_bind ..
  constructor
  · intro key c present
    rw [leading_congr names, interned, tallies.leading_intern]
    rw [get?_modify, get?, arena_bind, ← get?] at present
    by_cases same : key = made.1.1
    · rw [if_pos same] at present
      rw [if_pos (interned ▸ same)]
      obtain ⟨old, there, rfl⟩ := Option.map_eq_some_iff.mp present
      rw [interned] at there
      rcases classes.get?_intern d.name make key with kept | ⟨absent, fresh⟩
      · exact (tallies.entities (kept.symm.trans there)).define d
      · -- the class is new, so no definition led to its key before
        obtain rfl := Option.some.inj (there.symm.trans fresh)
        rw [tallies.leading_eq_nil absent]
        exact ClassEntity.merges_define d (named key) (blank key)
    · rw [if_neg same, interned] at present
      rw [if_neg (interned ▸ same), List.append_nil]
      rw [get?_intern_of_ne classes d.name make (interned ▸ same)] at present
      exact tallies.entities present
  · intro name
    rw [names, interned, mem_byName_intern, tallies.known]
    simp only [List.mem_append, List.mem_singleton, or_and_right, exists_or, exists_eq_left]
    rw [or_comm, eq_comm]
  · intro name key leads
    rw [names, interned] at leads
    have inside := inside_intern tallies.inside leads
    rw [← interned] at inside
    simpa [contains, modify] using inside

/-- A tally does not look at members. -/
theorem of_bare (tallies : Tallies links declared classes) {after : Registry .classes ClassEntity}
    (names : after.byName = classes.byName)
    (same : after.arena.map (Entity.bare .classes) = classes.arena.map (Entity.bare .classes)) :
    Tallies links declared after := by
  have size : after.arena.size = classes.arena.size := by
    simpa using congrArg Array.size same
  constructor
  · intro key c present
    have bare := congrArg (·[key.index]?) same
    simp only [Array.getElem?_map] at bare
    rw [show after.arena[key.index]? = some c from present, Option.map_some] at bare
    obtain ⟨old, there, equal⟩ := Option.map_eq_some_iff.mp bare.symm
    rw [leading_congr names]
    exact (tallies.entities there).of_bare equal.symm
  · rw [names]
    exact tallies.known
  · intro name key leads
    rw [names] at leads
    have inside := tallies.inside leads
    rwa [contains, size, ← contains]

end Tallies

end Registry

/-! ### The first pass -/

/-- Classes change in the lists of their members only. -/
def Graph.SameClasses (before after : Graph) : Prop :=
  after.classes.byName = before.classes.byName ∧
    after.classes.arena.map (Entity.bare .classes) = before.classes.arena.map (Entity.bare .classes)

/-- The classes of a graph are a tally of these definitions, not linked yet. -/
abbrev Graph.Tallied (declared : List Definition) (graph : Graph) : Prop :=
  graph.classes.Tallies Link.Named declared

namespace Builder

open DexAtlas.Graph (Continues SameClasses Tallied)

variable {α : Type}

theorem chained_sameClasses : Chained SameClasses where
  refl _ := ⟨rfl, rfl⟩
  trans first second := ⟨second.1.trans first.1, second.2.trans first.2⟩

theorem sameClasses_elsewhere {kind : EntityKind} (apart : .classes ≠ kind)
    (step : Registry kind (Entity kind) → Except Cause α × Registry kind (Entity kind)) :
    Follows SameClasses (onRegistry kind step) := by
  intro state a after ran
  have kept : after.graph.classes = state.graph.classes := by
    rw [(onRegistry_ok ran).2]
    exact Graph.registry_set_of_ne _ apart _
  rw [SameClasses, kept]
  exact ⟨rfl, rfl⟩

theorem sameClasses_updateClass {key : ClassKey} {change : ClassEntity → ClassEntity}
    (keeps : ∀ c, Entity.bare .classes (change c) = Entity.bare .classes c) :
    Follows SameClasses (updateClass key change) := by
  intro state a after ran
  have changed : after.graph.classes = state.graph.classes.modify key change := by
    rw [(update_ok ran).2]
    rfl
  rw [SameClasses, changed]
  exact ⟨rfl, Registry.map_modify_arena _ _ keeps⟩

theorem sameClasses_declareMember (kind : MemberKind) (image : Image) (owner : ClassKey)
    (id access : Nat) (external : Bool) :
    Follows SameClasses (declareMember kind image owner id access external) := by
  have apart := kind.sort_ne_classes.symm
  apply follows_declareMember chained_sameClasses
  · exact fun _ _ => sameClasses_elsewhere apart _
  · exact fun _ _ => sameClasses_elsewhere apart _
  · exact fun key => sameClasses_updateClass (kind.bare_addTo key)

/-- A definition is added to the tally, and its members change nothing about that. -/
theorem tallied_declareClass (image : Image) (position : Nat) (classDef : ClassDef) :
    Follows (Continues Tallied (image.definition? position classDef).toList)
      (declareClass image position classDef) := by
  intro state _ after ran declared tallies
  obtain ⟨name, key, created, s₁, s₂, s₃, named, interned, bound, defined, members⟩ :=
    declareClass_ok ran
  have same : SameClasses s₃.graph after.graph :=
    members _ chained_sameClasses
      (fun _ _ => sameClasses_declareMember .field image key _ _ _)
      (fun _ _ => sameClasses_declareMember .method image key _ _ _)
  have made : ((key, created), s₁.graph.classes) = state.graph.classes.intern name
      (fun key => { key, name, external := false : ClassEntity }) := by
    obtain ⟨returned, changed⟩ := intern_ok interned
    rw [changed]
    exact Prod.ext returned rfl
  have classes : s₃.graph.classes =
      (s₁.graph.classes.bind ⟨image.index, classDef.type⟩ key).2.modify key
        (·.define ⟨image.index, position⟩ classDef.access
          (image.container.superclassName? classDef) (image.container.interfaceNames classDef)) := by
    rw [(update_ok defined).2, (onRegistry_ok bound).2]
    rfl
  refine Registry.Tallies.of_bare ?_ same.1 same.2
  rw [Image.definition?, named, Option.map_some, Option.toList_some, classes]
  exact tallies.define ⟨name, ⟨image.index, position⟩, classDef.access,
    image.container.superclassName? classDef, image.container.interfaceNames classDef⟩
    ⟨image.index, classDef.type⟩ (fun _ => rfl) (fun _ => rfl) made

theorem tallied_declared (cancelled : Bool) (images : List Image) :
    Follows (Continues Tallied (images.flatMap Image.definitions))
      (images.forM fun image => within (.image image.name) (declareImage cancelled image)) := by
  have accrues : Accrues (Continues Tallied) := accrues_continues
  apply accrues.forM
  intro image _
  apply Follows.within
  apply accrues.forM
  rintro ⟨classDef, position⟩ _
  apply accrues.later (.ensureRunning accrues.chained cancelled)
  exact fun _ => tallied_declareClass image position classDef

end Builder

/-! ### Links -/

/-- How a class refers to an ancestor: by its key if some image defines it, and else by name. -/
def Registry.Links (images : List Image) (classes : Registry .classes ClassEntity)
    (name : String) : Link → Prop
  | .inside key => Image.Define images name ∧ classes.lookup? (.name name) = some key
  | .outside other => ¬ Image.Define images name ∧ other = name

namespace Registry

variable {images : List Image} {classes : Registry .classes ClassEntity}

theorem Links.of_extends {after : Registry .classes ClassEntity} (grown : classes.Extends after)
    {name : String} {link : Link} (links : classes.Links images name link) :
    after.Links images name link := by
  cases link with
  | inside key => exact ⟨links.1, grown.names links.2⟩
  | outside other => exact links

/-- Before code is searched the known classes are the defined ones, so a name is known exactly if it
can be linked. -/
theorem Tallies.links_resolveLink
    (tallies : Tallies Link.Named (images.flatMap Image.definitions) classes)
    (keyed : ∀ key (c : ClassEntity), classes.get? key = some c → c.key = key) (name : String) :
    classes.Links images name (Builder.resolveLink classes (.outside name)) := by
  by_cases defined : Image.Define images name
  · obtain ⟨key, leads⟩ := (mem_byName_iff _).mp (tallies.known.mpr (Image.define_iff.mp defined))
    obtain ⟨c, present⟩ := (contains_iff _ _).mp (tallies.inside leads)
    have resolved : classes.resolve? (.name name) = some c := by
      rw [resolve?, lookup?, leads]
      exact present
    simp only [Builder.resolveLink, resolved, (tallies.entities present).inside,
      Bool.false_eq_true, if_false, keyed key c present]
    exact ⟨defined, leads⟩
  · have unknown : classes.byName[name]? = none := by
      rw [← not_mem_byName_iff, tallies.known, ← Image.define_iff]
      exact defined
    have resolved : classes.resolve? (.name name) = none := by
      rw [resolve?, lookup?, unknown]
      rfl
    simp only [Builder.resolveLink, resolved]
    exact ⟨defined, rfl⟩

/-- The second pass links all classes; no later class gets in the way. -/
theorem Tallies.link
    (tallies : Tallies Link.Named (images.flatMap Image.definitions) classes)
    (keyed : ∀ key (c : ClassEntity), classes.get? key = some c → c.key = key)
    {final : Registry .classes ClassEntity} (grown : classes.Extends final) :
    Tallies (final.Links images) (images.flatMap Image.definitions)
      (classes.map fun c => { c with
        superclass := c.superclass.map (Builder.resolveLink classes)
        interfaces := c.interfaces.map (Builder.resolveLink classes) }) := by
  constructor
  · intro key c present
    rw [get?_map] at present
    obtain ⟨old, there, rfl⟩ := Option.map_eq_some_iff.mp present
    rw [leading_congr (by rfl)]
    apply (tallies.entities there).relink
    rintro name link rfl
    exact (tallies.links_resolveLink keyed name).of_extends grown
  · exact tallies.known
  · intro name key leads
    simpa [contains, map] using tallies.inside leads

end Registry

/-! ### What a class comes to -/

/-- A class and the definitions of the names that are its own. -/
structure Graph.Describes (graph : Graph) (images : List Image) (own : String → Prop)
    (c : ClassEntity) : Prop where
  listed : ∀ o, o ∈ c.definitions ↔ ∃ image name, images[o.image]? = some image ∧
    image.className? o.position = some name ∧ own name
  ordered : c.definitions.toList.Pairwise Origin.Before
  external : c.external = true ↔ c.definitions = #[]
  /-- The first definition supplies access flags and ancestors. -/
  first : ∀ o, c.origin? = some o → ∃ image classDef, images[o.image]? = some image ∧
    image.classDef? o.position = some classDef ∧ c.access = classDef.access ∧
    Option.Rel (graph.classes.Links images) (image.container.superclassName? classDef)
      c.superclass ∧
    List.Forall₂ (graph.classes.Links images) (image.container.interfaceNames classDef) c.interfaces
  undefined : c.definitions = #[] → c.access = 0 ∧ c.superclass = none ∧ c.interfaces = []

namespace Graph

variable {graph : Graph} {images : List Image} {c : ClassEntity} {key : ClassKey}

/-- Only the extent of the names matters. -/
theorem Describes.congr {own others : String → Prop} (describes : graph.Describes images own c)
    (same : ∀ name, own name ↔ others name) : graph.Describes images others c := by
  obtain rfl : own = others := funext fun name => propext (same name)
  exact describes

/-- A definition leads to a key if it stands in its image and its name does. -/
theorem mem_leading_iff (numbered : Image.Numbered images) {d : Definition} :
    d ∈ graph.classes.leading (images.flatMap Image.definitions) key ↔
      (∃ image classDef, images[d.origin.image]? = some image ∧
        image.classDef? d.origin.position = some classDef ∧
        image.definition? d.origin.position classDef = some d) ∧
      graph.classes.lookup? (.name d.name) = some key := by
  rw [Registry.leading, List.mem_filter, Image.mem_allDefinitions numbered, decide_eq_true_eq]

/-- The origins of these definitions are the places whose class has a name that leads to the key. -/
theorem mem_origins_iff (numbered : Image.Numbered images) {o : Origin} :
    o ∈ (graph.classes.leading (images.flatMap Image.definitions) key).map (·.origin) ↔
      ∃ image name, images[o.image]? = some image ∧ image.className? o.position = some name ∧
        graph.classes.lookup? (.name name) = some key := by
  rw [List.mem_map]
  constructor
  · rintro ⟨d, listed, rfl⟩
    obtain ⟨⟨image, classDef, place, there, defined⟩, leads⟩ := (mem_leading_iff numbered).mp listed
    refine ⟨image, d.name, place, ?_, leads⟩
    rw [Image.className?, there, Option.bind_some, Image.name_of_definition? defined]
  · rintro ⟨image, name, place, named, leads⟩
    obtain ⟨classDef, there, named⟩ := Option.bind_eq_some_iff.mp named
    have index := (numbered _ _ place).2
    obtain ⟨d, defined, rfl, origin⟩ := Image.exists_definition? named o.position
    have same : d.origin = o := by rw [origin, index]
    refine ⟨d, (mem_leading_iff numbered).mpr ⟨⟨image, classDef, ?_⟩, leads⟩, same⟩
    rw [same]
    exact ⟨place, there, defined⟩

theorem describes_of_merges (numbered : Image.Numbered images)
    (merges : c.Merges (graph.classes.Links images)
      (graph.classes.leading (images.flatMap Image.definitions) key)) :
    graph.Describes images (fun name => graph.classes.lookup? (.name name) = some key) c := by
  obtain ⟨d, head, -, access, superclass, interfaces⟩ := merges.first
  have origin : c.origin? = some d.origin := by
    rw [merges.origin?, head, Option.map_some]
  have defined : c.definitions ≠ #[] := by
    intro empty
    rw [ClassEntity.origin?, empty] at origin
    cases origin
  constructor
  · intro o
    rw [← Array.mem_toList_iff, merges.definitions]
    exact mem_origins_iff numbered
  · rw [merges.definitions, List.pairwise_map]
    exact (Image.allDefinitions_ordered numbered).sublist List.filter_sublist
  · simp [merges.inside, defined]
  · intro o first
    obtain rfl := Option.some.inj (origin.symm.trans first)
    obtain ⟨⟨image, classDef, place, there, defined⟩, -⟩ :=
      (mem_leading_iff numbered).mp (List.mem_of_head? head)
    refine ⟨image, classDef, place, there, ?_⟩
    obtain ⟨name, -, same⟩ := Option.map_eq_some_iff.mp defined
    rw [← same] at access superclass interfaces
    exact ⟨access, superclass, interfaces⟩
  · exact fun empty => absurd empty defined

/-- A class that no definition leads to and that is only used. -/
theorem describes_of_outside (outside : Entity.Outside .classes c)
    (elsewhere : ∀ name, Image.Define images name →
      graph.classes.lookup? (.name name) ≠ some key) :
    graph.Describes images (fun name => graph.classes.lookup? (.name name) = some key) c := by
  obtain ⟨external, undefined, plain⟩ := outside
  constructor
  · intro o
    constructor
    · intro listed
      rw [undefined] at listed
      exact absurd listed (Array.not_mem_empty o)
    · rintro ⟨image, name, place, named, leads⟩
      exact absurd leads (elsewhere name ⟨image, List.mem_of_getElem? place, _, named⟩)
  · rw [undefined]
    exact .nil
  · simp [external, undefined]
  · intro o first
    rw [ClassEntity.origin?, undefined] at first
    cases first
  · exact fun _ => plain

end Graph

/-- The classes are a tally of all definitions, linked, when the search for uses begins. -/
theorem Builder.package_tallies {images : List Image} (numbered : Image.Numbered images)
    {keepUses : Bool} {state : Build} (ran : package false keepUses images {} = .ok () state) :
    ∃ classes : Registry .classes ClassEntity,
      classes.Tallies (state.graph.classes.Links images) (images.flatMap Image.definitions) ∧
        Registry.Meets classes state.graph.classes := by
  obtain ⟨_, s₁, declared, ran⟩ := bind_ok ran
  obtain ⟨_, s₂, linked, scanned⟩ := bind_ok ran
  have formed := ((ensures_declared numbered).of_run Graph.WellFormed.empty declared).1
  have tallies := tallied_declared false images declared [] Registry.Tallies.empty
  have searched : Registry.Meets s₂.graph.classes state.graph.classes :=
    follows_scanned searchable_meets false keepUses images scanned .classes
  have keyed : ∀ key (c : ClassEntity), s₁.graph.classes.get? key = some c → c.key = key := by
    intro key c present
    have keyed := ((formed.coherent .classes).entities present).1
    rwa [Key.ofIndex_index] at keyed
  have linkedTo : s₂.graph.classes = s₁.graph.classes.map fun c => { c with
      superclass := c.superclass.map (resolveLink s₁.graph.classes)
      interfaces := c.interfaces.map (resolveLink s₁.graph.classes) } := by
    rw [(onRegistry_ok linked).2]
    rfl
  have grown : s₁.graph.classes.Extends state.graph.classes := by
    have first := Registry.Extends.map s₁.graph.classes fun c => { c with
      superclass := c.superclass.map (resolveLink s₁.graph.classes)
      interfaces := c.interfaces.map (resolveLink s₁.graph.classes) }
    rw [← linkedTo] at first
    exact first.trans searched.larger
  have linkedTallies := tallies.link keyed grown
  rw [← linkedTo] at linkedTallies
  exact ⟨s₂.graph.classes, linkedTallies, searched⟩

/-- A class is made of the definitions that lead to it, or there are none and it is only used. -/
theorem Builder.package_merges {images : List Image} (numbered : Image.Numbered images)
    {keepUses : Bool} {state : Build} (ran : package false keepUses images {} = .ok () state)
    {key : ClassKey} {c : ClassEntity} (present : state.graph.classes.get? key = some c) :
    c.Merges (state.graph.classes.Links images)
        (state.graph.classes.leading (images.flatMap Image.definitions) key) ∨
      Entity.Outside .classes c ∧ ∀ name, Image.Define images name →
        state.graph.classes.lookup? (.name name) ≠ some key := by
  obtain ⟨classes, tallies, searched⟩ := package_tallies numbered ran
  cases there : classes.arena[key.index]? with
  | some old =>
    left
    obtain ⟨same, stillThere, bare⟩ := searched.kept there
    obtain rfl := Option.some.inj (present.symm.trans stillThere)
    rw [tallies.leading_of_extends searched.larger]
    exact (tallies.entities there).of_bare bare
  | none =>
    right
    obtain ⟨-, outside⟩ := searched.fresh there present
    refine ⟨outside, ?_⟩
    -- the names that are defined all led somewhere before this class was made
    intro name defined leads
    obtain ⟨other, known⟩ := (Registry.mem_byName_iff _).mp
      (tallies.known.mpr (Image.define_iff.mp defined))
    obtain rfl := Option.some.inj ((searched.larger.names known).symm.trans leads)
    obtain ⟨old, stillThere⟩ := (Registry.contains_iff _ _).mp (tallies.inside known)
    cases there.symm.trans stillThere

/-- A class takes after the first definition of its name, and without one it is only used. -/
theorem Builder.package_first {images : List Image} (numbered : Image.Numbered images)
    {keepUses : Bool} {state : Build} (ran : package false keepUses images {} = .ok () state)
    {key : ClassKey} {c : ClassEntity} (present : state.graph.classes.get? key = some c) :
    (∃ d, (images.flatMap Image.definitions).find? (·.name = c.name) = some d ∧
      c.origin? = some d.origin ∧ c.access = d.access ∧
      Option.Rel (state.graph.classes.Links images) d.superclass c.superclass ∧
      List.Forall₂ (state.graph.classes.Links images) d.interfaces c.interfaces) ∨
    (images.flatMap Image.definitions).find? (·.name = c.name) = none ∧
      Entity.Outside .classes c := by
  have formed := (ensures_package numbered keepUses).of_run Graph.WellFormed.empty ran
  have leads : state.graph.classes.lookup? (.name c.name) = some key :=
    (formed.1.coherent .classes).lookup?_name present
  rcases package_merges numbered ran present with merges | ⟨outside, elsewhere⟩
  · left
    obtain ⟨d, head, named, taken⟩ := merges.first
    refine ⟨d, ?_, by rw [merges.origin?, head, Option.map_some], taken⟩
    rw [named]
    exact Registry.find?_of_leading head
  · right
    refine ⟨?_, outside⟩
    rw [List.find?_eq_none]
    intro d listed own
    exact elsewhere c.name (Image.define_iff.mpr ⟨d, listed, of_decide_eq_true own⟩) leads

/-- The origin of a class is the first definition of its name. -/
theorem Graph.origin?_eq_find? {images : List Image} (numbered : Image.Numbered images)
    {keepUses : Bool} {graph : Graph} (built : (build false keepUses images).outcome = .ok graph)
    {key : ClassKey} {c : ClassEntity} (present : graph.classes.get? key = some c) :
    c.origin? = ((images.flatMap Image.definitions).find? (·.name = c.name)).map
      Definition.origin := by
  obtain ⟨state, ran, rfl⟩ := build_ok built
  rcases Builder.package_first numbered ran present with ⟨d, first, origin, -⟩ | ⟨none, outside⟩
  · rw [first, origin, Option.map_some]
  · have undefined : c.definitions = #[] := outside.2.1
    rw [none, ClassEntity.origin?, undefined]
    rfl

theorem Builder.package_describes {images : List Image} (numbered : Image.Numbered images)
    {keepUses : Bool} {state : Build} (ran : package false keepUses images {} = .ok () state)
    {key : ClassKey} {c : ClassEntity} (present : state.graph.classes.get? key = some c) :
    state.graph.Describes images
      (fun name => state.graph.classes.lookup? (.name name) = some key) c := by
  rcases package_merges numbered ran present with merges | ⟨outside, elsewhere⟩
  · exact Graph.describes_of_merges numbered merges
  · exact Graph.describes_of_outside outside elsewhere

namespace Graph

/-- Every class lists the definitions of its name in order, takes its access flags and its linked
ancestors from the first of them, and is external if there is none. A definition belongs to the
class that its name leads to; while keys suffice, this is the class of that name. -/
theorem classes_defined {images : List Image} (numbered : Image.Numbered images) {keepUses : Bool}
    {graph : Graph} (built : (build false keepUses images).outcome = .ok graph) :
    (∀ key c, graph.classes.get? key = some c →
      graph.Describes images (fun name => graph.classes.lookup? (.name name) = some key) c) ∧
    (graph.classes.size < 2 ^ 32 →
      (∀ c ∈ graph.classes.arena, graph.Describes images (fun name => name = c.name) c) ∧
      (∀ name key, graph.classes.lookup? (.name name) = some key ↔
        ∃ c, graph.classes.get? key = some c ∧ c.name = name)) := by
  obtain ⟨state, ran, rfl⟩ := build_ok built
  have coherent := (populated_of_build numbered built).1.coherent .classes
  refine ⟨fun key c => Builder.package_describes numbered ran, fun fits => ⟨?_, ?_⟩⟩
  · intro c listed
    have present := coherent.get?_key fits listed
    apply (Builder.package_describes numbered ran present).congr
    exact fun name => coherent.lookup?_key_iff fits present
  · exact fun name key => coherent.lookup?_iff fits

/-- A class that two images define, each of them as its first. -/
theorem classes_defined_twice :
    ∃ graph c, (build false true AbstractSample.images).outcome = .ok graph ∧
      graph.classes.size < 2 ^ 32 ∧ c ∈ graph.classes.arena ∧ c.name = "LA;" ∧
      ⟨0, 0⟩ ∈ c.definitions ∧ ⟨1, 0⟩ ∈ c.definitions ∧ c.external = false := by
  obtain ⟨graph, built, formed, declared⟩ := build_populated AbstractSample.numbered true
  have fits : graph.classes.size < 2 ^ 32 :=
    Nat.lt_of_le_of_lt (size_le_entityBound built .classes) AbstractSample.entityBound_lt
  have coherent := formed.coherent .classes
  obtain ⟨key, bound⟩ := (declared AbstractSample.image List.mem_cons_self AbstractSample.classDef
    (Array.mem_singleton.mpr rfl)).type
  obtain ⟨name, named, known⟩ := coherent.records bound
  obtain rfl : "LA;" = name := Option.some.inj (Eq.trans (by rfl) named)
  obtain ⟨c, present, own⟩ : ∃ c : ClassEntity, graph.classes.get? key = some c ∧ c.name = "LA;" :=
    coherent.get?_of_name fits known
  have described := ((classes_defined AbstractSample.numbered built).2 fits).1 c
    (Array.mem_of_getElem? present)
  rw [own] at described
  have first : ⟨0, 0⟩ ∈ c.definitions :=
    (described.listed ⟨0, 0⟩).mpr ⟨AbstractSample.image, "LA;", rfl, rfl, rfl⟩
  have second : ⟨1, 0⟩ ∈ c.definitions :=
    (described.listed ⟨1, 0⟩).mpr
      ⟨{ Sample.image with name := "classes2.dex", index := 1 }, "LA;", rfl, rfl, rfl⟩
  refine ⟨graph, c, built, fits, Array.mem_of_getElem? present, own, first, second, ?_⟩
  rw [← Bool.not_eq_true, described.external]
  rintro undefined
  rw [undefined] at first
  exact absurd first (Array.not_mem_empty _)

end Graph

end DexAtlas
