import DexAtlas.Proofs.ClassLookup
import DexAtlas.Proofs.Quotations

/-!
# The order of images

Where no two images declare the same name, their order does not matter. Keys and lists come out in
another order then, but with all keys written as names the graphs are the same: they know the same
names, entities of one name are alike, and what they list is a permutation of each other.

Two runs are never compared step by step. Each graph is described in names by its images, and the
description is the same for all orders: what several images contribute to is compared up to the
order, and what is taken from a first declaration comes from the one image that has any.
-/
namespace DexAtlas

/-! ### Citations -/

/-- The method and the offset of an instruction, by name. -/
abbrev Place := Option String × Nat

/-- A use as an entity lists it, with all keys written as names. -/
inductive Citation where
  | use (offset : Nat) (kind : EntityKind) (target : Option String)
  | caller (place : Place)
  | read (place : Place)
  | write (place : Place)
  | load (place : Place)
  | outgoing (other : Option String) (use : ClassUse) (place : Place)
  | incoming (other : Option String) (use : ClassUse) (place : Place)

namespace Graph

variable (graph : Graph)

/-- The name of the entity at a key. -/
def nameAt? (kind : EntityKind) (key : Key kind) : Option String :=
  ((graph.registry kind).get? key).map (Entity.name kind)

def placeOf (site : Site) : Place := (graph.nameAt? .methods site.method, site.offset)

def citeUse (use : Use) : Citation :=
  match use.target with
  | .ofClass key => .use use.offset .classes (graph.nameAt? .classes key)
  | .ofMethod key => .use use.offset .methods (graph.nameAt? .methods key)
  | .ofField key => .use use.offset .fields (graph.nameAt? .fields key)
  | .ofString key => .use use.offset .strings (graph.nameAt? .strings key)

/-- The lists of an entity as citations. -/
def cite : (kind : EntityKind) → Entity.Notes kind → List Citation
  | .classes => fun notes =>
    notes.1.map (fun edge =>
      .outgoing (graph.nameAt? .classes edge.other) edge.use (graph.placeOf edge.site)) ++
    notes.2.map fun edge =>
      .incoming (graph.nameAt? .classes edge.other) edge.use (graph.placeOf edge.site)
  | .methods => fun notes =>
    notes.1.map graph.citeUse ++ notes.2.map fun site => .caller (graph.placeOf site)
  | .fields => fun notes =>
    notes.1.map (fun site => .read (graph.placeOf site)) ++
      notes.2.map fun site => .write (graph.placeOf site)
  | .strings => fun notes => notes.map fun site => .load (graph.placeOf site)

/-- All uses that an entity lists. -/
def citations (kind : EntityKind) (entity : Entity kind) : List Citation :=
  graph.cite kind (Entity.notes kind entity)

end Graph

namespace Quote

variable (quote : Quote)

def place : Place := (some quote.caller, quote.offset)

/-- What a quote adds to the citations of the entity of a name. -/
def citations (kind : EntityKind) (name : String) : List Citation :=
  match kind with
  | .classes =>
    (if quote.source = name then
      quote.used.toList.map fun used => .outgoing (some used.1) used.2 quote.place else []) ++
    (quote.used.toList.filter (·.1 = name)).map fun used =>
      .incoming (some quote.source) used.2 quote.place
  | .methods =>
    (if quote.caller = name then [.use quote.offset quote.kind (some quote.target)] else []) ++
      if quote.kind = .methods ∧ quote.target = name then [.caller quote.place] else []
  | .fields =>
    if quote.kind = .fields ∧ quote.target = name then
      [if quote.write then .write quote.place else .read quote.place] else []
  | .strings =>
    if quote.kind = .strings ∧ quote.target = name then [.load quote.place] else []

end Quote

namespace Traffic

/-- The lists at a key. -/
def notes (traffic : Traffic) : (kind : EntityKind) → Key kind → Entity.Notes kind
  | .classes => fun key => (traffic.outgoing key, traffic.incoming key)
  | .methods => fun key => (traffic.uses key, traffic.callers key)
  | .fields => fun key => (traffic.reads key, traffic.writes key)
  | .strings => traffic.loads

variable (graph : Graph) {kind : EntityKind} (key : Key kind)

/-- Of two lists each, those of one sort come together. -/
theorem cite_append (first second : Traffic) :
    (graph.cite kind ((first.append second).notes kind key)).Perm
      (graph.cite kind (first.notes kind key) ++ graph.cite kind (second.notes kind key)) := by
  have shuffle (a b c d : List Citation) : (a ++ b ++ (c ++ d)).Perm (a ++ c ++ (b ++ d)) := by
    rw [List.append_assoc, List.append_assoc]
    apply List.Perm.append_left
    rw [← List.append_assoc, ← List.append_assoc]
    exact List.perm_append_comm.append_right d
  cases kind with
  | classes | methods | fields =>
    simp only [notes, append, Graph.cite, List.map_append]
    exact shuffle _ _ _ _
  | strings => simp [notes, append, Graph.cite]

/-- Mentions are cited one by one. -/
theorem cite_foldl (mentions : List Mention) (traffic : Traffic) :
    (graph.cite kind ((mentions.foldl add traffic).notes kind key)).Perm
      (graph.cite kind (traffic.notes kind key) ++
        mentions.flatMap fun mention => graph.cite kind ((empty.add mention).notes kind key)) := by
  induction mentions generalizing traffic with
  | nil => simp
  | cons mention rest ih =>
    -- what the first mention adds stands before what the others add
    rw [List.foldl_cons, List.flatMap_cons, ← List.append_assoc]
    apply (ih _).trans
    apply List.Perm.append_right
    rw [add_eq_append]
    exact cite_append graph key traffic _

theorem cite_empty : graph.cite kind (empty.notes kind key) = [] := by
  cases kind <;> rfl

end Traffic

namespace Target

theorem ofKey_inj {kind : EntityKind} {a b : Key kind} : ofKey kind a = ofKey kind b ↔ a = b := by
  cases kind <;> simp [ofKey]

theorem ofKey_ne {kind other : EntityKind} (apart : kind ≠ other) (a : Key kind) (b : Key other) :
    ofKey kind a ≠ ofKey other b := by
  cases kind <;> cases other <;> simp_all [ofKey]

end Target

namespace Graph

theorem citeUse_ofKey (graph : Graph) (offset : Nat) {kind : EntityKind} (key : Key kind) :
    graph.citeUse ⟨offset, .ofKey kind key⟩ = .use offset kind (graph.nameAt? kind key) := by
  cases kind <;> rfl

/-- The lists of an entity are those at its key. -/
theorem notes_eq_traffic (graph : Graph) (kind : EntityKind) (key : Key kind) :
    graph.notes kind key = graph.traffic.notes kind key := by
  rw [traffic_eq]
  cases kind <;> rfl

/-- There is a key of its own for every entity. -/
def Fits (graph : Graph) : Prop :=
  ∀ kind, (graph.registry kind).size < 2 ^ 32

variable {graph : Graph} {images : List Image}

section

variable (formed : graph.WellFormed images) (fits : graph.Fits)
include formed fits

theorem nameAt?_of_known {kind : EntityKind} {name : String} {key : Key kind}
    (known : (graph.registry kind).byName[name]? = some key) :
    graph.nameAt? kind key = some name := by
  obtain ⟨entity, present, named⟩ := (formed.coherent kind).get?_of_name (fits kind) known
  rw [nameAt?, present, Option.map_some, named]

/-- Two known names lead to the same key only if they are the same. -/
theorem key_eq_iff {kind : EntityKind} {name other : String} {key otherKey : Key kind}
    (known : (graph.registry kind).byName[name]? = some key)
    (knownToo : (graph.registry kind).byName[other]? = some otherKey) :
    otherKey = key ↔ other = name := by
  constructor
  · rintro rfl
    exact Option.some.inj ((nameAt?_of_known formed fits knownToo).symm.trans
      (nameAt?_of_known formed fits known))
  · rintro rfl
    exact Option.some.inj (knownToo.symm.trans known)

namespace Spells

variable {mention : Mention} {quote : Quote} (spells : graph.Spells mention quote)
include spells

theorem place_eq : graph.placeOf mention.site = quote.place := by
  rw [placeOf, nameAt?_of_known formed fits spells.caller, spells.offset, Quote.place]

theorem target_iff {kind : EntityKind} {name : String} {key : Key kind}
    (known : (graph.registry kind).byName[name]? = some key) :
    mention.target = .ofKey kind key ↔ quote.kind = kind ∧ quote.target = name := by
  obtain ⟨found, knownToo, same⟩ := Option.map_eq_some_iff.mp spells.target
  rw [← same]
  by_cases kinds : quote.kind = kind
  · subst kinds
    rw [Target.ofKey_inj, key_eq_iff formed fits known knownToo]
    simp
  · simp [kinds, Target.ofKey_ne kinds]

theorem cite_classes {name : String} {key : ClassKey}
    (known : (graph.registry .classes).byName[name]? = some key) :
    graph.cite .classes ((Traffic.empty.add mention).notes .classes key) =
      quote.citations .classes name := by
  -- code belongs to a class that declares it, so the source of an edge is always there
  obtain ⟨source, sourced, leads⟩ : ∃ source, mention.source = some source ∧
      (graph.registry .classes).byName[quote.source]? = some source := by
    have leads := spells.source
    revert leads
    generalize mention.source = found
    rintro ⟨⟩
    exact ⟨_, rfl, by assumption⟩
  have place := spells.place_eq formed fits
  have sourceName := nameAt?_of_known formed fits leads
  have ownSource := key_eq_iff formed fits known leads
  simp only [cite, Traffic.notes, Traffic.outgoing_add_empty, Traffic.incoming_add_empty,
    Quote.citations, sourced, Option.some.injEq, ownSource]
  have uses := spells.used
  revert uses
  generalize quote.used = named
  generalize mention.used = keyed
  intro uses
  cases uses with
  | none => simp
  | @some named keyed used =>
    obtain ⟨element, way⟩ := named
    obtain ⟨usedKey, sameWay⟩ := keyed
    obtain ⟨usedKnown, rfl⟩ : (graph.registry .classes).byName[element]? = some usedKey ∧
      way = sameWay := used
    have usedName := nameAt?_of_known formed fits usedKnown
    have ownUsed := key_eq_iff formed fits known usedKnown
    by_cases here : quote.source = name <;> by_cases there : element = name <;>
      simp [here, there, ownUsed, usedName, sourceName, place]

theorem cite_methods {name : String} {key : MethodKey}
    (known : (graph.registry .methods).byName[name]? = some key) :
    graph.cite .methods ((Traffic.empty.add mention).notes .methods key) =
      quote.citations .methods name := by
  have place := spells.place_eq formed fits
  have target := spells.target_iff formed fits known
  have calls := key_eq_iff formed fits known spells.caller
  obtain ⟨found, knownToo, same⟩ := Option.map_eq_some_iff.mp spells.target
  have use : graph.citeUse ⟨mention.site.offset, mention.target⟩ =
      .use quote.offset quote.kind (some quote.target) := by
    rw [← same, citeUse_ofKey, nameAt?_of_known formed fits knownToo, spells.offset]
  simp only [Target.ofKey] at target
  simp only [cite, Traffic.notes, Traffic.uses_add_empty, Traffic.callers_add_empty, target, calls,
    Quote.citations]
  by_cases own : quote.caller = name <;>
    by_cases called : quote.kind = .methods ∧ quote.target = name <;>
      simp [own, called, use, place]

theorem cite_fields {name : String} {key : FieldKey}
    (known : (graph.registry .fields).byName[name]? = some key) :
    graph.cite .fields ((Traffic.empty.add mention).notes .fields key) =
      quote.citations .fields name := by
  have target := spells.target_iff formed fits known
  simp only [Target.ofKey] at target
  simp only [cite, Traffic.notes, Traffic.reads_add_empty, Traffic.writes_add_empty, target,
    spells.write, Quote.citations]
  by_cases own : quote.kind = .fields ∧ quote.target = name
  · cases quote.write <;> simp [own, spells.place_eq formed fits]
  · simp [own]

theorem cite_strings {name : String} {key : StringKey}
    (known : (graph.registry .strings).byName[name]? = some key) :
    graph.cite .strings ((Traffic.empty.add mention).notes .strings key) =
      quote.citations .strings name := by
  have target := spells.target_iff formed fits known
  simp only [Target.ofKey] at target
  simp only [cite, Traffic.notes, Traffic.loads_add_empty, target, Quote.citations]
  split
  · simp [spells.place_eq formed fits]
  · rfl

/-- A mention is cited as its quote is. -/
theorem cite_eq {kind : EntityKind} {name : String} {key : Key kind}
    (known : (graph.registry kind).byName[name]? = some key) :
    graph.cite kind ((Traffic.empty.add mention).notes kind key) = quote.citations kind name := by
  cases kind with
  | classes => exact spells.cite_classes formed fits known
  | methods => exact spells.cite_methods formed fits known
  | fields => exact spells.cite_fields formed fits known
  | strings => exact spells.cite_strings formed fits known

end Spells

/-- An entity lists what the quotes say of its name. -/
theorem citations_perm {mentions : List Mention} {quotes : List Quote}
    (traffic : graph.traffic = mentions.foldl Traffic.add Traffic.empty)
    (spelled : List.Forall₂ graph.Spells mentions quotes) {kind : EntityKind} {entity : Entity kind}
    (listed : entity ∈ (graph.registry kind).arena) :
    (graph.citations kind entity).Perm
      (quotes.flatMap fun quote => quote.citations kind (Entity.name kind entity)) := by
  have coherent := formed.coherent kind
  have present := coherent.get?_key (fits kind) listed
  have known := (coherent.lookup?_iff (fits kind)).mpr ⟨entity, present, rfl⟩
  have own : Entity.notes kind entity = graph.traffic.notes kind (Entity.key kind entity) := by
    rw [← notes_eq_traffic, notes, Registry.view_of_get? present]
  have each : mentions.flatMap (fun mention =>
        graph.cite kind ((Traffic.empty.add mention).notes kind (Entity.key kind entity))) =
      quotes.flatMap fun quote => quote.citations kind (Entity.name kind entity) := by
    clear traffic
    induction spelled with
    | nil => rfl
    | cons spells _ ih =>
      rw [List.flatMap_cons, List.flatMap_cons, spells.cite_eq formed fits known, ih]
  rw [citations, own, traffic, ← each]
  apply (Traffic.cite_foldl graph _ mentions Traffic.empty).trans
  rw [Traffic.cite_empty, List.nil_append]

end

end Graph

/-! ### What images contribute -/

/-- What a definition says of its class apart from where it stands. -/
structure Heading where
  access : Nat
  superclass : Option String
  interfaces : List String

def Definition.heading (d : Definition) : Heading := ⟨d.access, d.superclass, d.interfaces⟩

namespace Image

/-- The headings of the definitions of a class in an image. -/
def headings (image : Image) (name : String) : List Heading :=
  (image.definitions.filter (·.name = name)).map Definition.heading

def unnumbered (image : Image) : Image := { image with index := 0 }

/-- The same images in another order, whatever their numbers. -/
def Reordered (images others : List Image) : Prop :=
  (others.map unnumbered).Perm (images.map unnumbered)

variable {images others : List Image} {image : Image} {name : String}

theorem headings_unnumbered (image : Image) (name : String) :
    image.unnumbered.headings name = image.headings name := by
  simp only [headings, definitions, List.filter_flatMap, List.map_flatMap]
  congr 1
  funext entry
  have named : image.unnumbered.container = image.container := rfl
  simp only [definition?, named]
  cases image.container.className? entry.1 with
  | none => rfl
  | some own => by_cases same : own = name <;> simp [same, Definition.heading]

theorem headings_eq_nil (elsewhere : (.classes, name) ∉ image.names) :
    image.headings name = [] := by
  rw [headings, List.map_eq_nil_iff, List.filter_eq_nil_iff]
  intro d listed own
  obtain ⟨classDef, there, defined⟩ := mem_definitions.mp listed
  apply elsewhere
  rw [mem_names_classes, ← of_decide_eq_true own]
  exact ⟨classDef, Array.mem_of_getElem? there, name_of_definition? defined⟩

theorem define_iff_names : Define images name ↔ (.classes, name) ∈ images.flatMap names := by
  simp only [Define, List.mem_flatMap, mem_names_classes, className?, Option.bind_eq_some_iff,
    classDef?, Array.mem_iff_getElem?]
  grind

theorem Apart.perm (apart : Apart images) (reordered : others.Perm images) : Apart others := by
  have symmetric : ∀ {a b : Image}, List.Disjoint a.names b.names → List.Disjoint b.names a.names :=
    fun disjoint _ inB inA => disjoint inA inB
  exact (reordered.pairwise_iff symmetric).mpr apart

theorem apart_unnumbered : Apart (images.map unnumbered) ↔ Apart images := by
  rw [Apart, List.pairwise_map]
  rfl

/-- In images apart, what depends on a name is the same in every order. -/
theorem Apart.flatMap_perm {β : Type} (apart : Apart images) (reordered : others.Perm images)
    (entry : EntityKind × String) {f : Image → List β}
    (elsewhere : ∀ other : Image, entry ∉ other.names → f other = []) :
    others.flatMap f = images.flatMap f := by
  have apartToo := apart.perm reordered
  -- either one image contributes everything, or none contributes anything
  by_cases declared : ∃ image ∈ images, entry ∈ image.names
  · obtain ⟨image, member, own⟩ := declared
    rw [apart.flatMap_eq member own elsewhere,
      apartToo.flatMap_eq (reordered.mem_iff.mpr member) own elsewhere]
  · have nothing (list : List Image) (same : list.Perm images) : list.flatMap f = [] := by
      rw [List.flatMap_eq_nil_iff]
      exact fun image member => elsewhere image fun own =>
        declared ⟨image, same.mem_iff.mp member, own⟩
    rw [nothing others reordered, nothing images (.refl _)]

namespace Reordered

variable {β : Type} {f : Image → List β}

theorem flatMap_unnumbered (free : ∀ image : Image, f image.unnumbered = f image)
    (images : List Image) : (images.map unnumbered).flatMap f = images.flatMap f := by
  rw [List.flatMap_map]
  simp only [free]

theorem apart (reordered : Reordered images others) (apart : Apart images) : Apart others :=
  apart_unnumbered.mp ((apart_unnumbered.mpr apart).perm reordered)

theorem flatMap_perm (reordered : Reordered images others)
    (free : ∀ image : Image, f image.unnumbered = f image) :
    (others.flatMap f).Perm (images.flatMap f) := by
  rw [← flatMap_unnumbered free, ← flatMap_unnumbered free images]
  exact List.Perm.flatMap_right f reordered

theorem flatMap_eq (reordered : Reordered images others) (apart : Apart images)
    (entry : EntityKind × String) (free : ∀ image : Image, f image.unnumbered = f image)
    (elsewhere : ∀ other : Image, entry ∉ other.names → f other = []) :
    others.flatMap f = images.flatMap f := by
  rw [← flatMap_unnumbered free, ← flatMap_unnumbered free images]
  exact (apart_unnumbered.mpr apart).flatMap_perm reordered entry elsewhere

end Reordered

end Image

/-! ### A graph described by its images -/

/-- A link with its class by name, and whether it is inside the package. -/
def Graph.spellLink (graph : Graph) : Link → Bool × Option String
  | .inside key => (true, graph.nameAt? .classes key)
  | .outside name => (false, some name)

/-- A class takes after a heading; without one it has nothing. -/
def ClassEntity.TakesAfter (links : String → Link → Prop) (c : ClassEntity) :
    Option Heading → Prop
  | some heading => c.access = heading.access ∧
      Option.Rel links heading.superclass c.superclass ∧
      List.Forall₂ links heading.interfaces c.interfaces
  | none => c.access = 0 ∧ c.superclass = none ∧ c.interfaces = []

theorem Entity.external_of_bare {kind : EntityKind} {a b : Entity kind}
    (same : bare kind a = bare kind b) : external kind a = external kind b := by
  have read (entity : Entity kind) : external kind (bare kind entity) = external kind entity := by
    cases kind <;> rfl
  rw [← read a, same, read b]

namespace Graph

variable {graph : Graph} {images : List Image} {keepUses : Bool}

/-- The names of entities are the known ones. -/
theorem exists_named_iff (formed : graph.WellFormed images) {kind : EntityKind} {name : String} :
    (∃ entity ∈ (graph.registry kind).arena, Entity.name kind entity = name) ↔
      name ∈ (graph.registry kind).byName := by
  constructor
  · rintro ⟨entity, listed, rfl⟩
    obtain ⟨place, found⟩ := Array.mem_iff_getElem?.mp listed
    exact (Registry.mem_byName_iff _).mpr ⟨_, ((formed.coherent kind).entities found).2⟩
  · intro known
    obtain ⟨key, leads⟩ := (Registry.mem_byName_iff _).mp known
    obtain ⟨place, entity, found, named, -⟩ := (formed.coherent kind).names leads
    exact ⟨entity, Array.mem_of_getElem? found, named⟩

/-- The flag of a method is that of its first declaration, in whichever image. -/
theorem method_external (built : (build false keepUses images).outcome = .ok graph)
    {m : MethodEntity} (listed : m ∈ graph.methods.arena) :
    m.external = ((images.flatMap (Image.declaredAs · m.fullName)).head?.bind
      EncodedMethod.code).isNone := by
  have entries : (Image.declarationsOf images m.fullName).map Prod.snd =
      images.flatMap (Image.declaredAs · m.fullName) := by
    simp [Image.declarationsOf_eq, List.map_flatMap, Function.comp_def]
  rw [(method_declared built listed).2, ← entries, List.head?_map, Option.bind_map]
  rfl

/-- A class or field is external exactly if no image declares it. -/
theorem external_iff_undeclared (numbered : Image.Numbered images)
    (built : (build false keepUses images).outcome = .ok graph) {kind : EntityKind}
    (declarable : kind = .classes ∨ kind = .fields) {entity : Entity kind}
    (listed : entity ∈ (graph.registry kind).arena) :
    Entity.external kind entity = true ↔
      (kind, Entity.name kind entity) ∉ images.flatMap Image.names := by
  have notMethod : kind ≠ .methods := by rcases declarable with rfl | rfl <;> decide
  obtain ⟨state, ran, rfl⟩ := build_ok built
  obtain ⟨middle, ready, scanned⟩ := Builder.package_ready numbered ran
  have searched : Registry.Meets (middle.graph.registry kind) (state.graph.registry kind) :=
    Builder.follows_scanned Builder.searchable_meets false keepUses images scanned kind
  rw [← ready.knows.names]
  obtain ⟨place, found⟩ := Array.mem_iff_getElem?.mp listed
  cases there : (middle.graph.registry kind).arena[place]? with
  | some old =>
    -- the entity was declared, and is known by its name since then
    obtain ⟨same, stillThere, bare⟩ := searched.kept there
    obtain rfl := Option.some.inj (found.symm.trans stillThere)
    have leads := ((ready.populated.1.coherent kind).entities there).2
    have declared := (Registry.mem_byName_iff _).mpr ⟨_, leads⟩
    have inside := ready.inside kind notMethod old (Array.mem_of_getElem? there)
    rw [← Entity.external_of_bare bare] at inside
    rw [← Entity.name_of_bare bare] at declared
    simp [inside, declared]
  | none =>
    obtain ⟨unknown, outside⟩ := searched.fresh there found
    have external : Entity.external kind entity = true := by
      rcases declarable with rfl | rfl <;> exact outside.1
    simp [external, (Registry.not_mem_byName_iff _).mpr unknown]

/-- A class takes after the first definition of its name, in whichever image. -/
theorem class_takesAfter (numbered : Image.Numbered images)
    (built : (build false keepUses images).outcome = .ok graph)
    (fits : graph.classes.size < 2 ^ 32) {c : ClassEntity} (listed : c ∈ graph.classes.arena) :
    c.TakesAfter (graph.classes.Links images) (images.flatMap (Image.headings · c.name)).head? := by
  have coherent := (populated_of_build numbered built).1.coherent .classes
  have present : graph.classes.get? (Entity.key .classes c) = some c :=
    coherent.get?_key fits listed
  obtain ⟨state, ran, rfl⟩ := build_ok built
  have own : (images.flatMap (Image.headings · c.name)) =
      ((images.flatMap Image.definitions).filter (·.name = c.name)).map Definition.heading := by
    rw [List.filter_flatMap, List.map_flatMap]
    rfl
  rw [own, List.head?_map, List.head?_filter]
  rcases Builder.package_first numbered ran present with ⟨d, first, -, taken⟩ | ⟨none, outside⟩
  · rw [first]
    exact taken
  · obtain ⟨-, -, plain⟩ := outside
    rw [none]
    exact plain

/-- A link reads the same in two graphs if the same classes are defined. -/
theorem spellLink_eq {first second : Graph} {others : List Image} {name : String} {a b : Link}
    (formed : first.WellFormed images) (formedToo : second.WellFormed others) (fits : first.Fits)
    (fitsToo : second.Fits) (defined : Image.Define images name ↔ Image.Define others name)
    (links : first.classes.Links images name a) (linksToo : second.classes.Links others name b) :
    first.spellLink a = second.spellLink b := by
  cases a with
  | inside key =>
    cases b with
    | inside other =>
      have spelled := nameAt?_of_known formed fits (show (first.registry .classes).byName[name]? =
        some key from links.2)
      have spelledToo := nameAt?_of_known formedToo fitsToo
        (show (second.registry .classes).byName[name]? = some other from linksToo.2)
      rw [spellLink, spellLink, spelled, spelledToo]
    | outside => exact absurd (defined.mp links.1) linksToo.1
  | outside =>
    cases b with
    | inside => exact absurd (defined.mpr linksToo.1) links.1
    | outside => rw [spellLink, spellLink, links.2, linksToo.2]

/-- Two graphs say the same of the entities of each name. -/
structure Alike (first second : Graph) : Prop where
  names : ∀ kind name, (∃ a ∈ (first.registry kind).arena, Entity.name kind a = name) ↔
    ∃ b ∈ (second.registry kind).arena, Entity.name kind b = name
  external : ∀ kind, ∀ a ∈ (first.registry kind).arena, ∀ b ∈ (second.registry kind).arena,
    Entity.name kind a = Entity.name kind b → Entity.external kind a = Entity.external kind b
  classes : ∀ a ∈ first.classes.arena, ∀ b ∈ second.classes.arena, a.name = b.name →
    a.access = b.access ∧
    a.superclass.map first.spellLink = b.superclass.map second.spellLink ∧
    a.interfaces.map first.spellLink = b.interfaces.map second.spellLink
  /-- The uses that entities list are the same up to their order. -/
  citations : ∀ kind, ∀ a ∈ (first.registry kind).arena, ∀ b ∈ (second.registry kind).arena,
    Entity.name kind a = Entity.name kind b →
      (first.citations kind a).Perm (second.citations kind b)

section

variable {first second : Graph} {others : List Image} (numbered : Image.Numbered images)
  (numberedToo : Image.Numbered others) (apart : Image.Apart images)
  (reordered : Image.Reordered images others)
  (built : (build false keepUses images).outcome = .ok first)
  (builtToo : (build false keepUses others).outcome = .ok second)
include numbered numberedToo apart reordered built builtToo

/-- Whether an entity is external does not depend on its key. -/
theorem external_same (kind : EntityKind) {a b : Entity kind}
    (listed : a ∈ (first.registry kind).arena) (listedToo : b ∈ (second.registry kind).arena)
    (named : Entity.name kind a = Entity.name kind b) :
    Entity.external kind a = Entity.external kind b := by
  have names := reordered.flatMap_perm (f := Image.names) fun _ => rfl
  have undeclared (declarable : kind = .classes ∨ kind = .fields) :
      Entity.external kind a = Entity.external kind b := by
    rw [Bool.eq_iff_iff, external_iff_undeclared numbered built declarable listed,
      external_iff_undeclared numberedToo builtToo declarable listedToo, named, names.mem_iff]
  cases kind with
  | classes => exact undeclared (.inl rfl)
  | methods =>
    have entries := reordered.flatMap_eq apart (.methods, MethodEntity.fullName b)
      (f := (Image.declaredAs · (MethodEntity.fullName b))) (fun _ => rfl)
      fun _ => Image.declaredAs_eq_nil
    have flag := method_external built listed
    have flagToo := method_external builtToo listedToo
    rw [show MethodEntity.fullName a = MethodEntity.fullName b from named, ← entries] at flag
    exact flag.trans flagToo.symm
  | fields => exact undeclared (.inr rfl)
  | strings => rfl

variable (fits : first.Fits) (fitsToo : second.Fits)
include fits fitsToo

/-- Classes of one name take after the same heading. -/
theorem takesAfter_same {a b : ClassEntity} (listed : a ∈ first.classes.arena)
    (listedToo : b ∈ second.classes.arena) (named : a.name = b.name) :
    a.access = b.access ∧
      a.superclass.map first.spellLink = b.superclass.map second.spellLink ∧
      a.interfaces.map first.spellLink = b.interfaces.map second.spellLink := by
  have formed := (populated_of_build numbered built).1
  have formedToo := (populated_of_build numberedToo builtToo).1
  have headings := reordered.flatMap_eq apart (.classes, b.name)
    (fun image => Image.headings_unnumbered image b.name) fun _ => Image.headings_eq_nil
  have names := reordered.flatMap_perm (f := Image.names) fun _ => rfl
  have spelled {name : String} {x y : Link} (links : first.classes.Links images name x)
      (linksToo : second.classes.Links others name y) : first.spellLink x = second.spellLink y := by
    apply spellLink_eq formed formedToo fits fitsToo _ links linksToo
    rw [Image.define_iff_names, Image.define_iff_names, names.mem_iff]
  have parent {name : Option String} {x y : Option Link}
      (links : Option.Rel (first.classes.Links images) name x)
      (linksToo : Option.Rel (second.classes.Links others) name y) :
      x.map first.spellLink = y.map second.spellLink := by
    cases links with
    | none =>
      cases linksToo
      rfl
    | some link =>
      cases linksToo with
      | some linkToo => rw [Option.map_some, Option.map_some, spelled link linkToo]
  have all {names : List String} {xs ys : List Link}
      (links : List.Forall₂ (first.classes.Links images) names xs)
      (linksToo : List.Forall₂ (second.classes.Links others) names ys) :
      xs.map first.spellLink = ys.map second.spellLink := by
    induction links generalizing ys with
    | nil =>
      cases linksToo
      rfl
    | cons link _ ih =>
      cases linksToo with
      | cons linkToo rest => rw [List.map_cons, List.map_cons, spelled link linkToo, ih rest]
  have takes := class_takesAfter numbered built (fits .classes) listed
  have takesToo := class_takesAfter numberedToo builtToo (fitsToo .classes) listedToo
  rw [named] at takes
  rw [headings] at takesToo
  -- both classes take after one heading, or after none
  revert takes takesToo
  cases (images.flatMap (Image.headings · b.name)).head? with
  | none =>
    rintro ⟨access, superclass, interfaces⟩ ⟨accessToo, superclassToo, interfacesToo⟩
    simp [access, superclass, interfaces, accessToo, superclassToo, interfacesToo]
  | some heading =>
    rintro ⟨access, superclass, interfaces⟩ ⟨accessToo, superclassToo, interfacesToo⟩
    exact ⟨access.trans accessToo.symm, parent superclass superclassToo,
      all interfaces interfacesToo⟩

end

/-- Before code is searched a graph has as many methods in every order. -/
theorem ready_fits {others : List Image} (numbered : Image.Numbered images)
    (reordered : Image.Reordered images others)
    (built : (build false keepUses images).outcome = .ok graph)
    (fits : graph.methods.size < 2 ^ 32) {middle : Graph} (ready : Builder.Ready others middle) :
    middle.methods.size < 2 ^ 32 := by
  obtain ⟨state, ran, rfl⟩ := build_ok built
  obtain ⟨own, ownReady, scanned⟩ := Builder.package_ready numbered ran
  have searched := Builder.follows_scanned Builder.searchable_meets false keepUses images scanned
  have names := reordered.flatMap_perm (f := Image.names) fun _ => rfl
  calc middle.methods.size
    _ = own.graph.methods.size :=
      ready.knows.size_eq ownReady.knows (fun _ => names.mem_iff) .methods
    _ ≤ state.graph.methods.size := (searched .methods).larger.size
    _ < 2 ^ 32 := fits

theorem alike_of_reordered {first second : Graph} {others : List Image}
    (numbered : Image.Numbered images) (numberedToo : Image.Numbered others)
    (apart : Image.Apart images) (reordered : Image.Reordered images others)
    (built : (build false keepUses images).outcome = .ok first)
    (builtToo : (build false keepUses others).outcome = .ok second) (fits : first.Fits) :
    first.Alike second := by
  have formed := (populated_of_build numbered built).1
  have formedToo := (populated_of_build numberedToo builtToo).1
  have declared := reordered.flatMap_perm (f := Image.names) fun _ => rfl
  have quoted := reordered.flatMap_perm (f := Image.quotes) fun _ => rfl
  have readyFits (middle : Graph) : Builder.Ready images middle → middle.methods.size < 2 ^ 32 :=
    ready_fits numbered (.refl _) built (fits .methods)
  have readyFitsToo (middle : Graph) : Builder.Ready others middle → middle.methods.size < 2 ^ 32 :=
    ready_fits numbered reordered built (fits .methods)
  obtain ⟨state, ran, same⟩ := build_ok built
  obtain ⟨stateToo, ranToo, sameToo⟩ := build_ok builtToo
  obtain ⟨knows, mentions, traffic, spelled⟩ :=
    Builder.package_quotes numbered apart ran readyFits
  obtain ⟨knowsToo, mentionsToo, trafficToo, spelledToo⟩ :=
    Builder.package_quotes numberedToo (reordered.apart apart) ranToo readyFitsToo
  rw [same] at knows traffic spelled
  rw [sameToo] at knowsToo trafficToo spelledToo
  have sameNames := declared.append (quoted.flatMap_right Quote.names)
  -- the other graph has as many entities, so its keys suffice as well
  have fitsToo : second.Fits := by
    intro kind
    rw [knowsToo.size_eq knows (fun _ => sameNames.mem_iff) kind]
    exact fits kind
  constructor
  · intro kind name
    rw [exists_named_iff formed, exists_named_iff formedToo, knows.names, knowsToo.names,
      sameNames.mem_iff]
  · intro kind a listed b listedToo named
    exact external_same numbered numberedToo apart reordered built builtToo kind listed listedToo
      named
  · intro a listed b listedToo named
    exact takesAfter_same numbered numberedToo apart reordered built builtToo fits fitsToo listed
      listedToo named
  · intro kind a listed b listedToo named
    -- both lists are those of the quotes, which come in another order
    apply (citations_perm formed fits traffic spelled listed).trans
    apply List.Perm.trans _ (citations_perm formedToo fitsToo trafficToo spelledToo listedToo).symm
    rw [named]
    exact ((quoted.filter _).flatMap_right _).symm

end Graph

namespace Image

/-- Images may be put in any order and numbered anew. -/
theorem Numbered.renumber {images order : List Image} (numbered : Numbered images)
    (reordered : order.Perm images) : Numbered (Package.renumber order.toArray).toList := by
  intro position image found
  rw [Array.getElem?_toList, Package.getElem?_renumber, List.getElem?_toArray] at found
  obtain ⟨old, there, rfl⟩ := Option.map_eq_some_iff.mp found
  have member := reordered.mem_iff.mp (List.mem_of_getElem? there)
  obtain ⟨⟨bytes, cancelled, loaded⟩, -⟩ := numbered _ _ (numbered.at_index member)
  refine ⟨⟨bytes, cancelled, ?_⟩, rfl⟩
  rw [load_index old.name old.index, loaded]
  rfl

theorem reordered_renumber {images order : List Image} (reordered : order.Perm images) :
    Reordered images (Package.renumber order.toArray).toList := by
  have same : (Package.renumber order.toArray).toList.map unnumbered = order.map unnumbered := by
    apply List.ext_getElem?
    intro place
    simp only [List.getElem?_map, Array.getElem?_toList, Package.getElem?_renumber,
      List.getElem?_toArray, Option.map_map]
    rfl
  rw [Reordered, same]
  exact reordered.map unnumbered

end Image

namespace Graph

/-- Images that declare no name in common make the same graph in every order, up to the order of its
lists: the same names, flags, ancestors and uses. While keys suffice for one order, they do for
all. Whether an entity is external is the same in any case. -/
theorem build_reordered {images order : List Image} (numbered : Image.Numbered images)
    (apart : Image.Apart images) (reordered : order.Perm images) (keepUses : Bool) :
    ∃ first second, (build false keepUses images).outcome = .ok first ∧
      (build false keepUses (Package.renumber order.toArray).toList).outcome = .ok second ∧
      (∀ kind, ∀ a ∈ (first.registry kind).arena, ∀ b ∈ (second.registry kind).arena,
        Entity.name kind a = Entity.name kind b → Entity.external kind a = Entity.external kind b) ∧
      ((∀ kind, (first.registry kind).size < 2 ^ 32) → first.Alike second) := by
  have numberedToo := numbered.renumber reordered
  have same := Image.reordered_renumber reordered
  obtain ⟨first, built, -⟩ := build_populated numbered keepUses
  obtain ⟨second, builtToo, -⟩ := build_populated numberedToo keepUses
  refine ⟨first, second, built, builtToo, ?_, fun fits => ?_⟩
  · intro kind a listed b listedToo
    exact external_same numbered numberedToo apart same built builtToo kind listed listedToo
  · exact alike_of_reordered numbered numberedToo apart same built builtToo fits

end Graph

/-! ### A class and its heir

The class of the small image has a subclass in an image of its own. -/

namespace HeirSample

def pools : Pools where
  strings := #["LA;", "LB;"]
  types := #[0, 1]
  protos := #[]
  fields := #[]
  methods := #[]

def classDef : ClassDef := { Sample.classDef with type := 1, superclass := some 0, data := none }

/-- Behind the tables are the two texts, each with its length and a zero. -/
def header : Header := Layout.header 35 pools [classDef] 10

def bytes : Bytes := (Layout.image 35 pools [classDef]).toArray

def container : Container := ⟨header, pools, #[classDef], bytes⟩

def image : Image where
  name := "classes2.dex"
  index := 1
  container := container
  classesByName := Image.indexClasses container
  declared := Image.indexMethods container
  bodies := ∅

theorem loaded : (Image.load "classes2.dex" 1 bytes false).outcome = .ok image := by
  have ran : ∃ cursor, Container.readUnchecked 1 bytes ⟨0, #[]⟩ =
      .ok (header, pools, [classDef]) cursor :=
    Reader.ok_of_check (by decide +kernel)
  have accepted : Container.checkDef pools ∅ 0 classDef = .ok () := by
    simp only [Container.checkDef, Std.HashSet.contains_empty]
    rfl
  have parsed : (Container.parse bytes false).outcome = .ok container :=
    Container.parse_of_readUnchecked ran ⟨accepted, trivial⟩
  have entries : Image.entries container = [] := rfl
  exact Image.load_of_uncoded parsed (by simp [entries]) "classes2.dex" 1

def images : List Image := [Sample.image, image]

theorem numbered : Image.Numbered images := by
  intro position other found
  match position, found with
  | 0, found =>
    obtain rfl := Option.some.inj found
    exact ⟨⟨Sample.bytes, false, Sample.loaded⟩, rfl⟩
  | 1, found =>
    obtain rfl := Option.some.inj found
    exact ⟨⟨bytes, false, loaded⟩, rfl⟩

theorem names : image.names = [(.classes, "LB;")] := rfl

theorem apart : Image.Apart images := by
  have disjoint : List.Disjoint Sample.image.names image.names := by
    intro entry inFirst inSecond
    rw [names, List.mem_singleton] at inSecond
    rw [inSecond, Image.mem_names_classes] at inFirst
    obtain ⟨classDef, defined, named⟩ := inFirst
    obtain rfl := Array.mem_singleton.mp defined
    exact absurd named (by decide)
  exact .cons (by simpa using disjoint) (.cons (by simp) .nil)

theorem entityBound_lt : Image.entityBound images < 2 ^ 32 := by
  have first : Image.entityBound [Sample.image] = 11 := Sample.entityBound_eq
  have second : Image.entityBound [image] = 1 := by decide +kernel
  simp only [Image.entityBound, List.map_cons, List.map_nil, List.sum_cons, List.sum_nil]
    at first second
  simp only [Image.entityBound, images, List.map_cons, List.map_nil, List.sum_cons, List.sum_nil]
  omega

theorem headings : images.flatMap (Image.headings · "LB;") = [⟨1, some "LA;", []⟩] := rfl

/-- The heir is linked to the class in the other image. -/
theorem superclass_spelled {graph : Graph} {keepUses : Bool}
    (built : (Graph.build false keepUses images).outcome = .ok graph) (fits : graph.Fits)
    {c : ClassEntity} (listed : c ∈ graph.classes.arena) (named : c.name = "LB;") :
    c.superclass.map graph.spellLink = some (true, some "LA;") := by
  have takes := Graph.class_takesAfter numbered built (fits .classes) listed
  rw [named, headings] at takes
  obtain ⟨-, superclass, -⟩ := takes
  revert superclass
  cases c.superclass with
  | none => rintro ⟨⟩
  | some link =>
    rintro (links | -)
    cases link with
    | inside key =>
      have known : (graph.registry .classes).byName["LA;"]? = some key := links.2
      rw [Option.map_some, Graph.spellLink,
        Graph.nameAt?_of_known (Graph.populated_of_build numbered built).1 fits known]
    | outside other => exact absurd ⟨Sample.image, List.mem_cons_self, 0, rfl⟩ links.1

end HeirSample

namespace Graph

/-- With the heir first its ancestor is linked as it is with the heir behind. -/
theorem build_reordered_heir :
    ∃ first second a b, (build false true HeirSample.images).outcome = .ok first ∧
      (build false true (Package.renumber HeirSample.images.reverse.toArray).toList).outcome =
        .ok second ∧
      (∀ kind, (first.registry kind).size < 2 ^ 32) ∧ first.Alike second ∧
      a ∈ first.classes.arena ∧ b ∈ second.classes.arena ∧ a.name = "LB;" ∧ b.name = "LB;" ∧
      a.superclass.map first.spellLink = some (true, some "LA;") ∧
      b.superclass.map second.spellLink = some (true, some "LA;") := by
  obtain ⟨first, second, built, builtToo, -, alike⟩ :=
    build_reordered HeirSample.numbered HeirSample.apart
      (List.reverse_perm HeirSample.images) true
  have fits (kind : EntityKind) : (first.registry kind).size < 2 ^ 32 :=
    Nat.lt_of_le_of_lt (size_le_entityBound built kind) HeirSample.entityBound_lt
  have alike := alike fits
  obtain ⟨formed, declared⟩ := populated_of_build HeirSample.numbered built
  have coherent := formed.coherent .classes
  obtain ⟨key, bound⟩ := (declared HeirSample.image (by simp [HeirSample.images])
    HeirSample.classDef (Array.mem_singleton.mpr rfl)).type
  obtain ⟨name, named, known⟩ := coherent.records bound
  obtain rfl : "LB;" = name := Option.some.inj (Eq.trans (by rfl) named)
  obtain ⟨a, listed, own⟩ := (exists_named_iff formed).mpr
    ((Registry.mem_byName_iff _).mpr ⟨key, known⟩)
  obtain ⟨b, listedToo, ownToo⟩ := (alike.names .classes "LB;").mp ⟨a, listed, own⟩
  have spelled := HeirSample.superclass_spelled built fits listed own
  have same := (alike.classes a listed b listedToo (own.trans ownToo.symm)).2.1
  exact ⟨first, second, a, b, built, builtToo, fits, alike, listed, listedToo, own, ownToo,
    spelled, same.symm.trans spelled⟩

end Graph

end DexAtlas
