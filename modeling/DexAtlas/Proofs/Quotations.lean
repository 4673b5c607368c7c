import DexAtlas.Proofs.Balance
import DexAtlas.Proofs.Definitions
import DexAtlas.Proofs.Membership

/-!
# Graphs in names

A graph says everything in keys, and which key an entity gets depends on when it was made. Here the
same is said in names. The names that a graph knows are those that its images declare and those that
their code quotes. Its uses are noted mention by mention, and each mention says in keys what a quote
says in names. Which code is quoted is a matter of each image by itself as long as no two images
declare the same name, and so neither the names nor the quotes depend on the numbers of images.
-/
namespace DexAtlas

/-! ### Quotes -/

/-- A reference in code as it reads: who makes it and where, and what it names. -/
structure Quote where
  caller : String
  /-- The class of the caller. -/
  source : String
  offset : Nat
  kind : EntityKind
  target : String
  /-- The class that is used with the target, and how. -/
  used : Option (String × ClassUse)
  /-- Whether a field is written. -/
  write : Bool

namespace Quote

/-- What a quote makes known: its target and the class that is used with it. -/
def names (quote : Quote) : List (EntityKind × String) :=
  quote.used.toList.map (fun used => (.classes, used.1)) ++ [(quote.kind, quote.target)]

end Quote

/-- The quote of a reference. None is made of a reference that names no entity, or of a type operand
that stands for no use. -/
def Reference.quote? (caller source : String) (insn : Instruction) (reference : Reference) :
    Option Quote :=
  match reference with
  | .type .. => (reference.used? insn).map fun used =>
      ⟨caller, source, insn.offset, .classes, used.1, some used, false⟩
  | _ => reference.named?.map fun named =>
      ⟨caller, source, insn.offset, named.1, named.2, reference.used? insn,
        reference.writes insn⟩

/-- A member is always quoted. -/
theorem MemberKind.quote?_reference (kind : MemberKind) (index : Nat) (member : Pools.Member)
    (caller source : String) (insn : Instruction) :
    (kind.reference index member).quote? caller source insn =
      some ⟨caller, source, insn.offset, kind.sort, kind.fullName member,
        (Descriptor.ownClass? member.owner).map (·, kind.use), kind.writes insn⟩ := by
  cases kind <;> rfl

/-! ### Names -/

/-- These are the names that a graph knows, and it has one entity for each. -/
structure Graph.Knows (names : List (EntityKind × String)) (graph : Graph) : Prop where
  names : ∀ kind name, name ∈ (graph.registry kind).byName ↔ (kind, name) ∈ names
  sizes : ∀ kind, (graph.registry kind).size = (graph.registry kind).byName.size

/-- Graphs that know the same names have as many entities. -/
theorem Graph.Knows.size_eq {first second : Graph} {names others : List (EntityKind × String)}
    (knows : first.Knows names) (knowsToo : second.Knows others)
    (same : ∀ entry, entry ∈ names ↔ entry ∈ others) (kind : EntityKind) :
    (first.registry kind).size = (second.registry kind).size := by
  have keys : (first.registry kind).byName.keys.Perm (second.registry kind).byName.keys := by
    rw [List.perm_ext_iff_of_nodup Std.HashMap.nodup_keys Std.HashMap.nodup_keys]
    intro name
    rw [Std.HashMap.mem_keys, Std.HashMap.mem_keys, knows.names, knowsToo.names, same]
  rw [knows.sizes, knowsToo.sizes, ← Std.HashMap.length_keys, ← Std.HashMap.length_keys,
    keys.length_eq]

namespace Registry

variable {kind : EntityKind} {α : Type}

/-- An entity is made exactly for a name that is new. -/
theorem size_intern {registry : Registry kind α} (name : String) (make : Key kind → α)
    (sizes : registry.size = registry.byName.size) :
    (registry.intern name make).2.size = (registry.intern name make).2.byName.size := by
  rcases registry.intern_cases name make with ⟨key, -, result⟩ | ⟨new, result⟩
  · rw [result]
    exact sizes
  · rw [size] at sizes
    rw [result, size, Array.size_push, Std.HashMap.size_insert,
      if_neg ((not_mem_byName_iff _).mpr new), sizes]

end Registry

namespace Builder

open DexAtlas.Graph (Continues Knows)

variable {α : Type}

theorem accrues_knows : Accrues (Continues Knows) := accrues_continues

/-- Only what is in a list of names matters. -/
theorem knows_congr {names others : List (EntityKind × String)} {step : Builder α}
    (same : ∀ entry, entry ∈ names ↔ entry ∈ others)
    (knows : Follows (Continues Knows names) step) : Follows (Continues Knows others) step := by
  intro state _ after ran list before
  obtain ⟨known, sizes⟩ := knows ran list before
  refine ⟨fun kind name => ?_, sizes⟩
  rw [known, List.mem_append, List.mem_append, same]

theorem knows_intern (kind : EntityKind) (name : String) (make : Key kind → Entity kind) :
    Follows (Continues Knows [(kind, name)]) (intern kind name make) := by
  intro state _ after ran names knows
  rw [(intern_ok ran).2]
  constructor
  · intro other found
    by_cases same : other = kind
    · subst same
      rw [Graph.registry_set, Registry.mem_byName_intern, knows.names]
      simp [or_comm]
    · rw [Graph.registry_set_of_ne _ same, knows.names]
      simp [same]
  · intro other
    by_cases same : other = kind
    · subst same
      rw [Graph.registry_set]
      exact Registry.size_intern name make (knows.sizes other)
    · rw [Graph.registry_set_of_ne _ same, knows.sizes]

theorem knows_onRegistry {kind : EntityKind}
    {step : Registry kind (Entity kind) → Except Cause α × Registry kind (Entity kind)}
    (keeps : ∀ registry, (step registry).2.byName = registry.byName ∧
      (step registry).2.size = registry.size) :
    Follows (Continues Knows []) (onRegistry kind step) := by
  apply follows_onRegistry
  intro graph names knows
  rw [List.append_nil]
  constructor
  · intro other found
    by_cases same : other = kind
    · subst same
      rw [Graph.registry_set, (keeps _).1, knows.names]
    · rw [Graph.registry_set_of_ne _ same, knows.names]
  · intro other
    by_cases same : other = kind
    · subst same
      rw [Graph.registry_set, (keeps _).1, (keeps _).2, knows.sizes]
    · rw [Graph.registry_set_of_ne _ same, knows.sizes]

theorem knows_bind {kind : EntityKind} (record : Record) (key : Key kind) :
    Follows (Continues Knows []) (bind kind record key) := by
  apply knows_onRegistry
  intro registry
  rw [Registry.byName_bind, Registry.size, Registry.arena_bind]
  exact ⟨rfl, rfl⟩

theorem knows_update {kind : EntityKind} {what : String} (key : Key kind)
    (change : Entity kind → Entity kind) :
    Follows (Continues Knows []) (update kind what key change) := by
  apply knows_onRegistry
  intro registry
  split
  · simp [Registry.modify, Registry.size]
  · exact ⟨rfl, rfl⟩

end Builder

/-! ### Declared names -/

/-- The names that a definition declares: the class, its fields and its methods. -/
def ClassDef.names (pools : Pools) (classDef : ClassDef) : List (EntityKind × String) :=
  (pools.typeDescriptor? classDef.type).toList.map (.classes, ·) ++
    ((classDef.fields.flatMap fun field => (pools.fieldName? field.id).toList.map (.fields, ·)) ++
      classDef.methods.flatMap fun method => (pools.methodName? method.id).toList.map (.methods, ·))

/-- The names that an image declares. -/
def Image.names (image : Image) : List (EntityKind × String) :=
  image.container.classDefs.toList.flatMap (ClassDef.names image.container.pools)

namespace Builder

open DexAtlas.Graph (Continues Knows)

/-- A declared member is interned and bound; what follows makes no name known. -/
theorem knows_declareMember (kind : MemberKind) (image : Image) (owner : ClassKey)
    (id access : Nat) (external : Bool) :
    Follows (Continues Knows
        ((image.container.pools.nameOf? kind.sort id).toList.map (kind.sort, ·)))
      (declareMember kind image owner id access external) := by
  unfold declareMember
  cases found : kind.find? image.container.pools id with
  | none => exact .fail _
  | some member =>
    rw [Pools.nameOf?_of_find? found]
    apply accrues_knows.first (knows_intern _ _ _)
    rintro ⟨key, created⟩
    apply accrues_knows.later (knows_bind _ _)
    intro _
    split
    · exact knows_update _ _
    · exact follows_noteRedeclaration accrues_knows.chained member kind

theorem knows_declareClass (image : Image) (position : Nat) (classDef : ClassDef) :
    Follows (Continues Knows (classDef.names image.container.pools))
      (declareClass image position classDef) := by
  unfold declareClass
  dsimp only
  split
  next name named =>
    rw [ClassDef.names, show image.container.pools.typeDescriptor? classDef.type = some name from
      named]
    apply accrues_knows.bind (knows_intern _ _ _)
    rintro ⟨key, created⟩
    apply accrues_knows.later (knows_bind _ key)
    intro _
    apply accrues_knows.later (knows_update key _)
    intro _
    apply accrues_knows.later (follows_noteRedefinition accrues_knows.chained image key)
    intro _
    apply accrues_knows.bind
      (accrues_knows.forM fun _ _ => knows_declareMember .field image key _ _ _)
    intro _
    apply accrues_knows.first
      (accrues_knows.forM fun _ _ => knows_declareMember .method image key _ _ _)
    exact fun _ => .raise accrues_knows.chained _
  next => exact .fail _

theorem knows_declared (cancelled : Bool) (images : List Image) :
    Follows (Continues Knows (images.flatMap Image.names))
      (images.forM fun image => within (.image image.name) (declareImage cancelled image)) := by
  apply accrues_knows.forM
  intro image _
  apply Follows.within
  -- the positions of the definitions do not matter here
  have names : image.names = image.container.classDefs.toList.zipIdx.flatMap fun entry =>
      entry.1.names image.container.pools := by
    rw [← List.flatMap_map Prod.fst (ClassDef.names image.container.pools), List.zipIdx_map_fst]
    rfl
  rw [names]
  apply accrues_knows.forM
  rintro ⟨classDef, position⟩ _
  apply accrues_knows.later (.ensureRunning accrues_knows.chained cancelled)
  exact fun _ => knows_declareClass image position classDef

theorem knows_linkClasses : Follows (Continues Knows []) linkClasses := by
  apply knows_onRegistry
  intro registry
  simp [Registry.map, Registry.size]

/-! ### Quoted names -/

theorem knows_classFor (descriptor : String) :
    Follows (Continues Knows [(.classes, descriptor)]) (classFor descriptor) :=
  accrues_knows.first (knows_intern _ _ _) fun _ => .pure accrues_knows.chained _

theorem knows_ownerFor (descriptor : String) :
    Follows (Continues Knows ((Descriptor.ownClass? descriptor).toList.map (.classes, ·)))
      (ownerFor descriptor) := by
  unfold ownerFor Descriptor.ownClass?
  split
  · exact accrues_knows.first (knows_classFor descriptor) fun _ => .pure accrues_knows.chained _
  · exact .pure accrues_knows.chained _

theorem knows_enrol (created : Bool) (owner : Option ClassKey)
    (change : ClassEntity → ClassEntity) :
    Follows (Continues Knows []) (enrol created owner change) := by
  unfold enrol
  split
  · exact knows_update _ _
  · exact .pure accrues_knows.chained _

theorem knows_addUse (site : Site) (target : Target) :
    Follows (Continues Knows []) (addUse site target) := by
  unfold addUse updateMethod
  exact knows_update _ _

theorem knows_addEdge (source target : Option ClassKey) (use : ClassUse) (site : Site) :
    Follows (Continues Knows []) (addEdge source target use site) := by
  unfold addEdge
  split
  · exact accrues_knows.later (knows_update _ _) fun _ => knows_update _ _
  · exact .pure accrues_knows.chained _

/-- A member that code refers to, with its class. -/
theorem knows_meetMember (kind : MemberKind) (record : Record) (member : Pools.Member) :
    Follows (Continues Knows ((Descriptor.ownClass? member.owner).toList.map (.classes, ·) ++
        [(kind.sort, kind.fullName member)]))
      (meetMember kind record member) := by
  apply accrues_knows.bind (knows_ownerFor member.owner)
  intro owner
  apply accrues_knows.first (knows_intern _ _ _)
  rintro ⟨key, created⟩
  apply accrues_knows.later (knows_enrol _ _ _)
  intro _
  exact accrues_knows.later (knows_bind _ _) fun _ => .pure accrues_knows.chained _

theorem knows_useMember (kind : MemberKind) (keepUses : Bool) (scene : Scene)
    (caller source : String) (index : Nat) (member : Pools.Member) :
    Follows (Continues Knows (((kind.reference index member).quote? caller source
        scene.insn).toList.flatMap Quote.names))
      (useMember kind keepUses scene index member) := by
  have quoted : ((kind.reference index member).quote? caller source scene.insn).toList.flatMap
      Quote.names = (Descriptor.ownClass? member.owner).toList.map (.classes, ·) ++
        [(kind.sort, kind.fullName member)] := by
    rw [kind.quote?_reference]
    cases Descriptor.ownClass? member.owner <;> rfl
  rw [quoted]
  apply accrues_knows.first (knows_meetMember kind _ member)
  rintro ⟨owner, key⟩
  apply Follows.optional accrues_knows.chained
  apply accrues_knows.later (knows_update _ _)
  intro _
  exact accrues_knows.later (knows_addUse _ _) fun _ => knows_addEdge _ _ _ _

theorem knows_meetString (record : Record) (value : String) :
    Follows (Continues Knows [(.strings, value)]) (meetString record value) := by
  apply accrues_knows.first (knows_intern _ _ _)
  exact fun _ => accrues_knows.later (knows_bind _ _) fun _ => .pure accrues_knows.chained _

theorem knows_meetClass (record : Record) (descriptor element : String) :
    Follows (Continues Knows [(.classes, element)]) (meetClass record descriptor element) := by
  apply accrues_knows.first (knows_classFor element)
  intro key
  split
  · exact accrues_knows.later (knows_bind _ _) fun _ => .pure accrues_knows.chained _
  · exact .pure accrues_knows.chained _

/-- The names that the use of a reference makes known are those of its quote, whether uses are kept
or not. -/
theorem knows_use (keepUses : Bool) (scene : Scene) (caller source : String)
    (reference : Reference) :
    Follows (Continues Knows
        ((reference.quote? caller source scene.insn).toList.flatMap Quote.names))
      (use keepUses scene reference) := by
  cases reference with
  | string index value =>
    apply accrues_knows.first (knows_meetString _ value)
    intro key
    apply Follows.optional accrues_knows.chained
    exact accrues_knows.later (knows_update _ _) fun _ => knows_addUse _ _
  | type index descriptor =>
    simp only [use, useType, Reference.quote?, Reference.used?]
    cases ClassUse.ofMnemonic? scene.insn.name with
    | none => exact .pure accrues_knows.chained _
    | some way =>
      cases Descriptor.elementClass? descriptor with
      | none => exact .pure accrues_knows.chained _
      | some element =>
        -- the class is the target of the quote and is used with it
        have same (entry : EntityKind × String) : entry ∈ [(EntityKind.classes, element)] ↔
            entry ∈ [(⟨caller, source, scene.insn.offset, .classes, element, some (element, way),
              false⟩ : Quote)].flatMap Quote.names := by
          simp [Quote.names]
        apply knows_congr same
        · apply accrues_knows.first (knows_meetClass _ descriptor element)
          intro key
          apply Follows.optional accrues_knows.chained
          exact accrues_knows.later (knows_addUse _ _) fun _ => knows_addEdge _ _ _ _
  | field index member => exact knows_useMember .field keepUses scene caller source index member
  | method index member => exact knows_useMember .method keepUses scene caller source index member
  | proto | callSite | methodHandle => exact .pure accrues_knows.chained _

end Builder

/-! ### Mentions are quotes -/

/-- A mention says in keys what a quote says in names. -/
structure Graph.Spells (graph : Graph) (mention : Mention) (quote : Quote) : Prop where
  caller : graph.methods.byName[quote.caller]? = some mention.site.method
  offset : mention.site.offset = quote.offset
  source : graph.Leads (some quote.source) mention.source
  target : graph.target? quote.kind quote.target = some mention.target
  used : graph.Uses quote.used mention.used
  write : mention.write = quote.write

theorem Graph.Uses.isSome {graph : Graph} {named : Option (String × ClassUse)}
    {keyed : ClassKey × ClassUse} (uses : graph.Uses named (some keyed)) :
    named.isSome = true := by
  cases uses
  rfl

namespace Reference

variable {caller source : String} {insn : Instruction} {reference : Reference}

theorem quote?_eq_none
    (skipped : reference.named? = none ∨ (∃ index descriptor, reference = .type index descriptor) ∧
      ClassUse.ofMnemonic? insn.name = none) :
    reference.quote? caller source insn = none := by
  rcases skipped with unnamed | ⟨⟨index, descriptor, rfl⟩, unknown⟩
  · cases reference with
    | type index descriptor =>
      have nothing : Descriptor.elementClass? descriptor = none := by simpa [named?] using unnamed
      cases mnemonic : ClassUse.ofMnemonic? insn.name <;> simp [quote?, used?, nothing, mnemonic]
    | string | field | method => cases unnamed
    | proto | callSite | methodHandle => rfl
  · simp [quote?, used?, unknown]

/-- A reference that names an entity is quoted, and so is a type operand if it stands for a use. -/
theorem quote?_of_named {kind : EntityKind} {name : String}
    (named : reference.named? = some (kind, name))
    (used : kind = .classes → (reference.used? insn).isSome = true) :
    reference.quote? caller source insn = some ⟨caller, source, insn.offset, kind, name,
      reference.used? insn, reference.writes insn⟩ := by
  cases reference with
  | type index descriptor =>
    obtain ⟨element, behind, same⟩ := Option.map_eq_some_iff.mp named
    obtain ⟨rfl, rfl⟩ := Prod.mk.inj same
    have usedToo := used rfl
    cases mnemonic : ClassUse.ofMnemonic? insn.name with
    | none => simp [used?, mnemonic] at usedToo
    | some way => simp [quote?, used?, writes, mnemonic, behind]
  | string | field | method =>
    cases named
    rfl
  | proto | callSite | methodHandle => cases named

end Reference

namespace Builder

open DexAtlas.Graph (Continues Grows Knows)

/-- Between two graphs of a search these quotes are met: their names become known, and if uses are
kept, they are what is noted. The start and the end of the whole search are given along, as who
calls is known at the start, and what is called may be known at the end only. -/
structure Logs (start final : Graph) (keepUses : Bool) (quotes : List Quote)
    (before after : Graph) : Prop where
  grows : Grows before after
  logged : Grows start before → Grows after final →
    Continues Knows (quotes.flatMap Quote.names) before after ∧
    ∃ mentions, after.traffic = mentions.foldl Traffic.add before.traffic ∧
      List.Forall₂ final.Spells mentions (quotes.filter fun _ => keepUses)

variable {start final : Graph} {keepUses : Bool}

theorem accrues_logs : Accrues (Logs start final keepUses) where
  refl graph := by
    refine ⟨chained_grows.refl graph, fun _ _ => ⟨accrues_knows.refl graph, [], rfl, .nil⟩⟩
  trans first second := by
    refine ⟨chained_grows.trans first.grows second.grows, fun since upTo => ?_⟩
    -- each half lies between the same start and end as the whole
    obtain ⟨knows, xs, addedXs, spelledXs⟩ :=
      first.logged since (chained_grows.trans second.grows upTo)
    obtain ⟨knowsToo, ys, addedYs, spelledYs⟩ :=
      second.logged (chained_grows.trans since first.grows) upTo
    rw [List.flatMap_append, List.filter_append]
    refine ⟨accrues_knows.trans knows knowsToo, xs ++ ys, ?_, List.rel_append spelledXs spelledYs⟩
    rw [List.foldl_append, ← addedXs, ← addedYs]

theorem logs_use {scene : Scene} {caller source : String}
    (called : final.methods.byName[caller]? = some scene.site.method)
    (placed : scene.site.offset = scene.insn.offset)
    (sourced : final.Leads (some source) scene.owner) (reference : Reference) :
    Follows (Logs start final keepUses (reference.quote? caller source scene.insn).toList)
      (use keepUses scene reference) := by
  intro state _ after ran
  have knows := knows_use keepUses scene caller source reference ran
  cases use_ok ran with
  | skipped quiet reason =>
    refine ⟨quiet.toGrows, fun _ _ => ⟨knows, [], quiet.traffic, ?_⟩⟩
    cases keepUses with
    | false => simp
    | true => simp [Reference.quote?_eq_none (reason rfl)]
  | noted kind name mention kept named located consistent target grows traffic used write =>
    refine ⟨grows, fun _ upTo => ⟨knows, [mention], traffic, ?_⟩⟩
    -- a class is noted only with the use that is made of it, so its type operand is quoted
    have isUsed : kind = .classes → (reference.used? scene.insn).isSome = true := by
      rintro rfl
      obtain ⟨key, -, own⟩ := Option.map_eq_some_iff.mp target
      unfold Mention.Consistent at consistent
      rw [← own] at consistent
      obtain ⟨use, given, -⟩ := consistent
      rw [given] at used
      exact used.isSome
    have quoted : reference.quote? caller source scene.insn = some _ :=
      Reference.quote?_of_named named isUsed
    rw [quoted, kept, Option.toList_some, List.filter_true]
    refine .cons ⟨?_, ?_, ?_, upTo.larger.target? target, used.of_extends upTo.larger, write⟩ .nil
    · rw [located.1]
      exact called
    · rw [located.1]
      exact placed
    · rw [located.2]
      exact sourced

end Builder

/-- The quotes of a body of code. -/
def Instruction.quotes (caller source : String) (body : Array Instruction) : List Quote :=
  body.toList.flatMap fun insn => insn.references.flatMap fun reference =>
    (reference.quote? caller source insn).toList

namespace Builder

variable {start final : Graph} {keepUses : Bool}

theorem logs_searchBody {caller source : String} {key : MethodKey} {owner : Option ClassKey}
    (called : final.methods.byName[caller]? = some key) (sourced : final.Leads (some source) owner)
    (image : Nat) (body : Array Instruction) :
    Follows (Logs start final keepUses (Instruction.quotes caller source body))
      (searchBody keepUses image key owner body) := by
  apply accrues_logs.forM
  intro insn _
  apply accrues_logs.forM
  exact fun reference _ => logs_use called rfl sourced reference

end Builder

/-! ### Images apart -/

namespace Image

/-- No name is declared by two of the images. -/
def Apart (images : List Image) : Prop :=
  images.Pairwise fun a b => List.Disjoint a.names b.names

/-- The entries of an image that declare a method of that name, in order. -/
def declaredAs (image : Image) (name : String) : List EncodedMethod :=
  image.container.classDefs.toList.flatMap fun classDef => classDef.methods.filter fun method =>
    image.container.pools.methodName? method.id = some name

variable {images : List Image} {image : Image} {name : String}

theorem mem_names_classes : (.classes, name) ∈ image.names ↔
    ∃ classDef ∈ image.container.classDefs, image.container.className? classDef = some name := by
  simp [names, ClassDef.names, Container.className?]

theorem mem_names_methods : (.methods, name) ∈ image.names ↔
    ∃ classDef ∈ image.container.classDefs, ∃ method ∈ classDef.methods,
      image.container.pools.methodName? method.id = some name := by
  simp [names, ClassDef.names]

theorem declaredAs_eq_nil (elsewhere : (.methods, name) ∉ image.names) :
    image.declaredAs name = [] := by
  rw [declaredAs, List.flatMap_eq_nil_iff]
  intro classDef defined
  rw [List.filter_eq_nil_iff]
  intro method listed named
  exact elsewhere (mem_names_methods.mpr
    ⟨classDef, Array.mem_toList_iff.mp defined, method, listed, of_decide_eq_true named⟩)

/-- What only images with a certain name contribute to is contributed by one of them. -/
theorem Apart.flatMap_eq {β : Type} (apart : Apart images) (member : image ∈ images)
    {entry : EntityKind × String} (own : entry ∈ image.names) {f : Image → List β}
    (elsewhere : ∀ other : Image, entry ∉ other.names → f other = []) :
    images.flatMap f = f image := by
  obtain ⟨earlier, later, rfl⟩ := List.append_of_mem member
  obtain ⟨-, after, before⟩ := List.pairwise_append.mp apart
  have first : earlier.flatMap f = [] := by
    rw [List.flatMap_eq_nil_iff]
    exact fun other listed => elsewhere other fun there =>
      before other listed image List.mem_cons_self there own
  have last : later.flatMap f = [] := by
    rw [List.flatMap_eq_nil_iff]
    exact fun other listed => elsewhere other fun there =>
      (List.pairwise_cons.mp after).1 other listed own there
  rw [List.flatMap_append, List.flatMap_cons, first, last, List.nil_append, List.append_nil]

theorem flatMap_declares (methods : List EncodedMethod) :
    methods.flatMap (image.declares name) = (methods.filter fun method =>
      image.container.pools.methodName? method.id = some name).map fun method =>
        (⟨image.index, method.id⟩, method) := by
  induction methods with
  | nil => rfl
  | cons method rest ih =>
    rw [List.flatMap_cons, ih, declares]
    by_cases named : image.container.pools.methodName? method.id = some name <;> simp [named]

theorem declarationsOf_eq (images : List Image) (name : String) :
    declarationsOf images name = images.flatMap fun image =>
      (image.declaredAs name).map fun method => (⟨image.index, method.id⟩, method) := by
  simp only [declarationsOf, flatMap_declares, declaredAs, List.map_flatMap]

/-- A method that one image declares has no declaration but those of the image. -/
theorem Apart.declarationsOf (apart : Apart images) (member : image ∈ images)
    (own : (.methods, name) ∈ image.names) :
    Image.declarationsOf images name =
      (image.declaredAs name).map fun method => (⟨image.index, method.id⟩, method) := by
  rw [declarationsOf_eq]
  apply apart.flatMap_eq member own
  intro other elsewhere
  rw [declaredAs_eq_nil elsewhere, List.map_nil]

/-- The quotes of the code of a method, if the entry is the one that counts. -/
def quotesOf (image : Image) (method : EncodedMethod) : List Quote :=
  match image.container.pools.method? method.id, image.body? method.id with
  | some parts, some body =>
    if (image.declaredAs parts.methodName).head?.map EncodedMethod.id = some method.id then
      Instruction.quotes parts.methodName parts.owner body
    else []
  | _, _ => []

/-- All quotes of an image, in the order in which its code is searched. -/
def quotes (image : Image) : List Quote :=
  image.container.classDefs.toList.flatMap fun classDef =>
    (classDef.methods.filter fun method => method.code.isSome).flatMap image.quotesOf

end Image

/-! ### The search -/

/-- A caller in a graph: the entry of the image leads to it, and so does its name. -/
structure Graph.Calls (graph : Graph) (image : Image) (method : EncodedMethod)
    (parts : Pools.Member) (key : MethodKey) (caller : MethodEntity) : Prop where
  bound : graph.methods.byRecord[(⟨image.index, method.id⟩ : Record)]? = some key
  present : graph.methods.get? key = some caller
  known : graph.methods.byName[parts.methodName]? = some key
  /-- It is located at the entry exactly if this is the first of its name. -/
  counts : caller.location = some ⟨image.index, method.id⟩ ↔
    (image.declaredAs parts.methodName).head?.map EncodedMethod.id = some method.id
  owned : caller.location = some ⟨image.index, method.id⟩ →
    graph.Leads (some parts.owner) caller.owner

namespace Builder

open DexAtlas.Graph (Grows)

variable {images : List Image} {image : Image} {classDef : ClassDef} {method : EncodedMethod}
  {parts : Pools.Member} {keepUses : Bool}

/-- Every entry has its caller in the graph that was built. Callers are declared, so it is enough
that keys suffice before code is searched. -/
theorem calls_of_package (numbered : Image.Numbered images) (apart : Image.Apart images)
    {state : Build} (ran : package false keepUses images {} = .ok () state) {middle : Graph}
    (populated : Populated images middle) (fits : middle.methods.size < 2 ^ 32)
    (searched : (middle.registry .methods).Meets (state.graph.registry .methods))
    (member : image ∈ images)
    (defined : classDef ∈ image.container.classDefs) (listed : method ∈ classDef.methods)
    (found : image.container.pools.method? method.id = some parts) :
    ∃ key caller, state.graph.Calls image method parts key caller := by
  have built : (Graph.build false keepUses images).outcome = .ok state.graph := by
    rw [Graph.build, ran]
  have coherent := populated.1.coherent .methods
  have spelled : image.container.pools.methodName? method.id = some parts.methodName := by
    simp [Pools.methodName?, found]
  obtain ⟨key, bound⟩ := (populated.2 image member classDef defined).methods method listed
  obtain ⟨name, named, known⟩ := coherent.records bound
  rw [Image.naming_of_get? (numbered.at_index member)] at named
  obtain rfl : parts.methodName = name := Option.some.inj (spelled.symm.trans named)
  obtain ⟨old, there, oldName⟩ := coherent.get?_of_name fits known
  obtain ⟨caller, present, bare⟩ : ∃ caller : MethodEntity, state.graph.methods.get? key =
      some caller ∧ Entity.bare .methods caller = Entity.bare .methods old := searched.kept there
  have own : caller.fullName = parts.methodName :=
    (Entity.name_of_bare bare).trans oldName
  -- no other image declares the name, so the first declaration is the first of this image
  have location := (Graph.method_declared built (Array.mem_of_getElem? present)).1
  rw [own, apart.declarationsOf member
    (Image.mem_names_methods.mpr ⟨classDef, defined, method, listed, spelled⟩)] at location
  refine ⟨key, caller, searched.larger.records bound, present, searched.larger.names known, ?_,
    fun located => ?_⟩
  · rw [location]
    cases image.declaredAs parts.methodName with
    | nil => simp
    | cons first rest => simp
  · -- a located method stems from its entry, and its class is spelled there
    obtain ⟨count, members⟩ := package_members .method ran
    rcases members key.index caller present with ⟨-, stems⟩ | ⟨-, nowhere, -⟩
    · obtain ⟨origin, originIn, id, item, there, place, ownerName, owned, -⟩ := stems
      have same : some (⟨image.index, method.id⟩ : Record) = some ⟨origin.index, id⟩ :=
        located.symm.trans place
      obtain ⟨index, rfl⟩ := Record.mk.inj (Option.some.inj same)
      have place := numbered.at_index member
      rw [index] at place
      obtain rfl := Option.some.inj (place.symm.trans (numbered.at_index originIn))
      obtain rfl : parts = item := Option.some.inj (found.symm.trans there)
      obtain ⟨owner, has⟩ := Option.isSome_iff_exists.mp owned
      have leads := (Graph.membership_of_build .method numbered built).owned caller
        (Array.mem_of_getElem? present) owner has
      rw [show caller.owner = some owner from has]
      rw [ownerName] at leads
      exact .some leads
    · cases located.symm.trans nowhere

/-- A caller is the same at any time of the search. -/
theorem calls_between {start before final : Graph} (populated : Populated images start)
    (member : image ∈ images) (defined : classDef ∈ image.container.classDefs)
    (listed : method ∈ classDef.methods) (since : Grows start before) (upTo : Grows before final)
    {key : MethodKey} {caller : MethodEntity} (calls : final.Calls image method parts key caller) :
    before.methods.byRecord[(⟨image.index, method.id⟩ : Record)]? = some key ∧
      ∃ m, before.methods.get? key = some m ∧ m.owner = caller.owner ∧
        m.location = caller.location := by
  have coherent := populated.1.coherent .methods
  obtain ⟨other, bound⟩ := (populated.2 image member classDef defined).methods method listed
  -- the record was bound before the search, and a method never changes its class or its place
  have boundNow := (since.larger .methods).records bound
  obtain rfl : other = key :=
    Option.some.inj (((upTo.larger .methods).records boundNow).symm.trans calls.bound)
  obtain ⟨name, -, known⟩ := coherent.records bound
  obtain ⟨old, there⟩ := (Registry.contains_iff _ _).mp (coherent.contains known)
  obtain ⟨m, present, -, -⟩ := since.settled other old there
  obtain ⟨last, stillThere, owner, location⟩ := upTo.settled other m present
  obtain rfl := Option.some.inj (calls.present.symm.trans stillThere)
  exact ⟨boundNow, m, present, owner.symm, location.symm⟩

theorem logs_scanMethod {start final : Graph} (populated : Populated images start)
    (member : image ∈ images) (defined : classDef ∈ image.container.classDefs)
    (listed : method ∈ classDef.methods)
    (found : image.container.pools.method? method.id = some parts)
    (calling : ∃ key caller, final.Calls image method parts key caller) :
    Follows (Logs start final keepUses (image.quotesOf method))
      (scanMethod keepUses image method) := by
  intro state _ after ran
  obtain ⟨key, caller, calls⟩ := calling
  have between (since : Grows start state.graph) (upTo : Grows state.graph final) :=
    calls_between populated member defined listed since upTo calls
  cases scanMethod_ok ran with
  | passed unchanged reason =>
    subst unchanged
    refine ⟨chained_grows.refl _, fun since upTo => ?_⟩
    -- without a body, or elsewhere declared, the entry is not quoted either
    have nothing : image.quotesOf method = [] := by
      obtain ⟨bound, m, present, -, location⟩ := between since upTo
      cases decoded : image.body? method.id with
      | none => simp only [Image.quotesOf, found, decoded]
      | some body =>
        simp only [Image.quotesOf, found, decoded]
        apply if_neg
        intro counts
        exact reason key m body bound present (location.trans (calls.counts.mpr counts)) decoded
    rw [nothing]
    exact accrues_logs.refl _ |>.logged since upTo
  | searched other m body bound present located decoded ran =>
    have grows := (sustains_searchBody keepUses image.index other m.owner body ran).toGrows
    refine ⟨grows, fun since upTo => ?_⟩
    obtain ⟨boundToo, m', presentToo, owner, location⟩ :=
      between since (chained_grows.trans grows upTo)
    obtain rfl : other = key := Option.some.inj (bound.symm.trans boundToo)
    obtain rfl : m = m' := Option.some.inj (present.symm.trans presentToo)
    have counts := location.symm.trans located
    have quotes : image.quotesOf method =
        Instruction.quotes parts.methodName parts.owner body := by
      simp only [Image.quotesOf, found, decoded]
      exact if_pos (calls.counts.mp counts)
    rw [quotes]
    have sourced : final.Leads (some parts.owner) m.owner := owner ▸ calls.owned counts
    exact (logs_searchBody calls.known sourced image.index body ran).logged since upTo

/-- The search of all images meets all their quotes. -/
theorem logs_scanned (numbered : Image.Numbered images) {start final : Graph}
    (populated : Populated images start)
    (calling : ∀ image ∈ images, ∀ classDef ∈ image.container.classDefs,
      ∀ method ∈ classDef.methods, ∀ parts, image.container.pools.method? method.id = some parts →
        ∃ key caller, final.Calls image method parts key caller) :
    Follows (Logs start final keepUses (images.flatMap Image.quotes))
      (images.forM fun image => within (.image image.name) (scanImage false keepUses image)) := by
  apply accrues_logs.forM
  intro image member
  apply Follows.within
  apply accrues_logs.forM
  intro classDef defined
  rw [Array.mem_toList_iff] at defined
  apply accrues_logs.later (.ensureRunning accrues_logs.chained false)
  intro _
  apply accrues_logs.forM
  intro method coded
  have listed := (List.mem_filter.mp coded).1
  have sound := (numbered.sound member).container
  obtain ⟨parts, found⟩ :=
    sound.pools.method? ((sound.classDefs.inRange classDef defined).methods listed)
  exact logs_scanMethod populated member defined listed found
    (calling image member classDef defined method listed parts found)

end Builder

/-! ### Declared entities are not external -/

/-- No class is external. -/
def Graph.Inner (graph : Graph) : Prop :=
  ∀ c ∈ graph.classes.arena, c.external = false

theorem Graph.SameClasses.inner {before after : Graph} (same : before.SameClasses after)
    (inner : before.Inner) : after.Inner := by
  intro c listed
  have bare := Array.mem_map_of_mem (f := Entity.bare .classes) listed
  rw [same.2] at bare
  obtain ⟨old, listedBefore, equal⟩ := Array.mem_map.mp bare
  have external := congrArg ClassEntity.external equal
  exact external.symm.trans (inner old listedBefore)

namespace Builder

/-- Steps that make no class external. -/
abbrev Inward (before after : Graph) : Prop := before.Inner → after.Inner

theorem chained_inward : Chained Inward where
  refl _ := id
  trans first second := fun inner => second (first inner)

theorem inward_declareClass (image : Image) (position : Nat) (classDef : ClassDef) :
    Follows Inward (declareClass image position classDef) := by
  apply follows_declareClass chained_inward
  · intro name state _ after ran inner c listed
    rw [(intern_ok ran).2] at listed
    rcases Registry.mem_arena_intern listed with before | ⟨key, rfl⟩
    · exact inner c before
    · rfl
  · intro record key state _ after ran inner c listed
    rw [(onRegistry_ok ran).2] at listed
    change c ∈ (state.graph.classes.bind record key).2.arena at listed
    rw [Registry.arena_bind] at listed
    exact inner c listed
  · intro key _ _ _ _ state _ after ran inner c listed
    rw [(update_ok ran).2] at listed
    obtain ⟨place, found⟩ := Array.mem_iff_getElem?.mp listed
    change (state.graph.classes.modify key _).arena[place]? = some c at found
    rw [Registry.modify, Array.getElem?_modify] at found
    split at found
    · obtain ⟨old, -, rfl⟩ := Option.map_eq_some_iff.mp found
      unfold ClassEntity.define
      split <;> rfl
    · exact inner c (Array.mem_of_getElem? found)
  · exact fun owner _ _ _ _ _ ran => (sameClasses_declareMember .field image owner _ _ _ ran).inner
  · exact fun owner _ _ _ _ _ ran => (sameClasses_declareMember .method image owner _ _ _ ran).inner

theorem inward_declared (cancelled : Bool) (images : List Image) :
    Follows Inward
      (images.forM fun image => within (.image image.name) (declareImage cancelled image)) := by
  apply Follows.forM chained_inward
  intro image _
  apply Follows.within
  apply follows_declareImage chained_inward
  exact fun position classDef _ => inward_declareClass image position classDef

theorem inward_linkClasses : Follows Inward linkClasses := by
  intro state _ after ran inner c listed
  rw [(onRegistry_ok ran).2] at listed
  obtain ⟨old, before, rfl⟩ := Array.mem_map.mp listed
  exact inner old before

end Builder

/-! ### Whole graphs -/

theorem Graph.traffic_empty : ({} : Graph).traffic = Traffic.empty := by
  ext <;> simp [traffic, Traffic.empty, Registry.view, Registry.get?]

namespace Builder

open DexAtlas.Graph (Grows Knows Quiet)

variable {images : List Image} {keepUses : Bool}

/-- A graph before its code is searched: it knows what its images declare and nothing else. -/
structure Ready (images : List Image) (graph : Graph) : Prop where
  populated : Populated images graph
  knows : graph.Knows (images.flatMap Image.names)
  /-- All members stem from declarations. -/
  stem : ∀ kind, graph.Stem images kind
  inside : ∀ kind, kind ≠ .methods → ∀ entity ∈ (graph.registry kind).arena,
    Entity.external kind entity = false
  unused : graph.traffic = Traffic.empty

theorem package_ready (numbered : Image.Numbered images) {state : Build}
    (ran : package false keepUses images {} = .ok () state) :
    ∃ middle : Build, Ready images middle.graph ∧
      (images.forM fun image =>
        within (.image image.name) (scanImage false keepUses image)) middle = .ok () state := by
  obtain ⟨_, s₁, declared, ran⟩ := bind_ok ran
  obtain ⟨_, s₂, linked, scanned⟩ := bind_ok ran
  have unknown : Knows [] {} := by
    constructor
    · intro kind name
      cases kind <;> simp [Graph.registry]
    · intro kind
      cases kind <;> rfl
  have quiet : Quiet {} s₁.graph := Follows.forM chained_quiet
    (fun image _ => .within _ (quiet_declareImage false image)) declared
  have stem (kind : MemberKind) : s₂.graph.Stem images kind := by
    have start : ({} : Graph).Stem images kind := by
      intro entity listed
      cases kind <;> exact absurd listed (Array.not_mem_empty _)
    exact stemming_elsewhere kind.sort_ne_classes _ linked
      (stemming_declared false images declared start)
  refine ⟨s₂, ⟨?_, ?_, stem, ?_, ?_⟩, scanned⟩
  · exact ensures_linked.of_run
      ((ensures_declared numbered).of_run Graph.WellFormed.empty declared) linked
  · have knows := knows_linkClasses linked _ (knows_declared false images declared [] unknown)
    simpa using knows
  · intro kind notMethod entity listed
    cases kind with
    | classes =>
      have start : ({} : Graph).Inner := fun c listed => absurd listed (Array.not_mem_empty c)
      exact inward_linkClasses linked (inward_declared false images declared start) entity listed
    | methods => exact absurd rfl notMethod
    | fields =>
      obtain ⟨_, _, _, _, _, _, _, _, inside⟩ := stem .field entity listed
      exact inside rfl
    | strings => rfl
  · rw [(quiet_linkClasses linked).traffic, quiet.traffic, Graph.traffic_empty]

/-- The names that a graph knows and the uses that it holds, in terms of its images alone. -/
theorem package_quotes (numbered : Image.Numbered images) (apart : Image.Apart images)
    {state : Build} (ran : package false keepUses images {} = .ok () state)
    (fits : ∀ middle : Graph, Ready images middle → middle.methods.size < 2 ^ 32) :
    state.graph.Knows
        (images.flatMap Image.names ++ (images.flatMap Image.quotes).flatMap Quote.names) ∧
      ∃ mentions, state.graph.traffic = mentions.foldl Traffic.add Traffic.empty ∧
        List.Forall₂ state.graph.Spells mentions
          ((images.flatMap Image.quotes).filter fun _ => keepUses) := by
  obtain ⟨middle, ready, scanned⟩ := package_ready numbered ran
  have searched := follows_scanned searchable_meets false keepUses images scanned .methods
  have logs : Logs middle.graph state.graph keepUses _ middle.graph state.graph :=
    logs_scanned numbered ready.populated (fun _ member _ defined _ listed _ found =>
      calls_of_package numbered apart ran ready.populated (fits _ ready) searched member defined
        listed found) scanned
  obtain ⟨known, mentions, traffic, spelled⟩ :=
    logs.logged (chained_grows.refl _) (chained_grows.refl _)
  rw [ready.unused] at traffic
  exact ⟨known _ ready.knows, mentions, traffic, spelled⟩

end Builder

end DexAtlas
