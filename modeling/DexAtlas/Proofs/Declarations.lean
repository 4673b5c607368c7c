import DexAtlas.Proofs.Building
import DexAtlas.Proofs.Searching

/-!
# The first declaration counts

A method may be declared more than once, in one image or in several. Where it is located and whether
it is external is said by the first declaration, in the order of the images, of their definitions
and of the methods of a definition. `Reflects` says so of a registry and of the declarations of a
name so far. Every step of the first pass adds its own declarations behind them, and the later
passes add none: a name that they meet and that is new was never declared.
-/
namespace DexAtlas

/-! ### Declarations -/

namespace Image

/-- The declaration of a name by an entry, if the entry is of that name. -/
def declares (image : Image) (name : String) (method : EncodedMethod) :
    List (Record × EncodedMethod) :=
  if image.container.pools.methodName? method.id = some name then
    [(⟨image.index, method.id⟩, method)]
  else []

/-- All declarations of a method in order. -/
def declarationsOf (images : List Image) (name : String) : List (Record × EncodedMethod) :=
  images.flatMap fun image => image.container.classDefs.toList.flatMap fun classDef =>
    classDef.methods.flatMap (image.declares name)

end Image

/-! ### Registries -/

/-- A method is located at a declaration, and is external if that has no code. -/
def MethodEntity.Shows (m : MethodEntity) (declaration : Record × EncodedMethod) : Prop :=
  m.location = some declaration.1 ∧ m.external = declaration.2.code.isNone

theorem MethodEntity.Shows.of_bare {a b : MethodEntity} {d : Record × EncodedMethod}
    (shows : b.Shows d) (same : Entity.bare .methods a = Entity.bare .methods b) : a.Shows d := by
  have location := congrArg MethodEntity.location same
  have external := congrArg MethodEntity.external same
  exact ⟨location.trans shows.1, external.trans shows.2⟩

/-- A method of that name shows the first declaration, and only a known name was declared. -/
structure Registry.Reflects (name : String) (declared : List (Record × EncodedMethod))
    (methods : Registry .methods MethodEntity) : Prop where
  entities : ∀ m ∈ methods.arena, m.fullName = name → ∃ d, declared.head? = some d ∧ m.Shows d
  unknown : methods.byName[name]? = none → declared = []

namespace Registry.Reflects

variable {name : String} {declared : List (Record × EncodedMethod)}
  {methods : Registry .methods MethodEntity}

theorem empty (name : String) : Reflects name [] {} :=
  ⟨fun _ listed => absurd listed (Array.not_mem_empty _), fun _ => rfl⟩

theorem bind (reflects : Reflects name declared methods) (record : Record) (key : MethodKey) :
    Reflects name declared (methods.bind record key).2 := by
  constructor
  · rw [arena_bind]
    exact reflects.entities
  · rw [byName_bind]
    exact reflects.unknown

/-- A method is declared where it is interned: it is there, or it is made as declared. What is
declared later comes behind, so it changes nothing for a method that is there. -/
theorem intern (reflects : Reflects name declared methods) {other : String}
    {make : MethodKey → MethodEntity} {d : Record × EncodedMethod}
    (named : ∀ key, (make key).fullName = other) (made : ∀ key, (make key).Shows d) :
    Reflects name (declared ++ if other = name then [d] else []) (methods.intern other make).2 := by
  have older : ∀ m ∈ methods.arena, m.fullName = name →
      ∃ first, (declared ++ if other = name then [d] else []).head? = some first ∧
        m.Shows first := by
    intro m listed own
    obtain ⟨first, head, shows⟩ := reflects.entities m listed own
    exact ⟨first, by rw [List.head?_append, head, Option.some_or], shows⟩
  constructor
  · intro m listed own
    rcases methods.intern_cases other make with ⟨key, known, result⟩ | ⟨new, result⟩
    · rw [result] at listed
      exact older m listed own
    · rw [result] at listed
      rcases Array.mem_push.mp listed with old | rfl
      · exact older m old own
      · -- the name was unknown, so nothing was declared before what is declared now
        obtain rfl : other = name := (named _).symm.trans own
        exact ⟨d, by simp [reflects.unknown new], made _⟩
  · -- a name that is still unknown is not the one interned, and was unknown before
    intro unknown
    have apart : other ≠ name := by
      rintro rfl
      cases (byName_intern methods other make).symm.trans unknown
    rw [if_neg apart, List.append_nil]
    cases known : methods.byName[name]? with
    | none => exact reflects.unknown known
    | some key => cases ((Extends.intern methods other make).names known).symm.trans unknown

/-- After a search a method still shows its first declaration, or it has none. -/
theorem meets {after : Registry .methods MethodEntity} {m : MethodEntity}
    (reflects : Reflects m.fullName declared methods) (searched : methods.Meets after)
    (listed : m ∈ after.arena) :
    (∃ d, declared.head? = some d ∧ m.Shows d) ∨
      (declared = [] ∧ Entity.Outside .methods m) := by
  obtain ⟨place, found⟩ := Array.mem_iff_getElem?.mp listed
  cases there : methods.arena[place]? with
  | some old =>
    left
    obtain ⟨same, stillThere, bare⟩ := searched.kept there
    obtain rfl := Option.some.inj (found.symm.trans stillThere)
    obtain ⟨d, first, shows⟩ := reflects.entities old (Array.mem_of_getElem? there)
      (Entity.name_of_bare bare).symm
    exact ⟨d, first, shows.of_bare bare⟩
  | none =>
    right
    obtain ⟨new, outside⟩ := searched.fresh there found
    exact ⟨reflects.unknown new, outside⟩

end Registry.Reflects

/-- The methods of a graph reflect these declarations of a name. -/
abbrev Graph.Reflects (name : String) (declared : List (Record × EncodedMethod)) (graph : Graph) :
    Prop :=
  graph.methods.Reflects name declared

/-! ### The first pass -/

namespace Builder

open DexAtlas.Graph (Continues Reflects)

variable {α : Type} {name : String}

theorem accrues_reflects (name : String) : Accrues (Continues (Reflects name)) :=
  accrues_continues

/-- A step of another registry declares no method. -/
theorem reflects_elsewhere {kind : EntityKind} (apart : .methods ≠ kind)
    (step : Registry kind (Entity kind) → Except Cause α × Registry kind (Entity kind)) :
    Follows (Continues (Reflects name) []) (onRegistry kind step) := by
  intro state _ after ran declared reflects
  have kept : after.graph.methods = state.graph.methods := by
    rw [(onRegistry_ok ran).2]
    exact Graph.registry_set_of_ne _ apart _
  rwa [List.append_nil, Reflects, kept]

theorem reflects_bind (record : Record) (key : MethodKey) :
    Follows (Continues (Reflects name) []) (bind .methods record key) := by
  intro state _ after ran declared reflects
  have changed : after.graph.methods = (state.graph.methods.bind record key).2 := by
    rw [(onRegistry_ok ran).2]
    rfl
  rw [List.append_nil, Reflects, changed]
  exact reflects.bind record key

theorem reflects_updateClass (key : ClassKey) (change : ClassEntity → ClassEntity) :
    Follows (Continues (Reflects name) []) (updateClass key change) := by
  unfold updateClass update
  exact reflects_elsewhere (by decide) _

theorem reflects_declareField (image : Image) (owner : ClassKey) (field : EncodedField) :
    Follows (Continues (Reflects name) []) (declareField image owner field) := by
  unfold declareField
  apply follows_declareMember (accrues_reflects name).chained
  · exact fun _ _ => reflects_elsewhere (by decide) _
  · exact fun _ _ => reflects_elsewhere (by decide) _
  · exact fun _ => reflects_updateClass owner _

theorem reflects_declareMethod (image : Image) (owner : ClassKey) (method : EncodedMethod) :
    Follows (Continues (Reflects name) (image.declares name method))
      (declareMethod image owner method) := by
  have accrues := accrues_reflects name
  unfold declareMethod declareMember
  cases found : MemberKind.method.find? image.container.pools method.id with
  | none => exact .fail _
  | some member =>
    have declares : image.declares name method =
        if member.methodName = name then [(⟨image.index, method.id⟩, method)] else [] := by
      have spelled : image.container.pools.methodName? method.id = some member.methodName :=
        Pools.nameOf?_of_find? found
      simp only [Image.declares, spelled, Option.some.injEq]
    rw [declares]
    apply accrues.first
    · intro state _ after ran declared reflects
      have changed : after.graph.methods = _ := congrArg Graph.methods (intern_ok ran).2
      rw [Reflects, changed]
      exact reflects.intern (fun _ => rfl) fun _ => ⟨rfl, rfl⟩
    · rintro ⟨key, created⟩
      apply accrues.later (reflects_bind _ key)
      intro _
      split
      · exact reflects_updateClass owner _
      · exact .raise accrues.chained _

theorem reflects_declareClass (image : Image) (position : Nat) (classDef : ClassDef) :
    Follows (Continues (Reflects name) (classDef.methods.flatMap (image.declares name)))
      (declareClass image position classDef) := by
  have accrues := accrues_reflects name
  unfold declareClass
  dsimp only
  split
  · apply accrues.later (reflects_elsewhere (by decide) _)
    rintro ⟨key, _⟩
    apply accrues.later (reflects_elsewhere (by decide) _)
    intro _
    apply accrues.later (reflects_updateClass key _)
    intro _
    apply accrues.later (follows_noteRedefinition accrues.chained image key)
    intro _
    apply accrues.later
      (.forM accrues.chained fun field _ => reflects_declareField image key field)
    intro _
    apply accrues.first (accrues.forM fun method _ => reflects_declareMethod image key method)
    exact fun _ => .raise accrues.chained _
  · exact .fail _

/-- The first pass declares the methods of all images in order. -/
theorem reflects_declared (cancelled : Bool) (images : List Image) :
    Follows (Continues (Reflects name) (Image.declarationsOf images name))
      (images.forM fun image => within (.image image.name) (declareImage cancelled image)) := by
  have accrues := accrues_reflects name
  apply accrues.forM
  intro image _
  apply Follows.within
  -- the positions of the definitions do not matter here
  rw [← List.zipIdx_map_fst 0 image.container.classDefs.toList, List.flatMap_map]
  apply accrues.forM
  rintro ⟨classDef, position⟩ _
  apply accrues.later (.ensureRunning accrues.chained cancelled)
  exact fun _ => reflects_declareClass image position classDef

/-- A graph that was built reflects the declarations of its images, but for what a search added. -/
theorem package_reflects {cancelled keepUses : Bool} {images : List Image} {state : Build}
    (ran : package cancelled keepUses images {} = .ok () state) (name : String) :
    ∃ methods : Registry .methods MethodEntity,
      methods.Reflects name (Image.declarationsOf images name) ∧
        Registry.Meets methods state.graph.methods := by
  obtain ⟨_, s₁, declared, ran⟩ := bind_ok ran
  obtain ⟨_, s₂, linked, scanned⟩ := bind_ok ran
  have first := reflects_declared cancelled images declared [] (.empty name)
  have second := reflects_elsewhere (by decide) _ linked _ first
  rw [List.append_nil] at second
  exact ⟨s₂.graph.methods, second,
    follows_scanned searchable_meets cancelled keepUses images scanned .methods⟩

end Builder

/-- A method takes its location and its flag from its first declaration; without a declaration it
has no location and is external. -/
theorem Graph.method_declared {cancelled keepUses : Bool} {images : List Image} {graph : Graph}
    (built : (build cancelled keepUses images).outcome = .ok graph) {m : MethodEntity}
    (present : m ∈ graph.methods.arena) :
    m.location = (Image.declarationsOf images m.fullName).head?.map Prod.fst ∧
      m.external = ((Image.declarationsOf images m.fullName).head?.bind (·.2.code)).isNone := by
  obtain ⟨state, ran, rfl⟩ := build_ok built
  obtain ⟨methods, reflects, searched⟩ := Builder.package_reflects ran m.fullName
  rcases reflects.meets searched present with ⟨d, first, location, external⟩ | ⟨none, outside⟩
  · simp [first, location, external]
  · obtain ⟨external, location⟩ := outside
    simp [none, location, external]

end DexAtlas
