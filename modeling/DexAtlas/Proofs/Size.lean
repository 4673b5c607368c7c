import DexAtlas.Proofs.Builder
import DexAtlas.Proofs.Loading

/-!
# Size

How large a graph can become. Entities are made by interning alone, one at a time, so a registry
holds no more entities than what the images declare and what their code refers to, where a
reference to a member counts twice because it may bring in the class as well. In particular, keys
of 32 bits are enough for every list of images that stays below that number.
-/
namespace DexAtlas

namespace ClassDef

/-- The class and its members. -/
def declarations (classDef : ClassDef) : Nat :=
  classDef.fields.length + classDef.methods.length + 1

end ClassDef

namespace Image

/-- What the code of a method can bring in. -/
def mentions (image : Image) (method : EncodedMethod) : Nat :=
  ((image.body? method.id).elim [] Array.toList).map (fun insn => insn.references.length * 2) |>.sum

def declarations (image : Image) : Nat :=
  (image.container.classDefs.toList.map ClassDef.declarations).sum

def allMentions (image : Image) : Nat :=
  (image.container.classDefs.toList.map fun classDef =>
    ((classDef.methods.filter fun method => method.code.isSome).map image.mentions).sum).sum

/-- An upper bound for the number of entities of any sort. -/
def entityBound (images : List Image) : Nat :=
  (images.map declarations).sum + (images.map allMentions).sum

end Image

namespace Builder

variable {α β : Type}

/-- The step makes at most `count` entities of any sort. -/
def Creates (count : Nat) (step : Builder α) : Prop :=
  ∀ ⦃state a after⦄, step state = .ok a after →
    ∀ kind, (after.graph.registry kind).size ≤ (state.graph.registry kind).size + count

namespace Creates

variable {count : Nat}

theorem pure (a : α) : Creates count (Pure.pure a : Builder α) := by
  intro state b after ran kind
  obtain ⟨-, rfl⟩ := EStateM.Result.ok.inj ran
  exact Nat.le_add_right _ _

theorem raise (notice : Notice) : Creates count (Builder.raise notice) := by
  intro state b after ran kind
  obtain ⟨-, rfl⟩ := EStateM.Result.ok.inj ran
  exact Nat.le_add_right _ _

theorem graph : Creates 0 Builder.graph := by
  intro state b after ran kind
  obtain ⟨-, rfl⟩ := EStateM.Result.ok.inj ran
  exact Nat.le_refl _

theorem fail (cause : Cause) : Creates count (Builder.fail cause : Builder α) := by
  intro state b after ran
  cases ran

theorem bind {first others : Nat} {step : Builder α} {next : α → Builder β}
    (begun : Creates first step) (ended : ∀ a, Creates others (next a)) :
    Creates (first + others) (step >>= next) := by
  intro state b after ran kind
  obtain ⟨a, middle, ranFirst, ranOthers⟩ := bind_ok ran
  have before := begun ranFirst kind
  have behind := ended a ranOthers kind
  omega

theorem bind_free {step : Builder α} {next : α → Builder β} (begun : Creates 0 step)
    (ended : ∀ a, Creates count (next a)) : Creates count (step >>= next) := by
  rw [← Nat.zero_add count]
  exact bind begun ended

theorem bind_new {step : Builder α} {next : α → Builder β} (begun : Creates 1 step)
    (ended : ∀ a, Creates count (next a)) : Creates (count + 1) (step >>= next) := by
  rw [Nat.add_comm]
  exact bind begun ended

theorem forM {ι : Type} {step : ι → Builder Unit} {weight : ι → Nat} {list : List ι}
    (each : ∀ i ∈ list, Creates (weight i) (step i)) :
    Creates (list.map weight).sum (list.forM step) := by
  induction list with
  | nil => exact pure _
  | cons i rest ih =>
    rw [List.map_cons, List.sum_cons]
    exact bind (each i (by simp)) fun _ => ih fun j member => each j (by simp [member])

/-- The same bound for every step of a list. -/
theorem forM_each {ι : Type} {step : ι → Builder Unit} (each : ∀ i, Creates count (step i))
    (list : List ι) : Creates (list.length * count) (list.forM step) := by
  have summed := forM fun i (_ : i ∈ list) => each i
  rwa [List.map_const', List.sum_replicate_nat] at summed

theorem within (context : Context) {step : Builder α} (inner : Creates count step) :
    Creates count (Builder.within context step) :=
  fun _ _ _ ran => inner (within_ok ran)

theorem onRegistry {kind : EntityKind}
    {step : Registry kind (Entity kind) → Except Cause β × Registry kind (Entity kind)}
    (bounded : ∀ registry, (step registry).2.size ≤ registry.size + count) :
    Creates count (Builder.onRegistry kind step) := by
  intro state b after ran other
  rw [(onRegistry_ok ran).2]
  by_cases same : other = kind
  · subst same
    rw [Graph.registry_set]
    exact bounded _
  · rw [Graph.registry_set_of_ne _ same]
    exact Nat.le_add_right _ _

end Creates

/-! ### Elementary steps -/

theorem creates_intern (kind : EntityKind) (name : String) (make : Key kind → Entity kind) :
    Creates 1 (intern kind name make) := by
  refine .onRegistry fun registry => ?_
  rcases registry.intern_cases name make with ⟨key, -, result⟩ | ⟨-, result⟩
  · rw [result]
    exact Nat.le_add_right _ _
  · rw [result]
    exact Nat.le_of_eq (Array.size_push _)

theorem creates_bind (kind : EntityKind) (record : Record) (key : Key kind) :
    Creates 0 (bind kind record key) :=
  .onRegistry fun registry => by simp [Registry.size]

theorem creates_update {count : Nat} (kind : EntityKind) (what : String) (key : Key kind)
    (change : Entity kind → Entity kind) : Creates count (update kind what key change) := by
  refine .onRegistry fun registry => ?_
  split
  · exact Nat.le_add_right_of_le (Nat.le_of_eq Array.size_modify)
  · exact Nat.le_add_right _ _

theorem creates_ensureRunning (cancelled : Bool) : Creates 0 (ensureRunning cancelled) := by
  unfold ensureRunning
  split
  · exact .fail _
  · exact .pure _

/-! ### Declarations -/

theorem creates_noteRedeclaration {count : Nat} (member : Pools.Member) (kind : MemberKind) :
    Creates count (noteRedeclaration member kind) := by
  cases kind with
  | field => exact .pure _
  | method => exact .raise _

theorem creates_declareMember (kind : MemberKind) (image : Image) (owner : ClassKey)
    (id access : Nat) (external : Bool) :
    Creates 1 (declareMember kind image owner id access external) := by
  unfold declareMember
  split
  · refine .bind_new (creates_intern _ _ _) fun (key, created) => ?_
    refine .bind_free (creates_bind _ _ _) fun _ => ?_
    split
    · exact creates_update _ _ _ _
    · exact creates_noteRedeclaration _ kind
  · exact .fail _

theorem creates_noteRedefinition (image : Image) (key : ClassKey) :
    Creates 0 (noteRedefinition image key) := by
  unfold noteRedefinition
  refine .bind_free .graph fun graph => ?_
  split
  · exact .fail _
  · split
    · exact .raise _
    · exact .pure _

theorem creates_declareClass (image : Image) (position : Nat) (classDef : ClassDef) :
    Creates classDef.declarations (declareClass image position classDef) := by
  unfold declareClass ClassDef.declarations
  dsimp only
  split
  · refine .bind_new (creates_intern _ _ _) fun (key, _) => ?_
    refine .bind_free (creates_bind _ _ _) fun _ => ?_
    refine .bind_free (creates_update _ _ _ _) fun _ => ?_
    refine .bind_free (creates_noteRedefinition image key) fun _ => ?_
    have fields : Creates _ (classDef.fields.forM (declareField image key)) :=
      .forM_each (fun _ => creates_declareMember .field image key _ _ _) _
    have methods : Creates _ (classDef.methods.forM (declareMethod image key)) :=
      .forM_each (fun _ => creates_declareMember .method image key _ _ _) _
    rw [Nat.mul_one] at fields methods
    refine .bind fields fun _ => ?_
    change Creates (classDef.methods.length + 0) _
    exact .bind methods fun _ => .raise _
  · exact .fail _

theorem creates_declareImage (cancelled : Bool) (image : Image) :
    Creates image.declarations (declareImage cancelled image) := by
  have each : ∀ entry ∈ image.container.classDefs.toList.zipIdx,
      Creates entry.1.declarations (do
        ensureRunning cancelled
        declareClass image entry.2 entry.1) := fun entry _ =>
    .bind_free (creates_ensureRunning cancelled) fun _ => creates_declareClass image _ _
  have summed := Creates.forM each
  have same : image.container.classDefs.toList.zipIdx.map (fun entry => entry.1.declarations) =
      image.container.classDefs.toList.map ClassDef.declarations := by
    rw [show (fun entry : ClassDef × Nat => entry.1.declarations) =
      ClassDef.declarations ∘ Prod.fst from rfl, ← List.map_map, List.zipIdx_map_fst]
  rw [same] at summed
  exact summed

/-! ### Uses -/

theorem creates_classFor (descriptor : String) : Creates 1 (classFor descriptor) :=
  .bind_new (creates_intern _ _ _) fun _ => .pure _

theorem creates_ownerFor (descriptor : String) : Creates 1 (ownerFor descriptor) := by
  unfold ownerFor
  split
  · exact .bind_new (creates_classFor descriptor) fun _ => .pure _
  · exact .pure _

theorem creates_enrol (created : Bool) (owner : Option ClassKey)
    (change : ClassEntity → ClassEntity) : Creates 0 (enrol created owner change) := by
  unfold enrol
  split
  · exact creates_update _ _ _ _
  · exact .pure _

theorem creates_addUse {count : Nat} (site : Site) (target : Target) :
    Creates count (addUse site target) := by
  unfold addUse
  exact creates_update _ _ _ _

theorem creates_addEdge {count : Nat} (source target : Option ClassKey) (use : ClassUse)
    (site : Site) : Creates count (addEdge source target use site) := by
  unfold addEdge
  split
  · exact .bind_free (creates_update _ _ _ _) fun _ => creates_update _ _ _ _
  · exact .pure _

theorem creates_useString (keepUses : Bool) (scene : Scene) (index : Nat) (value : String) :
    Creates 2 (useString keepUses scene index value) := by
  have met : Creates 1 (meetString ⟨scene.image, index⟩ value) :=
    .bind_new (creates_intern _ _ _) fun _ => .bind_free (creates_bind _ _ _) fun _ => .pure _
  unfold useString
  refine .bind_new met fun key => ?_
  split
  · exact .bind_free (creates_update _ _ _ _) fun _ => creates_addUse _ _
  · exact .pure _

theorem creates_useType (keepUses : Bool) (scene : Scene) (index : Nat) (descriptor : String) :
    Creates 2 (useType keepUses scene index descriptor) := by
  unfold useType
  split
  next use element _ =>
    have met : Creates 1 (meetClass ⟨scene.image, index⟩ descriptor element) := by
      unfold meetClass
      refine .bind_new (creates_classFor element) fun key => ?_
      split
      · exact .bind_free (creates_bind _ _ _) fun _ => .pure _
      · exact .pure _
    refine .bind_new met fun key => ?_
    split
    · exact .bind_free (creates_addUse _ _) fun _ => creates_addEdge _ _ _ _
    · exact .pure _
  next => exact .pure _

theorem creates_meetMember (kind : MemberKind) (record : Record) (member : Pools.Member) :
    Creates 2 (meetMember kind record member) := by
  refine .bind_new (creates_ownerFor _) fun owner => ?_
  refine .bind_new (creates_intern _ _ _) fun (key, created) => ?_
  refine .bind_free (creates_enrol _ _ _) fun _ => ?_
  exact .bind_free (creates_bind _ _ _) fun _ => .pure _

theorem creates_useMember (kind : MemberKind) (keepUses : Bool) (scene : Scene) (index : Nat)
    (member : Pools.Member) : Creates 2 (useMember kind keepUses scene index member) := by
  unfold useMember
  change Creates (2 + 0) _
  refine .bind (creates_meetMember kind _ member) fun (owner, key) => ?_
  dsimp only
  split
  · refine .bind_free (creates_update _ _ _ _) fun _ => ?_
    exact .bind_free (creates_addUse _ _) fun _ => creates_addEdge _ _ _ _
  · exact .pure _

theorem creates_use (keepUses : Bool) (scene : Scene) (reference : Reference) :
    Creates 2 (use keepUses scene reference) := by
  cases reference with
  | string => exact creates_useString _ _ _ _
  | type => exact creates_useType _ _ _ _
  | field => exact creates_useMember .field _ _ _ _
  | method => exact creates_useMember .method _ _ _ _
  | proto | callSite | methodHandle => exact .pure _

/-! ### Whole passes -/

theorem creates_scanMethod (keepUses : Bool) (image : Image) (method : EncodedMethod) :
    Creates (image.mentions method) (scanMethod keepUses image method) := by
  unfold scanMethod
  refine .bind_free .graph fun graph => ?_
  split
  · split
    · split
      · exact .pure _
      · split
        next body located =>
          rw [Image.mentions, located, searchBody]
          exact .forM fun insn _ => .forM_each (creates_use _ _) insn.references
        next => exact .pure _
    · exact .pure _
  · exact .fail _

theorem creates_scanImage (cancelled keepUses : Bool) (image : Image) :
    Creates image.allMentions (scanImage cancelled keepUses image) :=
  .forM fun _ _ => .bind_free (creates_ensureRunning cancelled) fun _ =>
    .forM fun method _ => creates_scanMethod keepUses image method

theorem creates_package (cancelled keepUses : Bool) (images : List Image) :
    Creates (Image.entityBound images) (package cancelled keepUses images) := by
  have linked : Creates 0 linkClasses := .onRegistry fun registry => Nat.le_of_eq Array.size_map
  refine .bind (.forM fun image _ => .within _ (creates_declareImage cancelled image)) fun _ => ?_
  refine .bind_free linked fun _ => ?_
  exact .forM fun image _ => .within _ (creates_scanImage cancelled keepUses image)

end Builder

/-- The graph of a list of images is no larger than what they declare and mention. -/
theorem Graph.size_le_entityBound {cancelled keepUses : Bool} {images : List Image} {graph : Graph}
    (built : (Graph.build cancelled keepUses images).outcome = .ok graph) (kind : EntityKind) :
    (graph.registry kind).size ≤ Image.entityBound images := by
  obtain ⟨state, ran, rfl⟩ := Graph.build_ok built
  have bound := Builder.creates_package cancelled keepUses images ran kind
  have start : (({} : Graph).registry kind).size = 0 := by cases kind <;> rfl
  rwa [start, Nat.zero_add] at bound

theorem Sample.entityBound_eq : Image.entityBound [Sample.image] = 11 := by
  have body : Sample.image.body? 0 = some Sample.body := by
    simp [Sample.image, Image.body?]
  have mentions : Sample.image.mentions ⟨0, 9, some Sample.code⟩ = 8 := by
    rw [Image.mentions, body]
    decide +kernel
  have declared : Sample.image.declarations = 3 := by decide +kernel
  have allMentions : Sample.image.allMentions = 8 := by
    rw [← mentions]
    rfl
  simp [Image.entityBound, declared, allMentions]

theorem Sample.entityBound_lt : Image.entityBound [Sample.image] < 2 ^ 32 := by
  rw [Sample.entityBound_eq]
  decide

end DexAtlas
