import DexAtlas.Proofs.Building
import DexAtlas.Proofs.Mentions
import Mathlib.Data.List.Nodup

/-!
# Completeness of uses

The uses of a method are exactly the references of its code, in order. A body is searched for one
declaration only, the one that counts for its method, and each declaration is visited once: images
differ in their numbers, definitions of an image in their classes, and members of a definition in
their ids. So the uses of a method are those of one search of one body.
-/
namespace DexAtlas

/-! ### What is expected -/

namespace Graph

/-- A reference with the entity of its name, if it has one; nothing for a reference that names no
entity. -/
def mentions (graph : Graph) (offset : Nat) (reference : Reference) :
    List (Nat × Option Target) :=
  (reference.named?.map fun (kind, name) => (offset, graph.target? kind name)).toList

/-- The references of a body, instruction by instruction. -/
def mentionsIn (graph : Graph) (body : Array Instruction) : List (Nat × Option Target) :=
  body.toList.flatMap fun insn => insn.references.flatMap (graph.mentions insn.offset)

/-- Where something is mentioned does not depend on the graph. -/
theorem map_fst_mentionsIn (graph : Graph) (body : Array Instruction) :
    (graph.mentionsIn body).map Prod.fst = body.toList.flatMap fun insn =>
      insn.references.flatMap fun reference =>
        (reference.named?.map fun _ => insn.offset).toList := by
  simp only [mentionsIn, mentions, List.map_flatMap]
  congr! with insn reference
  cases reference.named? <;> rfl

end Graph

/-- A use whose target is known. -/
def Use.resolved (use : Use) : Nat × Option Target := (use.offset, some use.target)

/-- The body of a record, empty where there is none. -/
def Image.bodyAt (images : List Image) (record : Record) : Array Instruction :=
  (images[record.image]?.bind fun image => image.body? record.id).getD #[]

/-! ### One search -/

namespace Builder

open DexAtlas.Graph (Grows Quiet)

/-- Uses are appended at one method. They are as expected in every graph that comes later, where
more names may be known. -/
structure Appends (method : MethodKey) (expected : Graph → List (Nat × Option Target))
    (before after : Graph) : Prop extends Grows before after where
  uses : ∃ list, (∀ key, after.traffic.uses key =
      before.traffic.uses key ++ if key = method then list else []) ∧
    ∀ final, after.Extends final → list.map Use.resolved = expected final

namespace Appends

variable {method : MethodKey}

theorem of_quiet {before after : Graph} (quiet : Quiet before after) :
    Appends method (fun _ => []) before after :=
  ⟨quiet.toGrows, [], fun key => by simp [quiet.traffic], fun _ _ => rfl⟩

theorem trans {first second : Graph → List (Nat × Option Target)} {a b c : Graph}
    (begun : Appends method first a b) (ended : Appends method second b c) :
    Appends method (fun graph => first graph ++ second graph) a c := by
  refine ⟨chained_grows.trans begun.toGrows ended.toGrows, ?_⟩
  obtain ⟨xs, addedXs, seenXs⟩ := begun.uses
  obtain ⟨ys, addedYs, seenYs⟩ := ended.uses
  refine ⟨xs ++ ys, fun key => ?_, fun final grown => ?_⟩
  · rw [addedYs, addedXs]
    split <;> simp
  · rw [List.map_append, seenXs final (ended.larger.trans grown), seenYs final grown]

theorem forM {ι : Type} {step : ι → Builder Unit}
    {expected : ι → Graph → List (Nat × Option Target)} {list : List ι}
    (each : ∀ i ∈ list, Follows (Appends method (expected i)) (step i)) :
    Follows (Appends method fun graph => list.flatMap fun i => expected i graph)
      (list.forM step) := by
  induction list with
  | nil =>
    intro state _ after ran
    obtain ⟨-, rfl⟩ := EStateM.Result.ok.inj ran
    exact of_quiet (chained_quiet.refl _)
  | cons i rest ih =>
    intro state _ after ran
    obtain ⟨middle, first, others⟩ := forM_cons_ok ran
    exact (each i (by simp) first).trans (ih (fun j member => each j (by simp [member])) others)

end Appends

theorem appends_use {scene : Scene} {reference : Reference}
    (known : ∀ index descriptor, reference = .type index descriptor →
      ∃ use, ClassUse.ofMnemonic? scene.insn.name = some use) :
    Follows (Appends scene.site.method fun graph => graph.mentions scene.site.offset reference)
      (use true scene reference) := by
  intro state _ after ran
  cases use_ok ran with
  | skipped quiet reason =>
    have unnamed : reference.named? = none := by
      rcases reason rfl with unnamed | ⟨⟨index, descriptor, same⟩, unknown⟩
      · exact unnamed
      · obtain ⟨use, found⟩ := known index descriptor same
        cases unknown.symm.trans found
    simpa [Graph.mentions, unnamed] using Appends.of_quiet quiet
  | noted kind name mention _ named located _ target grows traffic =>
    refine ⟨grows, [⟨scene.site.offset, mention.target⟩], fun key => ?_, fun final grown => ?_⟩
    · rw [traffic, Traffic.uses_add, located.1, pushAt]
      split <;> simp
    · simp [Graph.mentions, named, Use.resolved, grown.target? target]

theorem appends_searchBody {image : Image} (sound : image.Sound) {id : Nat}
    {body : Array Instruction} (decoded : image.body? id = some body) (number : Nat)
    (key : MethodKey) (owner : Option ClassKey) :
    Follows (Appends key fun graph => graph.mentionsIn body)
      (searchBody true number key owner body) := by
  obtain ⟨code, decoding⟩ := sound.decoded decoded
  refine Appends.forM fun insn occurs => Appends.forM fun reference refers => appends_use ?_
  rintro index descriptor rfl
  exact Instruction.decode_classUse decoding (Array.mem_toList_iff.mp occurs) refers

end Builder

/-! ### One declaration among many -/

namespace Graph

/-- The method at a key is declared by a record, and the record leads to the key. -/
def Home (key : MethodKey) (record : Record) (graph : Graph) : Prop :=
  graph.methods.byRecord[record]? = some key ∧
    ∃ m, graph.methods.get? key = some m ∧ m.location = some record

theorem Home.grow {key : MethodKey} {record : Record} {before after : Graph}
    (home : Home key record before) (grows : Grows before after) : Home key record after := by
  obtain ⟨bound, m, present, located⟩ := home
  obtain ⟨m', present', -, same⟩ := grows.settled key m present
  exact ⟨(grows.larger .methods).records bound, m', present', same.trans located⟩

theorem bound_of_lists {images : List Image} {graph : Graph}
    (populated : Builder.Populated images graph) {record : Record}
    (lists : Image.Lists images .methods record) : graph.Bound .methods record := by
  obtain ⟨image, member, classDef, defined, number, listed⟩ := lists
  obtain ⟨method, inside, same⟩ := List.mem_map.mp listed
  have bound := (populated.2 image member classDef defined).methods method inside
  rwa [same, ← number] at bound

/-- The declaration of a method leads back to it. -/
theorem byRecord_of_location {images : List Image} {graph : Graph}
    (populated : Builder.Populated images graph) {key : MethodKey} {m : MethodEntity}
    (present : graph.methods.get? key = some m) {record : Record}
    (located : m.location = some record) : graph.methods.byRecord[record]? = some key := by
  have formed := populated.1
  obtain ⟨lists, named⟩ := formed.placed present located
  -- the record is bound, and the key that it leads to has the name of the method
  obtain ⟨other, bound⟩ := bound_of_lists populated lists
  obtain ⟨name, spelled, known⟩ := (formed.coherent .methods).records bound
  obtain rfl := Option.some.inj (named.symm.trans spelled)
  have own := ((formed.coherent .methods).entities present).2
  rw [Key.ofIndex_index, known] at own
  exact bound.trans own

/-- A method with a declaration had it already when all declarations were made. -/
theorem home_of_location {images : List Image} {before after : Graph}
    (populatedBefore : Builder.Populated images before)
    (populated : Builder.Populated images after) (grows : Grows before after) {key : MethodKey}
    {m : MethodEntity} (present : after.methods.get? key = some m) {record : Record}
    (located : m.location = some record) : Home key record before := by
  have known := byRecord_of_location populated present located
  -- the record was bound in the earlier graph, to a key that cannot have changed since
  obtain ⟨other, bound⟩ :=
    bound_of_lists populatedBefore (populated.1.placed present located).1
  obtain rfl : other = key :=
    Option.some.inj (((grows.larger .methods).records bound).symm.trans known)
  have coherent := populatedBefore.1.coherent .methods
  obtain ⟨name, -, named⟩ := coherent.records bound
  obtain ⟨old, there⟩ := (Registry.contains_iff _ _).mp (coherent.contains named)
  obtain ⟨m', present', -, same⟩ := grows.settled other old there
  obtain rfl := Option.some.inj (present.symm.trans present')
  exact ⟨bound, old, there, same.symm.trans located⟩

end Graph

namespace Builder

open DexAtlas.Graph (Grows Home)

/-- A record is searched so many times for the method that it declares. -/
structure Adds (images : List Image) (key : MethodKey) (record : Record) (count : Nat)
    (before after : Graph) : Prop extends Grows before after where
  uses : Home key record before → ∃ list,
    after.traffic.uses key = before.traffic.uses key ++ list ∧
    ∀ final, after.Extends final → list.map Use.resolved =
      (List.replicate count (final.mentionsIn (Image.bodyAt images record))).flatten

namespace Adds

variable {images : List Image} {key : MethodKey} {record : Record}

theorem refl (graph : Graph) : Adds images key record 0 graph graph :=
  ⟨chained_grows.refl graph, fun _ => ⟨[], by simp, fun _ _ => rfl⟩⟩

theorem trans {first second : Nat} {a b c : Graph} (begun : Adds images key record first a b)
    (ended : Adds images key record second b c) : Adds images key record (first + second) a c := by
  refine ⟨chained_grows.trans begun.toGrows ended.toGrows, fun home => ?_⟩
  obtain ⟨xs, addedXs, seenXs⟩ := begun.uses home
  obtain ⟨ys, addedYs, seenYs⟩ := ended.uses (home.grow begun.toGrows)
  refine ⟨xs ++ ys, by rw [addedYs, addedXs, List.append_assoc], fun final grown => ?_⟩
  rw [List.map_append, seenXs final (ended.larger.trans grown), seenYs final grown,
    List.replicate_add, List.flatten_append]

/-- The visits of a list of steps add up. -/
theorem forM {ι : Type} {step : ι → Builder Unit} {visits : ι → List Record} {list : List ι}
    (each : ∀ i ∈ list, Follows (Adds images key record ((visits i).count record)) (step i)) :
    Follows (Adds images key record ((list.flatMap visits).count record)) (list.forM step) := by
  induction list with
  | nil =>
    intro state _ after ran
    obtain ⟨-, rfl⟩ := EStateM.Result.ok.inj ran
    exact refl _
  | cons i rest ih =>
    intro state _ after ran
    obtain ⟨middle, first, others⟩ := forM_cons_ok ran
    rw [List.flatMap_cons, List.count_append]
    exact (each i (by simp) first).trans (ih (fun j member => each j (by simp [member])) others)

end Adds

variable {images : List Image}

theorem bodyAt_eq (numbered : Image.Numbered images) {image : Image} (member : image ∈ images)
    (id : Nat) : Image.bodyAt images ⟨image.index, id⟩ = (image.body? id).getD #[] := by
  simp [Image.bodyAt, numbered.at_index member]

theorem adds_scanMethod (numbered : Image.Numbered images) {image : Image} (member : image ∈ images)
    (key : MethodKey) (record : Record) (method : EncodedMethod) :
    Follows (Adds images key record ([(⟨image.index, method.id⟩ : Record)].count record))
      (scanMethod true image method) := by
  intro state _ after ran
  rw [List.count_singleton]
  cases scanMethod_ok ran with
  | passed unchanged reason =>
    subst unchanged
    refine ⟨chained_grows.refl _, fun home => ⟨[], by simp, fun final _ => ?_⟩⟩
    split
    next same =>
      -- the declaration counts, so it was passed over for lack of a body
      obtain rfl := eq_of_beq same
      obtain ⟨bound, m, present, located⟩ := home
      have nothing : image.body? method.id = none := by
        cases body : image.body? method.id with
        | none => rfl
        | some insns => exact (reason key m insns bound present located body).elim
      simp [bodyAt_eq numbered member, nothing, Graph.mentionsIn]
    next => rfl
  | searched other caller body found present located decoded ran =>
    have appends := appends_searchBody (numbered.sound member) decoded image.index other
      caller.owner ran
    obtain ⟨list, added, seen⟩ := appends.uses
    refine ⟨appends.toGrows, fun home => ?_⟩
    obtain ⟨bound, m, there, placed⟩ := home
    split
    next same =>
      obtain rfl := eq_of_beq same
      obtain rfl : other = key := Option.some.inj (found.symm.trans bound)
      refine ⟨list, by simpa using added other, fun final grown => ?_⟩
      simp [bodyAt_eq numbered member, decoded, seen final grown]
    next apart =>
      -- the method is declared elsewhere, so its own uses stay as they are
      have distinct : key ≠ other := by
        rintro rfl
        obtain rfl := Option.some.inj (present.symm.trans there)
        exact apart (beq_iff_eq.mpr (Option.some.inj (located.symm.trans placed)))
      exact ⟨[], by simpa [distinct] using added key, fun _ _ => rfl⟩

end Builder

/-! ### Each declaration is visited once -/

namespace Image

/-- The records of the methods with code, in the order in which they are searched. -/
def visits (image : Image) : List Record :=
  image.container.classDefs.toList.flatMap fun classDef =>
    (classDef.methods.filter fun method => method.code.isSome).map fun method =>
      ⟨image.index, method.id⟩

/-- No class data lists a method both among the direct and among the virtual ones. -/
def Separate (image : Image) : Prop :=
  ∀ classDef ∈ image.container.classDefs, ∀ data, classDef.data = some data →
    ∀ direct ∈ data.directMethods, ∀ method ∈ data.virtualMethods, direct.id ≠ method.id

variable {images : List Image} {image : Image}

theorem mem_visits {record : Record} : record ∈ image.visits ↔
    ∃ classDef ∈ image.container.classDefs, ∃ method ∈ classDef.methods,
      method.code.isSome = true ∧ (⟨image.index, method.id⟩ : Record) = record := by
  simp [visits, and_assoc]

theorem pairwise_methods (sound : image.Sound) (separate : image.Separate) {classDef : ClassDef}
    (defined : classDef ∈ image.container.classDefs) :
    classDef.methods.Pairwise fun a b => a.id ≠ b.id := by
  unfold ClassDef.methods
  split
  next data given =>
    have ordered := (sound.container.classDefs.inRange classDef defined).data data given
    refine List.pairwise_append.mpr ⟨?_, ?_, separate classDef defined data given⟩
    · exact ordered.directMethods.2.imp Nat.ne_of_lt
    · exact ordered.virtualMethods.2.imp Nat.ne_of_lt
  next => exact .nil

theorem visits_nodup (sound : image.Sound) (separate : image.Separate) : image.visits.Nodup := by
  refine List.nodup_flatMap.mpr ⟨fun classDef defined => ?_, ?_⟩
  · refine List.pairwise_map.mpr ((pairwise_methods sound separate ?_).filter _ |>.imp ?_)
    · exact Array.mem_toList_iff.mp defined
    · exact fun apart same => apart (Record.mk.inj same).2
  · -- a record of two definitions would be a member of two classes
    refine sound.container.classDefs.distinct.imp_of_mem ?_
    intro a b inA inB apart record fromA fromB
    obtain ⟨m, inMethods, rfl⟩ := List.mem_map.mp fromA
    obtain ⟨m', inMethods', same⟩ := List.mem_map.mp fromB
    have own := (sound.container.classDefs.ownMembers a (Array.mem_toList_iff.mp inA)).methods m
      (List.mem_filter.mp inMethods).1
    have own' := (sound.container.classDefs.ownMembers b (Array.mem_toList_iff.mp inB)).methods m'
      (List.mem_filter.mp inMethods').1
    rw [(Record.mk.inj same).2, own] at own'
    exact apart (Option.some.inj own')

theorem allVisits_nodup (numbered : Numbered images)
    (separate : ∀ image ∈ images, image.Separate) : (images.flatMap visits).Nodup := by
  refine List.nodup_flatMap.mpr ⟨fun image member => ?_, List.pairwise_iff_getElem.mpr ?_⟩
  · exact visits_nodup (numbered.sound member) (separate image member)
  · -- the record of a visit holds the number of its image
    intro i j hi hj less record fromI fromJ
    obtain ⟨_, _, _, _, _, rfl⟩ := mem_visits.mp fromI
    obtain ⟨_, _, _, _, _, same⟩ := mem_visits.mp fromJ
    have first := (numbered i images[i] (List.getElem?_eq_getElem hi)).2
    have second := (numbered j images[j] (List.getElem?_eq_getElem hj)).2
    have equal := (Record.mk.inj same).1
    omega

/-- A body was decoded for a method that is visited. -/
theorem mem_allVisits (numbered : Numbered images) {record : Record} {image : Image}
    {body : Array Instruction} (found : images[record.image]? = some image)
    (decoded : image.body? record.id = some body) : record ∈ images.flatMap visits := by
  obtain ⟨loaded, number⟩ := numbered record.image image found
  obtain ⟨method, listed, id, coded⟩ := loaded.sound.coded decoded
  obtain ⟨classDef, defined, inside⟩ := mem_entries.mp listed
  refine List.mem_flatMap.mpr ⟨image, List.mem_of_getElem? found, mem_visits.mpr ?_⟩
  exact ⟨classDef, defined, method, inside, coded, by rw [number, id]⟩

end Image

/-! ### All searches -/

namespace Builder

open DexAtlas.Graph (Grows Quiet)

variable {images : List Image}

theorem adds_scanned (numbered : Image.Numbered images) (key : MethodKey) (record : Record) :
    Follows (Adds images key record ((images.flatMap Image.visits).count record))
      (images.forM fun image => within (.image image.name) (scanImage false true image)) := by
  refine Adds.forM fun image member => .within _ ?_
  refine Adds.forM fun classDef _ => ?_
  rw [List.map_eq_flatMap]
  exact Adds.forM fun method _ => adds_scanMethod numbered member key record method

/-- Only declared methods use anything. -/
def Attributed (graph : Graph) : Prop :=
  ∀ key, graph.traffic.uses key = [] ∨
    ∃ m record, graph.methods.get? key = some m ∧ m.location = some record

structure Attributes (before after : Graph) : Prop extends Grows before after where
  attributed : Attributed before → Attributed after

theorem chained_attributes : Chained Attributes where
  refl graph := ⟨chained_grows.refl graph, id⟩
  trans first second := ⟨chained_grows.trans first.toGrows second.toGrows,
    fun attributed => second.attributed (first.attributed attributed)⟩

theorem attributes_scanMethod (numbered : Image.Numbered images) {image : Image}
    (member : image ∈ images) (method : EncodedMethod) :
    Follows Attributes (scanMethod true image method) := by
  intro state _ after ran
  cases scanMethod_ok ran with
  | passed unchanged => exact unchanged ▸ chained_attributes.refl _
  | searched other caller body _ present located decoded ran =>
    have appends := appends_searchBody (numbered.sound member) decoded image.index other
      caller.owner ran
    obtain ⟨list, added, -⟩ := appends.uses
    refine ⟨appends.toGrows, fun attributed key => ?_⟩
    by_cases same : key = other
    · subst same
      obtain ⟨m, there, -, kept⟩ := appends.settled key caller present
      exact .inr ⟨m, _, there, kept.trans located⟩
    · rcases attributed key with none | ⟨m, record, there, placed⟩
      · exact .inl (by simpa [same, none] using added key)
      · obtain ⟨m', present', -, kept⟩ := appends.settled key m there
        exact .inr ⟨m', record, present', kept.trans placed⟩

theorem attributes_scanned (numbered : Image.Numbered images) :
    Follows Attributes
      (images.forM fun image => within (.image image.name) (scanImage false true image)) := by
  refine .forM chained_attributes fun image member => .within _ ?_
  exact follows_scanImage chained_attributes false true (attributes_scanMethod numbered member)

/-! ### Declared methods have a place -/

/-- Every method is declared by some record. -/
def AllLocated (graph : Graph) : Prop :=
  ∀ key m, graph.methods.get? key = some m → ∃ record, m.location = some record

def Locates (before after : Graph) : Prop := AllLocated before → AllLocated after

theorem chained_locates : Chained Locates where
  refl _ := id
  trans first second := fun located => second (first located)

/-- Steps of the other registries leave methods alone. -/
theorem locates_elsewhere {β : Type} (kind : EntityKind) (apart : kind ≠ .methods)
    (step : Registry kind (Entity kind) → Except Cause β × Registry kind (Entity kind)) :
    Follows Locates (onRegistry kind step) := by
  refine follows_onRegistry fun graph located => ?_
  cases kind with
  | methods => exact absurd rfl apart
  | classes | fields | strings => exact located

theorem locates_updateClass (key : ClassKey) (change : ClassEntity → ClassEntity) :
    Follows Locates (updateClass key change) := by
  unfold updateClass update
  exact locates_elsewhere .classes (by decide) _

theorem locates_bind {kind : EntityKind} (record : Record) (key : Key kind) :
    Follows Locates (bind kind record key) := by
  refine follows_onRegistry fun graph located other m present => located other m ?_
  cases kind with
  | methods =>
    change ((graph.registry .methods).bind record key).2.get? other = some m at present
    rwa [Registry.get?, Registry.arena_bind] at present
  | classes | fields | strings => exact present

/-- A method that is declared has a place, and a field is no method. -/
theorem locates_intern (kind : MemberKind) (owner : Option ClassKey) (member : Pools.Member)
    (access : Nat) (external : Bool) (record : Record) :
    Follows Locates (intern kind.sort (kind.fullName member)
      (kind.make owner member access external (some record))) := by
  cases kind with
  | field => exact locates_elsewhere .fields (by decide) _
  | method =>
    apply follows_onRegistry
    intro graph located key m present
    rcases graph.methods.get?_intern _ _ key with same | ⟨-, new⟩
    · exact located key m (same.symm.trans present)
    · obtain rfl := Option.some.inj (new.symm.trans present)
      exact ⟨_, rfl⟩

theorem locates_declareMember (kind : MemberKind) (image : Image) (owner : ClassKey)
    (id access : Nat) (external : Bool) :
    Follows Locates (declareMember kind image owner id access external) := by
  apply follows_declareMember chained_locates
  · exact fun member _ => locates_intern kind _ member access external _
  · exact fun record key => locates_bind record key
  · exact fun _ => locates_updateClass _ _

theorem locates_declareImage (cancelled : Bool) (image : Image) :
    Follows Locates (declareImage cancelled image) :=
  follows_declareImage chained_locates cancelled fun _ _ _ =>
    follows_declareClass chained_locates
      (fun _ => locates_elsewhere .classes (by decide) _)
      (fun record key => locates_bind record key)
      (fun _ _ _ _ _ => locates_updateClass _ _)
      (fun owner _ _ => locates_declareMember .field image owner _ _ _)
      (fun owner _ _ => locates_declareMember .method image owner _ _ _)

/-! ### The whole construction -/

/-- A graph before code is searched: all declarations are made, and nothing is used. -/
structure Prepared (images : List Image) (graph : Graph) : Prop where
  populated : Populated images graph
  located : AllLocated graph
  unused : ∀ key, graph.traffic.uses key = []

theorem package_ok (numbered : Image.Numbered images) {keepUses : Bool} {state : Build}
    (ran : package false keepUses images {} = .ok () state) :
    ∃ middle : Build, Prepared images middle.graph ∧
      (images.forM fun image =>
        within (.image image.name) (scanImage false keepUses image)) middle = .ok () state := by
  obtain ⟨_, s₁, declared, ran⟩ := bind_ok ran
  obtain ⟨_, s₂, linked, scanned⟩ := bind_ok ran
  have quiet : Quiet {} s₁.graph := Follows.forM chained_quiet
    (fun image _ => .within _ (quiet_declareImage false image)) declared
  have locates : Locates {} s₁.graph := Follows.forM chained_locates
    (fun image _ => .within _ (locates_declareImage false image)) declared
  refine ⟨s₂, ⟨?_, ?_, fun key => ?_⟩, scanned⟩
  · exact ensures_linked.of_run
      ((ensures_declared numbered).of_run Graph.WellFormed.empty declared) linked
  · refine locates_elsewhere .classes (by decide) _ linked (locates ?_)
    simp [AllLocated, Registry.get?]
  · rw [(quiet_linkClasses linked).traffic, quiet.traffic]
    simp [Graph.traffic, Registry.view, Registry.get?]

theorem package_uses (numbered : Image.Numbered images)
    (separate : ∀ image ∈ images, image.Separate) {state : Build}
    (ran : package false true images {} = .ok () state) {key : MethodKey} {m : MethodEntity}
    (present : state.graph.methods.get? key = some m) :
    (∀ record, m.location = some record → m.uses.toList.map Use.resolved =
      state.graph.mentionsIn (Image.bodyAt images record)) ∧
    (m.location = none → m.uses = #[]) := by
  obtain ⟨middle, prepared, scanned⟩ := package_ok numbered ran
  have own : state.graph.traffic.uses key = m.uses.toList := Registry.view_of_get? present _ _
  constructor
  · intro record located
    have adds := adds_scanned numbered key record scanned
    have populated := (ensures_scanned numbered true).of_run prepared.populated scanned
    have home := Graph.home_of_location prepared.populated populated adds.toGrows present located
    obtain ⟨list, added, seen⟩ := adds.uses home
    rw [prepared.unused, List.nil_append, own] at added
    rw [added, seen _ (Graph.Extends.refl _)]
    cases found : images[record.image]?.bind fun image => image.body? record.id with
    | none => simp [Image.bodyAt, found, Graph.mentionsIn]
    | some body =>
      -- a body that exists belongs to a visit, and no record is visited twice
      obtain ⟨image, there, decoded⟩ := Option.bind_eq_some_iff.mp found
      rw [List.count_eq_one_of_mem (Image.allVisits_nodup numbered separate)
        (Image.mem_allVisits numbered there decoded)]
      simp
  · intro nowhere
    have attributed := (attributes_scanned numbered scanned).attributed fun other =>
      .inl (prepared.unused other)
    rcases attributed key with none | ⟨m', record, there, located⟩
    · exact Array.toList_eq_nil_iff.mp (own.symm.trans none)
    · obtain rfl := Option.some.inj (present.symm.trans there)
      cases nowhere.symm.trans located

/-- The record of a declared method leads to a method with a place, its own or that of an earlier
declaration. -/
theorem declared_located (numbered : Image.Numbered images) {state : Build}
    (ran : package false true images {} = .ok () state) {record : Record}
    (lists : Image.Lists images .methods record) :
    ∃ key m place, state.graph.methods.byRecord[record]? = some key ∧
      state.graph.methods.get? key = some m ∧ m.location = some place := by
  obtain ⟨middle, prepared, scanned⟩ := package_ok numbered ran
  obtain ⟨key, bound⟩ := Graph.bound_of_lists prepared.populated lists
  have grows := (adds_scanned numbered key record scanned).toGrows
  have coherent := prepared.populated.1.coherent .methods
  obtain ⟨name, -, known⟩ := coherent.records bound
  obtain ⟨m, present⟩ := (Registry.contains_iff _ _).mp (coherent.contains known)
  obtain ⟨place, located⟩ := prepared.located key m present
  obtain ⟨m', present', -, same⟩ := grows.settled key m present
  exact ⟨key, m', place, (grows.larger .methods).records bound, present', same.trans located⟩

end Builder

theorem Sample.separate : Sample.image.Separate := by
  intro classDef defined data given direct _ method listed
  obtain rfl := Array.mem_singleton.mp defined
  obtain rfl := Option.some.inj given
  cases listed

theorem Sample.lists_iff {record : Record} :
    Image.Lists [Sample.image] .methods record ↔ record = ⟨0, 0⟩ := by
  constructor
  · rintro ⟨image, member, classDef, defined, number, listed⟩
    obtain rfl := List.mem_singleton.mp member
    obtain rfl := Array.mem_singleton.mp defined
    have id := List.mem_singleton.mp listed
    cases record
    cases number
    cases id
    rfl
  · rintro rfl
    exact ⟨Sample.image, List.mem_singleton.mpr rfl, Sample.classDef, Array.mem_singleton.mpr rfl,
      rfl, List.mem_singleton.mpr rfl⟩

/-! ### Packages -/

namespace Package

/-- The uses of a method are the references of the code that declares it, in order and each with
the entity of its name; a method without a declaration uses nothing. -/
theorem uses_complete {inputs : List (String × Bytes)} {options : Options} {package : Package}
    (opened : (ofImages inputs options).outcome = .ok package) (kept : options.keepUses = true)
    (separate : ∀ image ∈ package.images, image.Separate) {key : MethodKey} {m : MethodEntity}
    (present : package.graph.methods.get? key = some m) :
    (∀ record, m.location = some record → m.uses.toList.map Use.resolved =
      package.graph.mentionsIn (Image.bodyAt package.images.toList record)) ∧
    (m.location = none → m.uses = #[]) := by
  obtain ⟨numbered, built⟩ := ofImages_ok opened
  rw [kept] at built
  obtain ⟨state, ran, same⟩ := Graph.build_ok built
  rw [← same] at present ⊢
  exact Builder.package_uses numbered
    (fun image member => separate image (Array.mem_toList_iff.mp member)) ran present

theorem uses_complete_sample :
    ∃ package key m, (ofImages [("classes.dex", Sample.bytes)] {}).outcome = .ok package ∧
      (∀ image ∈ package.images, image.Separate) ∧
      package.graph.methods.get? key = some m ∧ m.location = some ⟨0, 0⟩ ∧
      m.uses.toList.map Use.resolved = package.graph.mentionsIn Sample.body ∧
      m.uses.toList.map Use.offset = [0, 4, 8, 12] := by
  obtain ⟨⟨⟩, state, ran, -, populated⟩ :=
    Builder.ensures_package Sample.numbered true {} Graph.WellFormed.empty
  have built : (Graph.build false true [Sample.image]).outcome = .ok state.graph := by
    rw [Graph.build, ran]
  have opened := ofImages_single Sample.loaded built
  have separate : ∀ image ∈ #[Sample.image], image.Separate := by
    intro image member
    rw [Array.mem_singleton.mp member]
    exact Sample.separate
  obtain ⟨key, m, place, -, present, located⟩ :=
    Builder.declared_located Sample.numbered ran (Sample.lists_iff.mpr rfl)
  obtain rfl := Sample.lists_iff.mp (populated.1.placed present located).1
  have body : Image.bodyAt [Sample.image] ⟨0, 0⟩ = Sample.body := by
    simp [Image.bodyAt, Image.body?, Sample.image]
  have complete := (uses_complete opened rfl separate present).1 _ located
  rw [body] at complete
  refine ⟨_, key, m, opened, separate, present, located, complete, ?_⟩
  have offsets := congrArg (List.map Prod.fst) complete
  rw [List.map_map, Graph.map_fst_mentionsIn] at offsets
  exact offsets.trans (by decide +kernel)

end Package

end DexAtlas
