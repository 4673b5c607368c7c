import DexAtlas.Proofs.Identity
import DexAtlas.Proofs.Size

/-!
# Building

The last pass over the code never fails either. Each reference was spelled by the pools of its
image, so what it leads to is interned and bound under the right name; and the method whose code is
searched was bound when the classes were declared. Put together, the graph of loaded images is
always built, and all that was said about names and records holds of it.
-/
namespace DexAtlas

namespace Builder

variable {images : List Image}

/-! ### Entities met in code -/

theorem ensures_classFor (descriptor : String) :
    Ensures (Graph.WellFormed images) (classFor descriptor) fun key graph =>
      graph.WellFormed images ∧ (graph.registry .classes).byName[descriptor]? = some key := by
  intro state formed
  refine .bind (ensures_intern (fun _ => rfl) (fun _ => rfl) (fun _ => rfl) nofun)
    ⟨formed, nofun⟩ fun (key, _) after _ known => ?_
  exact .pure known

theorem ensures_ownerFor (descriptor : String) :
    Ensures (Graph.WellFormed images) (ownerFor descriptor) fun owner graph =>
      graph.WellFormed images ∧ graph.HasClass owner := by
  intro state formed
  unfold ownerFor
  split
  · refine .bind (ensures_classFor descriptor) formed fun key after _ ⟨formed, known⟩ => ?_
    exact .pure ⟨formed, hasClass_of_known formed known⟩
  · exact .pure ⟨formed, nofun⟩

theorem ensures_enrol (created : Bool) (owner : Option ClassKey)
    {change : ClassEntity → ClassEntity}
    (keeps : ∀ c, (change c).name = c.name ∧ (change c).key = c.key) :
    Ensures (fun graph => graph.WellFormed images ∧ graph.HasClass owner)
      (enrol created owner change) fun _ graph => graph.WellFormed images := by
  intro state ⟨formed, present⟩
  unfold enrol
  split
  · exact ensures_updateClass keeps state ⟨formed, present⟩
  · exact .pure formed

theorem ensures_meetString {record : Record} {value : String}
    (named : Image.naming images .strings record = some value) :
    Ensures (Graph.WellFormed images) (meetString record value) fun key graph =>
      graph.WellFormed images ∧ (graph.registry .strings).contains key = true := by
  intro state formed
  refine .bind (ensures_intern (fun _ => rfl) (fun _ => rfl) (fun _ => rfl) nofun)
    ⟨formed, nofun⟩ fun (key, _) middle _ ⟨formed, known⟩ => ?_
  have present := (formed.coherent .strings).contains known
  refine .bind (ensures_bind named) ⟨formed, known⟩ fun _ after grown ⟨formed, _⟩ => ?_
  exact .pure ⟨formed, (grown .strings).contains present⟩

theorem ensures_meetClass {record : Record} {descriptor : String} (element : String)
    (named : Image.naming images .classes record = some descriptor) :
    Ensures (Graph.WellFormed images) (meetClass record descriptor element) fun key graph =>
      graph.WellFormed images ∧ graph.HasClass (some key) := by
  intro state formed
  refine .bind (ensures_classFor element) formed fun key middle _ ⟨formed, known⟩ => ?_
  have present := hasClass_of_known formed known
  split
  next same =>
    refine .bind (ensures_bind named) ⟨formed, same ▸ known⟩ fun _ after grown ⟨formed, _⟩ => ?_
    exact .pure ⟨formed, stable_hasClass _ grown present⟩
  next => exact .pure ⟨formed, present⟩

theorem ensures_meetMember {kind : MemberKind} {record : Record} {member : Pools.Member}
    (spelled : Image.naming images kind.sort record = some (kind.fullName member)) :
    Ensures (Graph.WellFormed images) (meetMember kind record member) fun met graph =>
      graph.WellFormed images ∧ graph.HasClass met.1 ∧
        (graph.registry kind.sort).contains met.2 = true := by
  intro state formed
  refine .bind (ensures_ownerFor member.owner) formed fun owner s₁ _ ⟨formed, hosted⟩ => ?_
  have unplaced : ∀ key record,
      Entity.location kind.sort (kind.make owner member 0 true none key) = some record →
        Image.Lists images kind.sort record ∧
          Image.naming images kind.sort record = some (kind.fullName member) := by
    intro key record placed
    rw [kind.location_make] at placed
    cases placed
  refine .bind (ensures_intern (kind.name_make _ _ _ _ _) (kind.key_make _ _ _ _ _)
    (kind.owner_make _ _ _ _ _) unplaced) ⟨formed, hosted⟩ fun (key, created) s₂ grown ⟨formed, known⟩ => ?_
  replace hosted := stable_hasClass _ grown hosted
  refine .bind (ensures_enrol created owner (kind.keeps_addTo key)) ⟨formed, hosted⟩
    fun _ s₃ grown formed => ?_
  replace hosted := stable_hasClass _ grown hosted
  replace known := (grown kind.sort).names known
  have present := (formed.coherent kind.sort).contains known
  refine .bind (ensures_bind spelled) ⟨formed, known⟩ fun _ s₄ grown ⟨formed, _⟩ => ?_
  exact .pure ⟨formed, stable_hasClass _ grown hosted, (grown kind.sort).contains present⟩

/-! ### Uses -/

/-- A well-formed graph with the method whose code is searched, and with its class. -/
def Stages (images : List Image) (method : MethodKey) (owner : Option ClassKey) (graph : Graph) :
    Prop :=
  graph.WellFormed images ∧ (graph.registry .methods).contains method = true ∧ graph.HasClass owner

/-- Growth keeps a stage as long as the graph stays well formed. -/
theorem Stages.grow {method : MethodKey} {owner : Option ClassKey} {before after : Graph}
    (stage : Stages images method owner before) (grown : before.Extends after)
    (formed : after.WellFormed images) : Stages images method owner after :=
  ⟨formed, (grown .methods).contains stage.2.1, stable_hasClass _ grown stage.2.2⟩

theorem ensures_addUse (site : Site) (owner : Option ClassKey) (target : Target) :
    Ensures (Stages images site.method owner) (addUse site target)
      fun _ graph => Stages images site.method owner graph := by
  intro state stage
  have keeps : Entity.Keeps .methods fun m =>
      { m with uses := m.uses.push ⟨site.offset, target⟩ } :=
    ⟨fun _ => rfl, fun _ => rfl, fun _ => rfl, fun _ => rfl⟩
  exact .last (ensures_update keeps) ⟨stage.1, stage.2.1⟩ fun _ _ grown formed =>
    stage.grow grown formed

theorem ensures_addEdge (site : Site) (source target : Option ClassKey) (use : ClassUse) :
    Ensures (fun graph => Stages images site.method source graph ∧ graph.HasClass target)
      (addEdge source target use site) fun _ graph => Stages images site.method source graph := by
  intro state ⟨stage, present⟩
  unfold addEdge
  split
  next both =>
    obtain ⟨rfl, rfl⟩ := Prod.mk.inj both
    refine .bind (ensures_updateClass fun _ => ⟨rfl, rfl⟩) ⟨stage.1, stage.2.2⟩
      fun _ middle grown formed => ?_
    replace stage := stage.grow grown formed
    refine .last (ensures_updateClass fun _ => ⟨rfl, rfl⟩)
      ⟨formed, stable_hasClass _ grown present⟩ fun _ after grown formed => stage.grow grown formed
  next => exact .pure stage

variable {image : Image} {scene : Scene}

theorem ensures_useString (found : images[scene.image]? = some image) {index : Nat} {value : String}
    (spelled : image.container.pools.string? index = some value) (keepUses : Bool) :
    Ensures (Stages images scene.site.method scene.owner) (useString keepUses scene index value)
      fun _ graph => Stages images scene.site.method scene.owner graph := by
  have named : Image.naming images .strings ⟨scene.image, index⟩ = some value :=
    (Image.naming_of_get? found _ _).trans spelled
  intro state stage
  refine .bind (ensures_meetString named) stage.1 fun key s₁ grown ⟨formed, present⟩ => ?_
  replace stage := stage.grow grown formed
  split
  · have keeps : Entity.Keeps .strings fun s => { s with loads := s.loads.push scene.site } :=
      ⟨fun _ => rfl, fun _ => rfl, fun _ => rfl, fun _ => rfl⟩
    refine .bind (ensures_update keeps) ⟨formed, present⟩ fun _ s₂ grown formed => ?_
    exact ensures_addUse _ _ _ s₂ (stage.grow grown formed)
  · exact .pure stage

theorem ensures_useType (found : images[scene.image]? = some image) {index : Nat}
    {descriptor : String}
    (spelled : image.container.pools.typeDescriptor? index = some descriptor) (keepUses : Bool) :
    Ensures (Stages images scene.site.method scene.owner) (useType keepUses scene index descriptor)
      fun _ graph => Stages images scene.site.method scene.owner graph := by
  have named : Image.naming images .classes ⟨scene.image, index⟩ = some descriptor :=
    (Image.naming_of_get? found _ _).trans spelled
  intro state stage
  unfold useType
  split
  · refine .bind (ensures_meetClass _ named) stage.1 fun key s₁ grown ⟨formed, present⟩ => ?_
    replace stage := stage.grow grown formed
    split
    · refine .bind (ensures_addUse _ _ _) stage fun _ s₂ grown stage => ?_
      exact ensures_addEdge _ _ _ _ s₂ ⟨stage, stable_hasClass _ grown present⟩
    · exact .pure stage
  · exact .pure stage

/-- The use of a member is noted at the member, at the method and at both classes. -/
theorem ensures_useMember (kind : MemberKind) (found : images[scene.image]? = some image)
    {index : Nat} {member : Pools.Member}
    (spelled : kind.find? image.container.pools index = some member) (keepUses : Bool) :
    Ensures (Stages images scene.site.method scene.owner)
      (useMember kind keepUses scene index member)
      fun _ graph => Stages images scene.site.method scene.owner graph := by
  have named :
      Image.naming images kind.sort ⟨scene.image, index⟩ = some (kind.fullName member) := by
    rw [Image.naming_of_get? found, Pools.nameOf?_of_find? spelled]
  intro state stage
  refine .bind (ensures_meetMember named) stage.1 fun met s₁ grown reached => ?_
  obtain ⟨owner, key⟩ := met
  obtain ⟨formed, hosted, present⟩ := reached
  replace stage := stage.grow grown formed
  dsimp only
  split
  · have keeps := kind.keeps_addSite scene.insn scene.site
    refine .bind (ensures_update keeps) ⟨formed, present⟩ fun _ s₂ grown formed => ?_
    replace hosted := stable_hasClass _ grown hosted
    refine .bind (ensures_addUse _ _ _) (stage.grow grown formed) fun _ s₃ grown stage => ?_
    exact ensures_addEdge _ _ _ _ s₃ ⟨stage, stable_hasClass _ grown hosted⟩
  · exact .pure stage

theorem ensures_use (scene : Scene) (found : images[scene.image]? = some image)
    {reference : Reference} (spelled : image.container.pools.Spells reference) (keepUses : Bool) :
    Ensures (Stages images scene.site.method scene.owner) (use keepUses scene reference)
      fun _ graph => Stages images scene.site.method scene.owner graph := by
  cases reference with
  | string => exact ensures_useString found spelled keepUses
  | type => exact ensures_useType found spelled keepUses
  | field => exact ensures_useMember .field found spelled keepUses
  | method => exact ensures_useMember .method found spelled keepUses
  | proto | callSite | methodHandle => exact fun state stage => .pure stage

/-! ### Whole passes -/

/-- A well-formed graph in which all definitions of the images are bound. -/
def Populated (images : List Image) (graph : Graph) : Prop :=
  graph.WellFormed images ∧
    ∀ image ∈ images, ∀ classDef ∈ image.container.classDefs, Declared image classDef graph

theorem ensures_searchBody (numbered : Image.Numbered images) (member : image ∈ images) {id : Nat}
    {body : Array Instruction} (located : image.body? id = some body) (key : MethodKey)
    (owner : Option ClassKey) (keepUses : Bool) :
    Ensures (Stages images key owner) (searchBody keepUses image.index key owner body)
      fun _ graph => Stages images key owner graph := by
  obtain ⟨code, decoded⟩ := (numbered.sound member).decoded located
  refine .forM_keeps fun insn occurs => .forM_keeps fun reference refers => ?_
  have spelled := Instruction.decode_spells decoded (Array.mem_toList_iff.mp occurs) refers
  exact ensures_use ⟨image.index, ⟨key, insn.offset⟩, owner, insn⟩ (numbered.at_index member)
    spelled keepUses

theorem ensures_scanMethod (numbered : Image.Numbered images) (member : image ∈ images)
    {classDef : ClassDef} (defined : classDef ∈ image.container.classDefs) {method : EncodedMethod}
    (listed : method ∈ classDef.methods) (keepUses : Bool) :
    Ensures (Populated images) (scanMethod keepUses image method)
      fun _ graph => Populated images graph := by
  intro state populated
  have ⟨formed, declared⟩ := populated
  obtain ⟨key, bound⟩ := (declared image member classDef defined).methods method listed
  unfold scanMethod
  refine .graph ?_
  rw [show state.graph.methods.lookup? (.record ⟨image.index, method.id⟩) = some key from bound]
  dsimp only
  split
  next caller present =>
    split
    · exact .pure populated
    · split
      next body located =>
        -- the class of a method that is in the graph is there as well
        have stage : Stages images key caller.owner state.graph :=
          ⟨formed, (Registry.contains_iff _ _).mpr ⟨caller, present⟩,
            fun owner owned => formed.owned present owned⟩
        refine .last (ensures_searchBody numbered member located key caller.owner keepUses) stage
          fun _ after grown stage => ⟨stage.1, fun other there classDef defined => ?_⟩
        exact stable_declared _ _ grown (declared other there classDef defined)
      next => exact .pure populated
  next => exact .pure populated

theorem ensures_scanImage (numbered : Image.Numbered images) (member : image ∈ images)
    (keepUses : Bool) :
    Ensures (Populated images) (scanImage false keepUses image)
      fun _ graph => Populated images graph := by
  refine .forM_keeps fun classDef defined => .forM_keeps fun method listed => ?_
  exact ensures_scanMethod numbered member (Array.mem_toList_iff.mp defined)
    (List.mem_filter.mp listed).1 keepUses

/-- After the first pass all definitions are bound. -/
theorem ensures_declared (numbered : Image.Numbered images) :
    Ensures (Graph.WellFormed images)
      (images.forM fun image => within (.image image.name) (declareImage false image))
      fun _ graph => Populated images graph := by
  refine .forM (fun image _ _ grown declared classDef defined => ?_) fun image member => ?_
  · exact stable_declared _ _ grown (declared classDef defined)
  · exact .within _ (ensures_declareImage numbered member)

theorem ensures_linked :
    Ensures (Populated images) linkClasses fun _ graph => Populated images graph := by
  intro state ⟨formed, declared⟩
  refine .last ensures_linkClasses formed fun _ _ grown formed => ⟨formed, ?_⟩
  exact fun image member classDef defined =>
    stable_declared _ _ grown (declared image member classDef defined)

theorem ensures_scanned (numbered : Image.Numbered images) (keepUses : Bool) :
    Ensures (Populated images)
      (images.forM fun image => within (.image image.name) (scanImage false keepUses image))
      fun _ graph => Populated images graph :=
  .forM_keeps fun _ member => .within _ (ensures_scanImage numbered member keepUses)

theorem ensures_package (numbered : Image.Numbered images) (keepUses : Bool) :
    Ensures (Graph.WellFormed images) (package false keepUses images)
      fun _ graph => Populated images graph := by
  intro state formed
  refine .bind (ensures_declared numbered) formed fun _ s₁ _ populated => ?_
  refine .bind ensures_linked populated fun _ s₂ _ populated => ?_
  exact ensures_scanned numbered keepUses s₂ populated

end Builder

/-! ### Graphs and packages -/

namespace Graph

variable {images : List Image}

/-- The graph of loaded images is built, and is as the passes promise. -/
theorem build_populated (numbered : Image.Numbered images) (keepUses : Bool) :
    ∃ graph, (Graph.build false keepUses images).outcome = .ok graph ∧
      Builder.Populated images graph := by
  obtain ⟨⟨⟩, state, ran, -, populated⟩ :=
    Builder.ensures_package numbered keepUses {} WellFormed.empty
  exact ⟨state.graph, by rw [Graph.build, ran], populated⟩

theorem populated_of_build (numbered : Image.Numbered images) {keepUses : Bool} {graph : Graph}
    (built : (Graph.build false keepUses images).outcome = .ok graph) :
    Builder.Populated images graph := by
  obtain ⟨other, alsoBuilt, populated⟩ := build_populated numbered keepUses
  obtain rfl := Except.ok.inj (built.symm.trans alsoBuilt)
  exact populated

/-- Loaded images always have a graph, with or without their uses. So a package that cannot be
built was cancelled. -/
theorem build_succeeds :
    (∀ keepUses images, Image.Numbered images →
      ∃ graph, (Graph.build false keepUses images).outcome = .ok graph) ∧
    ∀ inputs options e, (Package.ofImages inputs options).outcome = .error (.build e) →
      e = .of .cancelled := by
  constructor
  · intro keepUses images numbered
    obtain ⟨graph, built, -⟩ := build_populated numbered keepUses
    exact ⟨graph, built⟩
  · intro inputs options e failed
    simp only [Package.ofImages] at failed
    split at failed
    · exact (PackageError.build.inj (Except.error.inj failed)).symm
    next running =>
      split at failed
      · cases failed
      · obtain ⟨graph, built, -⟩ :=
          build_populated (Package.loadAll_numbered options.cancelled inputs) options.keepUses
        rw [Package.Loaded.running running] at built failed
        rw [built] at failed
        cases failed

theorem build_succeeds_sample :
    Image.Numbered [Sample.image] ∧
    (∃ graph, (Graph.build false true [Sample.image]).outcome = .ok graph) ∧
    (Package.ofImages [("classes.dex", Sample.bytes)] { cancelled := true }).outcome =
      .error (.build (.of .cancelled)) ∧
    ∀ e, (Package.ofImages [("classes.dex", Sample.bytes)] { cancelled := true }).outcome =
      .error (.build e) → e = .of .cancelled := by
  refine ⟨Sample.numbered, build_succeeds.1 true [Sample.image] Sample.numbered, ?_, ?_⟩
  · simp [Package.ofImages, Package.Loaded.isCancelled]
  · exact build_succeeds.2 _ _

/-- A record that is bound leads to an entity. -/
theorem resolve?_of_bound {graph : Graph} (formed : graph.WellFormed images) {kind : EntityKind}
    {record : Record} (bound : graph.Bound kind record) :
    ((graph.registry kind).resolve? (.record record)).isSome = true := by
  obtain ⟨key, found⟩ := bound
  obtain ⟨name, -, known⟩ := (formed.coherent kind).records found
  obtain ⟨entity, present⟩ :=
    (Registry.contains_iff _ _).mp ((formed.coherent kind).contains known)
  simp [Registry.resolve?, Registry.lookup?, found, present]

end Graph

namespace Package

variable {inputs : List (String × Bytes)} {options : Options} {package : Package}

theorem populated_of_opened (opened : (ofImages inputs options).outcome = .ok package) :
    Builder.Populated package.images.toList package.graph := by
  obtain ⟨numbered, built⟩ := ofImages_ok opened
  exact Graph.populated_of_build numbered built

/-- Names and records are one identity. Whatever an image declares is bound; a bound record leads
where the name leads that its own pools spell, to an entity of that name; and every entity stands at
its key, is found by its name and shares it with no other. -/
theorem records_agree_with_names (opened : (ofImages inputs options).outcome = .ok package)
    (fits : ∀ kind, (package.graph.registry kind).size < 2 ^ 32) :
    (∀ (position : Nat) (image : Image), package.images[position]? = some image →
      ∀ classDef ∈ image.container.classDefs,
        (package.classOf? position classDef).isSome = true ∧
        (∀ method ∈ classDef.methods, (package.methodOf? position method).isSome = true) ∧
        ∀ field ∈ classDef.fields, (package.fieldOf? position field).isSome = true) ∧
    (∀ kind record key, (package.graph.registry kind).lookup? (.record record) = some key →
      ∃ image name entity, package.images[record.image]? = some image ∧
        image.container.pools.nameOf? kind record.id = some name ∧
        (package.graph.registry kind).lookup? (.name name) = some key ∧
        (package.graph.registry kind).get? key = some entity ∧ Entity.name kind entity = name) ∧
    (∀ kind (place : Nat) (entity : Entity kind),
      (package.graph.registry kind).arena[place]? = some entity →
      (Entity.key kind entity).index = place ∧
      (package.graph.registry kind).resolve? (.name (Entity.name kind entity)) = some entity) ∧
    ∀ kind (place other : Nat) (a b : Entity kind),
      (package.graph.registry kind).arena[place]? = some a →
      (package.graph.registry kind).arena[other]? = some b →
      Entity.name kind a = Entity.name kind b → place = other := by
  obtain ⟨formed, declared⟩ := populated_of_opened opened
  have numbered := (ofImages_ok opened).1
  refine ⟨fun position image found classDef defined => ?_, fun kind record key bound => ?_,
    fun kind place entity found => ?_, fun kind place other a b foundA foundB same => ?_⟩
  · have found : package.images.toList[position]? = some image := by simpa using found
    have bound := declared image (List.mem_of_getElem? found) classDef defined
    obtain rfl := (numbered position image found).2
    exact ⟨Graph.resolve?_of_bound formed bound.type,
      fun method listed => Graph.resolve?_of_bound formed (bound.methods method listed),
      fun field listed => Graph.resolve?_of_bound formed (bound.fields field listed)⟩
  · obtain ⟨name, named, known⟩ := (formed.coherent kind).records bound
    obtain ⟨image, found, spelled⟩ := Option.bind_eq_some_iff.mp named
    obtain ⟨entity, present, own⟩ := (formed.coherent kind).get?_of_name (fits kind) known
    exact ⟨image, name, entity, by simpa using found, spelled, known, present, own⟩
  · have keyed := (formed.coherent kind).index_key (fits kind) found
    obtain ⟨key, known⟩ := (formed.coherent kind).entities found
    refine ⟨keyed, ?_⟩
    rw [Registry.resolve?, Registry.lookup?, known, Option.bind_some, Registry.get?, ← key, keyed,
      found]
  · -- one name leads to one key, and each entity stands at its key
    have placed := ((formed.coherent kind).entities foundA).2
    rw [same, ((formed.coherent kind).entities foundB).2] at placed
    rw [← (formed.coherent kind).index_key (fits kind) foundA,
      ← (formed.coherent kind).index_key (fits kind) foundB,
      ((formed.coherent kind).entities foundA).1, ((formed.coherent kind).entities foundB).1,
      Option.some.inj placed]

theorem records_agree_with_names_sample :
    ∃ package, (ofImages [("classes.dex", Sample.bytes)] {}).outcome = .ok package ∧
      (∀ kind, (package.graph.registry kind).size < 2 ^ 32) ∧
      ∃ entity, package.classOf? 0 Sample.classDef = some entity ∧ entity.name = "LA;" ∧
        package.graph.classes.resolve? (.name "LA;") = some entity := by
  obtain ⟨graph, built, -⟩ := Graph.build_populated Sample.numbered true
  have opened := ofImages_single Sample.loaded built
  have fits (kind : EntityKind) : (graph.registry kind).size < 2 ^ 32 :=
    Nat.lt_of_le_of_lt (Graph.size_le_entityBound built kind) Sample.entityBound_lt
  obtain ⟨declared, bound, -, -⟩ := records_agree_with_names opened fits
  have listed : Sample.classDef ∈ Sample.image.container.classDefs := by
    simp [Sample.image, Sample.container]
  obtain ⟨entity, resolved⟩ :=
    Option.isSome_iff_exists.mp (declared 0 Sample.image rfl Sample.classDef listed).1
  obtain ⟨key, lookedUp, present⟩ := Option.bind_eq_some_iff.mp resolved
  obtain ⟨image, name, same, there, spelled, known, found, named⟩ :=
    bound .classes ⟨0, 0⟩ key lookedUp
  obtain rfl := Option.some.inj there
  obtain rfl : "LA;" = name := Option.some.inj spelled
  obtain rfl : entity = same := Option.some.inj (present.symm.trans found)
  refine ⟨_, opened, fits, entity, resolved, named, ?_⟩
  exact Option.bind_eq_some_iff.mpr ⟨key, known, present⟩

end Package

end DexAtlas
