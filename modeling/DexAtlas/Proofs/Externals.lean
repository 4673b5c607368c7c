import DexAtlas.Proofs.Declarations

/-!
# External methods

A method is external if its first declaration has no code, or if it has no declaration at all.
Whether some image holds code for it is another question: a method may be declared without code in
one image and with code in a later one. The flag answers that question for exactly those methods
whose first declaration has code if any has.
-/
namespace DexAtlas

namespace Image

variable {images : List Image} {name : String}

/-- The code of the first declaration of a method. -/
def firstCode? (images : List Image) (name : String) : Option CodeItem :=
  (declarationsOf images name).head?.bind (·.2.code)

/-- Some image holds code for the method of that name. -/
def HoldCode (images : List Image) (name : String) : Prop :=
  ∃ image ∈ images, ∃ classDef ∈ image.container.classDefs, ∃ method ∈ classDef.methods,
    image.container.pools.methodName? method.id = some name ∧ method.code.isSome = true

theorem mem_declares {image : Image} {method : EncodedMethod} {d : Record × EncodedMethod} :
    d ∈ image.declares name method ↔
      image.container.pools.methodName? method.id = some name ∧
        d = (⟨image.index, method.id⟩, method) := by
  unfold declares
  split <;> simp [*]

theorem holdCode_iff :
    HoldCode images name ↔ ∃ d ∈ declarationsOf images name, d.2.code.isSome = true := by
  simp only [HoldCode, declarationsOf, List.mem_flatMap, mem_declares, Array.mem_toList_iff]
  constructor
  · rintro ⟨image, member, classDef, defined, method, listed, named, coded⟩
    exact ⟨_, ⟨image, member, classDef, defined, method, listed, named, rfl⟩, coded⟩
  · rintro ⟨_, ⟨image, member, classDef, defined, method, listed, named, rfl⟩, coded⟩
    exact ⟨image, member, classDef, defined, method, listed, named, coded⟩

theorem holdCode_of_firstCode? (first : (firstCode? images name).isSome = true) :
    HoldCode images name := by
  obtain ⟨code, found⟩ := Option.isSome_iff_exists.mp first
  obtain ⟨d, head, coded⟩ := Option.bind_eq_some_iff.mp found
  exact holdCode_iff.mpr ⟨d, List.mem_of_head? head, by rw [coded]; rfl⟩

end Image

namespace Package

variable {inputs : List (String × Bytes)} {options : Options} {package : Package}

/-- A method that an image declares is in the graph. -/
theorem exists_declared (opened : (ofImages inputs options).outcome = .ok package) {image : Image}
    (member : image ∈ package.images.toList) {classDef : ClassDef}
    (defined : classDef ∈ image.container.classDefs) {method : EncodedMethod}
    (listed : method ∈ classDef.methods) :
    ∃ m ∈ package.graph.methods.arena,
      image.container.pools.methodName? method.id = some m.fullName := by
  have numbered := (ofImages_ok opened).1
  obtain ⟨formed, declared⟩ := populated_of_opened opened
  obtain ⟨key, bound⟩ := (declared image member classDef defined).methods method listed
  obtain ⟨name, spelled, known⟩ := (formed.coherent .methods).records bound
  obtain ⟨place, m, found, named, -⟩ := (formed.coherent .methods).names known
  rw [Image.naming_of_get? (numbered.at_index member)] at spelled
  exact ⟨m, Array.mem_of_getElem? found, spelled.trans (congrArg some named.symm)⟩

/-- The flag says whether the first declaration of a method has code. So it says whether the package
has code for the method exactly if no declaration without code comes before the first with code. -/
theorem external_iff_first_uncoded (opened : (ofImages inputs options).outcome = .ok package) :
    (∀ m ∈ package.graph.methods.arena,
      m.external = (Image.firstCode? package.images.toList m.fullName).isNone ∧
      ((m.external = true ↔ ¬ Image.HoldCode package.images.toList m.fullName) ↔
        (Image.HoldCode package.images.toList m.fullName →
          (Image.firstCode? package.images.toList m.fullName).isSome = true))) ∧
    (∀ key m, package.graph.methods.get? key = some m →
      package.isExternal? m.fullName = some m.external) ∧
    package.externalMethods = package.graph.methods.arena.countP fun m =>
      (Image.firstCode? package.images.toList m.fullName).isNone := by
  have built := (ofImages_ok opened).2
  have flag : ∀ m ∈ package.graph.methods.arena,
      m.external = (Image.firstCode? package.images.toList m.fullName).isNone :=
    fun m present => (Graph.method_declared built present).2
  refine ⟨fun m present => ⟨flag m present, ?_⟩, fun key m present => ?_, ?_⟩
  · rw [flag m present]
    cases first : Image.firstCode? package.images.toList m.fullName with
    | none => simp
    | some code =>
      -- the first declaration is itself one with code
      have held : Image.HoldCode package.images.toList m.fullName :=
        Image.holdCode_of_firstCode? (by rw [first]; rfl)
      simp [held]
  · have coherent := (populated_of_opened opened).1.coherent .methods
    have named : package.methodNamed? m.fullName = some m := coherent.resolve?_name present
    rw [isExternal?, named, Option.map_some]
  · exact Array.countP_congr fun m present => by rw [flag m present]

end Package

/-! ### A method without code before the same method with code

The class of the small image, with its method declared abstract. -/

namespace AbstractSample

def classData : ClassData where
  staticFields := []
  instanceFields := []
  directMethods := []
  virtualMethods := [⟨0, 0x401, none⟩]

def classDef : ClassDef := { Sample.classDef with data := some classData }

def bytes : Bytes :=
  ((Layout.image 35 Sample.pools [classDef]).set 184 203 ++ classData.bytes).toArray

def container : Container := ⟨Sample.header, Sample.pools, #[classDef], bytes⟩

def image : Image where
  name := "classes.dex"
  index := 0
  container := container
  classesByName := Image.indexClasses container
  declared := Image.indexMethods container
  bodies := ∅

theorem parsed : (Container.parse bytes false).outcome = .ok container := by
  have ran : ∃ cursor, Container.readUnchecked 1 bytes ⟨0, #[]⟩ =
      .ok (Sample.header, Sample.pools, [classDef]) cursor :=
    Reader.ok_of_check (by decide +kernel)
  have accepted : Container.checkDef Sample.pools ∅ 0 classDef = .ok () := by
    simp only [Container.checkDef, Std.HashSet.contains_empty]
    rfl
  exact Container.parse_of_readUnchecked ran ⟨accepted, trivial⟩

theorem loaded : (Image.load "classes.dex" 0 bytes false).outcome = .ok image := by
  have entries : Image.entries container = [⟨0, 0x401, none⟩] := rfl
  exact Image.load_of_uncoded parsed (by simp [entries]) "classes.dex" 0

/-- The abstract method comes first. -/
def inputs : List (String × Bytes) :=
  [("classes.dex", bytes), ("classes2.dex", Sample.bytes)]

def images : List Image :=
  [image, { Sample.image with name := "classes2.dex", index := 1 }]

theorem numbered : Image.Numbered images := by
  intro position other found
  match position, found with
  | 0, found =>
    obtain rfl := Option.some.inj found
    exact ⟨⟨bytes, false, loaded⟩, rfl⟩
  | 1, found =>
    obtain rfl := Option.some.inj found
    exact ⟨⟨Sample.bytes, false, Sample.loadedAs "classes2.dex" 1⟩, rfl⟩

theorem entityBound_lt : Image.entityBound images < 2 ^ 32 := by
  have first : Image.entityBound [image] = 2 := by decide +kernel
  have second : Image.entityBound [{ Sample.image with name := "classes2.dex", index := 1 }] = 11 :=
    Sample.entityBound_eq
  simp only [Image.entityBound, List.map_cons, List.map_nil, List.sum_cons, List.sum_nil] at first second
  simp only [Image.entityBound, images, List.map_cons, List.map_nil, List.sum_cons, List.sum_nil]
  omega

theorem opened :
    ∃ graph, (Package.ofImages inputs {}).outcome = .ok ⟨images.toArray, graph, []⟩ := by
  obtain ⟨graph, built, -⟩ := Graph.build_populated numbered true
  exact ⟨graph, Package.ofImages_pair loaded (Sample.loadedAs "classes2.dex" 1) built⟩

theorem spelled : Sample.pools.methodName? 0 = some "LA;->f()V" := by
  cbv

/-- Both images declare the method, the second one with code. -/
theorem declarations : Image.declarationsOf images "LA;->f()V" =
    [(⟨0, 0⟩, ⟨0, 0x401, none⟩), (⟨1, 0⟩, ⟨0, 9, some Sample.code⟩)] := by
  simp [Image.declarationsOf, Image.declares, images, image, container, classDef, classData,
    ClassDef.methods, ClassData.methods, Sample.image, Sample.container, Sample.classDef,
    Sample.classData, spelled]

theorem listed : ∃ graph m,
    (Package.ofImages inputs {}).outcome = .ok ⟨images.toArray, graph, []⟩ ∧
      m ∈ graph.methods.arena ∧ m.fullName = "LA;->f()V" := by
  obtain ⟨graph, opened⟩ := opened
  have member : image ∈ images.toArray.toList := List.mem_cons_self
  have defined : classDef ∈ image.container.classDefs := Array.mem_singleton.mpr rfl
  obtain ⟨m, present, named⟩ := Package.exists_declared opened member defined
    (List.mem_singleton.mpr rfl : (⟨0, 0x401, none⟩ : EncodedMethod) ∈ classDef.methods)
  exact ⟨graph, m, opened, present, (Option.some.inj (spelled.symm.trans named)).symm⟩

end AbstractSample

namespace Package

theorem external_iff_first_uncoded_sample :
    ∃ package m, (ofImages AbstractSample.inputs {}).outcome = .ok package ∧
      m ∈ package.graph.methods.arena ∧
      Image.firstCode? package.images.toList m.fullName = none ∧ m.external = true ∧
      ¬ (m.external = true ↔ ¬ Image.HoldCode package.images.toList m.fullName) := by
  obtain ⟨graph, m, opened, present, named⟩ := AbstractSample.listed
  obtain ⟨flag, exactly⟩ := (external_iff_first_uncoded opened).1 m present
  have first : Image.firstCode? AbstractSample.images m.fullName = none := by
    simp [Image.firstCode?, named, AbstractSample.declarations]
  have held : Image.HoldCode AbstractSample.images m.fullName := by
    simp [Image.holdCode_iff, named, AbstractSample.declarations]
  refine ⟨_, m, opened, present, first, ?_, ?_⟩
  · rw [flag]
    simp [first]
  · rw [exactly]
    simp [first, held]

/-- A method is marked as external, and one of the images holds its code. -/
theorem external_with_code :
    ∃ package m, (ofImages AbstractSample.inputs {}).outcome = .ok package ∧
      m ∈ package.graph.methods.arena ∧ m.external = true ∧
      Image.HoldCode package.images.toList m.fullName := by
  obtain ⟨graph, m, opened, present, named⟩ := AbstractSample.listed
  have flag := (Graph.method_declared (ofImages_ok opened).2 present).2
  refine ⟨_, m, opened, present, ?_, ?_⟩
  · rw [flag, named]
    simp [AbstractSample.declarations]
  · rw [named, Image.holdCode_iff]
    simp [AbstractSample.declarations]

end Package

end DexAtlas
