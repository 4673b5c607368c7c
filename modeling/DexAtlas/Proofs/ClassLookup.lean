import DexAtlas.Proofs.Definitions
import DexAtlas.Proofs.Descriptors
import DexAtlas.Proofs.RoundTrip

/-!
# Looking up classes

A class is known in the graph by its descriptor as it stands, while a look-up first brings its
argument into the form `L…;`. Both agree on the descriptors that have this form. A name with dots is
never taken for such a descriptor, and leads to the class that it names unless the descriptor of the
class has a dot itself. An image may spell one descriptor under two type ids and so define a class
twice. The graph then keeps the first of these definitions as the origin of the class, and the index
of the image leads to the last.
-/
namespace DexAtlas

/-! ### Descriptors of classes -/

namespace Descriptor

theorem canonicalClass_descriptor (path : ClassName) :
    canonicalClass path.descriptor = path.descriptor := by
  have letters : path.descriptor.toList = 'L' :: (path.path.toList ++ [';']) := by
    simp [ClassName.descriptor, String.toList_append]
  rw [canonicalClass, letters, if_pos]
  constructor
  · rfl
  · rw [← List.cons_append, List.getLast?_concat]

/-- The canonical form is always the descriptor of a class. -/
theorem exists_canonicalClass (name : String) :
    ∃ path : ClassName, canonicalClass name = path.descriptor := by
  unfold canonicalClass
  split
  next form =>
    obtain ⟨rest, first⟩ := List.head?_eq_some_iff.mp form.1
    obtain ⟨front, last⟩ := List.getLast?_eq_some_iff.mp form.2
    cases front with
    | nil => simp [last] at first
    | cons letter path =>
      -- the first letter and the last one are not the same
      obtain rfl : letter = 'L' := by simpa [last] using congrArg List.head? first
      refine ⟨⟨String.ofList path⟩, String.toList_inj.mp ?_⟩
      simp [ClassName.descriptor, last]
  next => exact ⟨_, rfl⟩

theorem canonicalClass_eq_self_iff (name : String) :
    canonicalClass name = name ↔ ∃ path : ClassName, name = path.descriptor := by
  constructor
  · intro same
    obtain ⟨path, form⟩ := exists_canonicalClass name
    exact ⟨path, same.symm.trans form⟩
  · rintro ⟨path, rfl⟩
    exact canonicalClass_descriptor path

end Descriptor

/-! ### Names with dots -/

theorem ClassName.ofDescriptor?_eq_some_iff {text : String} {path : ClassName} :
    ofDescriptor? text = some path ↔ path.WellFormed ∧ path.descriptor = text := by
  have object : ofDescriptor? text = some path ↔
      JavaType.ofDescriptor? text = some (.object path) := by
    unfold ofDescriptor?
    split
    next name accepted => simp [accepted]
    next other => exact iff_of_false (by simp) (other path)
  rw [object]
  exact JavaType.ofDescriptor?_eq_some_iff

/-- Slashes that became dots come back as slashes, and so does every other dot. -/
theorem ClassName.ofJava_java (path : ClassName) : ofJava path.java = ofJava path.path := by
  simp only [ofJava, java, String.toList_ofList, List.map_map]
  congr 2
  refine List.map_congr_left fun c _ => ?_
  by_cases slash : c = '/' <;> simp [slash]

theorem ClassName.ofJava_path_eq_iff (path : ClassName) :
    ofJava path.path = path ↔ '.' ∉ path.path.toList := by
  have kept : (path.path.toList.map fun c => if c = '.' then '/' else c) = path.path.toList ↔
      ∀ c ∈ path.path.toList, (if c = '.' then '/' else c) = c := by
    simpa using List.map_inj_left (f := fun c => if c = '.' then '/' else c) (g := id)
  rw [ofJava, ClassName.mk.injEq, ← String.toList_inj, String.toList_ofList, kept]
  constructor
  · intro same dot
    exact absurd (same '.' dot) (by decide)
  · intro noDot c member
    have other : c ≠ '.' := fun dot => noDot (dot ▸ member)
    exact if_neg other

theorem ClassName.descriptor_inj {path other : ClassName} :
    path.descriptor = other.descriptor ↔ path = other := by
  constructor
  · intro same
    have letters := congrArg String.toList same
    rw [← JavaType.descriptor, ← JavaType.descriptor, JavaType.toList_descriptor_object,
      JavaType.toList_descriptor_object, List.cons.injEq] at letters
    have paths := List.append_cancel_right letters.2
    rw [String.toList_inj] at paths
    exact congrArg ClassName.mk paths
  · rintro rfl
    rfl

namespace Descriptor

theorem canonicalClass_idem (name : String) :
    canonicalClass (canonicalClass name) = canonicalClass name := by
  obtain ⟨path, form⟩ := exists_canonicalClass name
  rw [form, canonicalClass_descriptor]

/-- A name with dots is not taken for a descriptor, even if it begins with the letter of one: no
name holds a semicolon. -/
theorem canonicalClass_java {path : ClassName} (formed : path.WellFormed) :
    canonicalClass path.java = (ClassName.ofJava path.path).descriptor := by
  rw [canonicalClass, if_neg, ClassName.ofJava_java]
  rintro ⟨-, last⟩
  have semicolon : ';' ∈ path.java.toList := List.mem_of_getLast? last
  rw [ClassName.java, String.toList_ofList, List.mem_map] at semicolon
  obtain ⟨c, member, same⟩ := semicolon
  split at same
  · cases same
  · exact (formed.2 c member).1 same

end Descriptor

theorem ClassEntity.javaName_of_accepted {c : ClassEntity} {path : ClassName}
    (accepted : ClassName.ofDescriptor? c.name = some path) : c.javaName = path.java := by
  rw [javaName, accepted]

/-- Both spellings of a class lead to its descriptor just if this has no dot. -/
theorem ClassEntity.canonicalClass_javaName_iff {c : ClassEntity} {path : ClassName}
    (accepted : ClassName.ofDescriptor? c.name = some path) :
    Descriptor.canonicalClass c.javaName = c.name ↔ '.' ∉ c.name.toList := by
  obtain ⟨formed, spelled⟩ := ClassName.ofDescriptor?_eq_some_iff.mp accepted
  have dots : '.' ∈ path.descriptor.toList ↔ '.' ∈ path.path.toList := by
    rw [← JavaType.descriptor, JavaType.toList_descriptor_object]
    simp
  rw [javaName_of_accepted accepted, ← spelled, dots, Descriptor.canonicalClass_java formed,
    ClassName.descriptor_inj, ClassName.ofJava_path_eq_iff]

/-! ### Definitions of one image -/

namespace Image

variable {image : Image} {name : String}

theorem mem_definitionsIn {o : Origin} :
    o ∈ image.definitionsIn name ↔
      o.image = image.index ∧ image.className? o.position = some name := by
  simp only [definitionsIn, List.mem_map, List.mem_filter, mem_definitions, decide_eq_true_eq]
  constructor
  · rintro ⟨d, ⟨⟨classDef, found, defined⟩, rfl⟩, rfl⟩
    refine ⟨congrArg Origin.image (origin_of_definition? defined), ?_⟩
    rw [className?, found, Option.bind_some, name_of_definition? defined]
  · rintro ⟨own, named⟩
    obtain ⟨classDef, found, named⟩ := Option.bind_eq_some_iff.mp named
    obtain ⟨d, defined, rfl, origin⟩ := exists_definition? named o.position
    have same : d.origin = o := by rw [origin, ← own]
    exact ⟨d, ⟨⟨classDef, by rwa [same], by rwa [same]⟩, rfl⟩, same⟩

/-- Definitions come in the order of their positions. -/
theorem definitionsIn_increase (image : Image) (name : String) :
    (image.definitionsIn name).Pairwise fun a b => a.position < b.position := by
  have ordered : (image.definitionsIn name).Pairwise Origin.Before := by
    rw [definitionsIn, List.pairwise_map]
    exact (definitions_ordered image).sublist List.filter_sublist
  apply ordered.imp_of_mem
  rintro a b listed listedToo (earlier | ⟨-, before⟩)
  · -- both are in this image
    rw [(mem_definitionsIn.mp listed).1, (mem_definitionsIn.mp listedToo).1] at earlier
    exact absurd earlier (Nat.lt_irrefl _)
  · exact before

/-- The first definition is the one at the lowest position. -/
theorem position_of_head? {o : Origin} (first : (image.definitionsIn name).head? = some o) :
    image.className? o.position = some name ∧
      ∀ position, image.className? position = some name → o.position ≤ position := by
  obtain ⟨rest, split⟩ := List.head?_eq_some_iff.mp first
  have increase := definitionsIn_increase image name
  rw [split, List.pairwise_cons] at increase
  constructor
  · exact (mem_definitionsIn.mp (List.mem_of_head? first)).2
  · intro position named
    have listed : ⟨image.index, position⟩ ∈ image.definitionsIn name :=
      mem_definitionsIn.mpr ⟨rfl, named⟩
    rw [split] at listed
    rcases List.mem_cons.mp listed with rfl | later
    · exact Nat.le_refl _
    · exact Nat.le_of_lt (increase.1 _ later)

/-- The last definition is the one at the highest position. -/
theorem position_of_getLast? {o : Origin} (last : (image.definitionsIn name).getLast? = some o) :
    image.className? o.position = some name ∧
      ∀ position, image.className? position = some name → position ≤ o.position := by
  obtain ⟨front, split⟩ := List.getLast?_eq_some_iff.mp last
  have increase := definitionsIn_increase image name
  rw [split, List.pairwise_append] at increase
  constructor
  · exact (mem_definitionsIn.mp (List.mem_of_getLast? last)).2
  · intro position named
    have listed : ⟨image.index, position⟩ ∈ image.definitionsIn name :=
      mem_definitionsIn.mpr ⟨rfl, named⟩
    rw [split] at listed
    rcases List.mem_append.mp listed with earlier | equal
    · exact Nat.le_of_lt (increase.2.2 _ earlier o (List.mem_singleton.mpr rfl))
    · obtain rfl := List.mem_singleton.mp equal
      exact Nat.le_refl _

/-- The index leads to the last definition of a name, or to what it held before. -/
private theorem indexClasses_from (image : Image) (name : String) (list : List (ClassDef × Nat))
    (index : Std.HashMap String Nat) :
    (list.foldl (fun index (classDef, position) =>
      match image.container.className? classDef with
      | some name => index.insert name position
      | none => index) index)[name]? =
    (((list.flatMap fun entry => (image.definition? entry.2 entry.1).toList).filter
      (·.name = name)).getLast?.map (·.origin.position)).or index[name]? := by
  induction list generalizing index with
  | nil => simp
  | cons entry rest ih =>
    -- a later definition hides what this entry puts into the index
    rw [List.foldl_cons, ih, List.flatMap_cons, List.filter_append, List.getLast?_append]
    generalize ((rest.flatMap fun entry => (image.definition? entry.2 entry.1).toList).filter
      (·.name = name)).getLast? = later
    obtain ⟨classDef, position⟩ := entry
    cases named : image.container.className? classDef with
    | none => simp [definition?, named]
    | some own =>
      by_cases same : own = name
      · cases later <;> simp [definition?, named, same]
      · simp [definition?, named, same, Std.HashMap.getElem?_insert]

theorem indexClasses_last (image : Image) (name : String) :
    (indexClasses image.container)[name]? =
      (image.definitionsIn name).getLast?.map Origin.position := by
  have last := indexClasses_from image name image.container.classDefs.toList.zipIdx ∅
  rw [Std.HashMap.getElem?_empty, Option.or_none] at last
  rw [definitionsIn, List.getLast?_map, Option.map_map]
  exact last

/-- The index of a loaded image. -/
theorem IsLoaded.classesByName (loaded : image.IsLoaded) :
    image.classesByName = indexClasses image.container := by
  obtain ⟨bytes, cancelled, loaded⟩ := loaded
  obtain ⟨container, -, built⟩ := load_ofContainer loaded
  obtain ⟨bodies, -, made⟩ := ofContainer_ok built
  rw [made]

/-- No class definition occurs at two positions. -/
theorem Sound.classDef?_inj (sound : image.Sound) {a b : Nat} {classDef : ClassDef}
    (first : image.classDef? a = some classDef) (second : image.classDef? b = some classDef) :
    a = b := by
  have inOrder : ∀ {i j : Nat}, image.classDef? i = some classDef →
      image.classDef? j = some classDef → ¬ i < j := by
    intro i j atI atJ before
    obtain ⟨insideI, isI⟩ := List.getElem?_eq_some_iff.mp (Array.getElem?_toList.trans atI)
    obtain ⟨insideJ, isJ⟩ := List.getElem?_eq_some_iff.mp (Array.getElem?_toList.trans atJ)
    have apart := List.pairwise_iff_getElem.mp sound.container.classDefs.distinct i j insideI insideJ
      before
    rw [isI, isJ] at apart
    exact apart rfl
  exact Nat.le_antisymm (Nat.not_lt.mp (inOrder second first)) (Nat.not_lt.mp (inOrder first second))

end Image

namespace Package

variable {inputs : List (String × Bytes)} {options : Options} {package : Package}

/-! ### By name and by record -/

/-- The name of a definition and its record lead to one class. -/
theorem class_defined (opened : (ofImages inputs options).outcome = .ok package) {place : Nat}
    {image : Image} (there : package.images[place]? = some image) {position : Nat}
    {classDef : ClassDef} (defined : image.classDef? position = some classDef) {name : String}
    (named : image.className? position = some name) :
    ∃ key c, package.graph.classes.lookup? (.name name) = some key ∧
      package.graph.classes.lookup? (.record ⟨place, classDef.type⟩) = some key ∧
      package.graph.classes.get? key = some c := by
  have numbered := (ofImages_ok opened).1
  obtain ⟨formed, declared⟩ := populated_of_opened opened
  have coherent := formed.coherent .classes
  have found : package.images.toList[place]? = some image := by simpa using there
  obtain rfl := (numbered place image found).2
  obtain ⟨key, bound⟩ := (declared image (List.mem_of_getElem? found) classDef
    (Array.mem_of_getElem? defined)).type
  obtain ⟨spelled, naming, known⟩ := coherent.records bound
  -- the record is named by the pools of its own image
  rw [Image.naming_of_get? found] at naming
  rw [Image.className?, defined, Option.bind_some] at named
  obtain rfl : name = spelled := Option.some.inj (named.symm.trans naming)
  obtain ⟨c, present⟩ := (Registry.contains_iff _ _).mp (coherent.contains known)
  exact ⟨key, c, known, bound, present⟩

/-- While keys suffice, a name leads to no class but that of its canonical form. -/
theorem name_of_classNamed? (opened : (ofImages inputs options).outcome = .ok package)
    (fits : package.graph.classes.size < 2 ^ 32) {name : String} {c : ClassEntity}
    (named : package.classNamed? name = some c) : c.name = Descriptor.canonicalClass name := by
  have coherent := (populated_of_opened opened).1.coherent .classes
  obtain ⟨key, known, present⟩ := Option.bind_eq_some_iff.mp named
  obtain ⟨entity, there, own⟩ := coherent.get?_of_name fits known
  obtain rfl : c = entity := Option.some.inj (present.symm.trans there)
  exact own

/-- A class is found by a name that is the descriptor of a class, and by no other name of its own;
and a definition with such a name leads to the same class as the name. -/
theorem classNamed_finds_descriptors (opened : (ofImages inputs options).outcome = .ok package) :
    (∀ key c, package.graph.classes.get? key = some c →
      ∀ path : ClassName, c.name = path.descriptor → package.classNamed? c.name = some c) ∧
    (∀ (place : Nat) (image : Image), package.images[place]? = some image →
      ∀ position classDef, image.classDef? position = some classDef →
        ∀ path : ClassName, image.className? position = some path.descriptor →
          ∃ c, package.classNamed? path.descriptor = some c ∧
            package.classOf? place classDef = some c) ∧
    (package.graph.classes.size < 2 ^ 32 → ∀ key c, package.graph.classes.get? key = some c →
      (package.classNamed? c.name = some c ↔ ∃ path : ClassName, c.name = path.descriptor)) := by
  have coherent := (populated_of_opened opened).1.coherent .classes
  have found : ∀ key c, package.graph.classes.get? key = some c →
      ∀ path : ClassName, c.name = path.descriptor → package.classNamed? c.name = some c := by
    intro key c present path form
    have same := (Descriptor.canonicalClass_eq_self_iff c.name).mpr ⟨path, form⟩
    rw [classNamed?, same]
    exact coherent.resolve?_name present
  refine ⟨found, ?_, ?_⟩
  · intro place image there position classDef defined path named
    obtain ⟨key, c, known, bound, present⟩ := class_defined opened there defined named
    refine ⟨c, ?_, ?_⟩
    · rw [classNamed?, Descriptor.canonicalClass_descriptor]
      exact Option.bind_eq_some_iff.mpr ⟨key, known, present⟩
    · exact Option.bind_eq_some_iff.mpr ⟨key, bound, present⟩
  · intro fits key c present
    constructor
    · intro named
      have own := name_of_classNamed? opened fits named
      exact (Descriptor.canonicalClass_eq_self_iff c.name).mp own.symm
    · rintro ⟨path, form⟩
      exact found key c present path form

/-! ### By the name with dots -/

/-- A package is opened from named images or from an archive of them, in whatever format. -/
def Opened (package : Package) : Prop :=
  (∃ inputs options, (ofImages inputs options).outcome = .ok package) ∨
    ∃ (α : Type) (format : Archive.Format α) (bytes : Bytes) (options : Options),
      (ofFormat format bytes options).outcome = .ok package

/-- An archive is opened as the images in it. -/
theorem Opened.of_images (opened : package.Opened) :
    ∃ inputs options, (ofImages inputs options).outcome = .ok package := by
  rcases opened with named | ⟨α, format, bytes, options, opened⟩
  · exact named
  · unfold ofFormat at opened
    dsimp only at opened
    split at opened
    · cases opened
    next images _ => exact ⟨images, options, opened⟩

/-- A class is found by its name with dots as by its descriptor, in the package and in every image,
provided that there is no dot in the descriptor. While keys suffice, a class with a dot in its
descriptor is not found by its name with dots. The form that a name is brought into is its own. -/
theorem javaName_leads_back (opened : package.Opened) :
    (∀ key c path, package.graph.classes.get? key = some c →
      ClassName.ofDescriptor? c.name = some path → '.' ∉ c.name.toList →
      package.classNamed? c.javaName = some c ∧ package.classNamed? c.name = some c ∧
        ∀ image : Image, image.classByName? c.javaName = image.classByName? c.name) ∧
    (package.graph.classes.size < 2 ^ 32 → ∀ key c path, package.graph.classes.get? key = some c →
      ClassName.ofDescriptor? c.name = some path →
      package.classNamed? c.javaName = some c → '.' ∉ c.name.toList) ∧
    ∀ name, Descriptor.canonicalClass (Descriptor.canonicalClass name) =
      Descriptor.canonicalClass name := by
  obtain ⟨inputs, options, opened⟩ := opened.of_images
  have coherent := (populated_of_opened opened).1.coherent .classes
  refine ⟨?_, ?_, Descriptor.canonicalClass_idem⟩
  · intro key c path present accepted noDot
    have java := (ClassEntity.canonicalClass_javaName_iff accepted).mpr noDot
    obtain ⟨-, spelled⟩ := ClassName.ofDescriptor?_eq_some_iff.mp accepted
    have own : Descriptor.canonicalClass c.name = c.name :=
      (Descriptor.canonicalClass_eq_self_iff c.name).mpr ⟨path, spelled.symm⟩
    have found := coherent.resolve?_name present
    refine ⟨?_, ?_, fun image => ?_⟩
    · rw [classNamed?, java]
      exact found
    · rw [classNamed?, own]
      exact found
    · rw [Image.classByName?, Image.classByName?, java, own]
  · intro fits key c path present accepted found
    exact (ClassEntity.canonicalClass_javaName_iff accepted).mp
      (name_of_classNamed? opened fits found).symm

/-! ### The origin and the index of an image -/

/-- The origin of a class is its first definition in the first image that defines it. -/
theorem origin_first (opened : (ofImages inputs options).outcome = .ok package) {key : ClassKey}
    {c : ClassEntity} (present : package.graph.classes.get? key = some c) {o : Origin}
    (origin : c.origin? = some o) :
    ∃ image, package.images[o.image]? = some image ∧ image.IsLoaded ∧
      (image.definitionsIn c.name).head? = some o := by
  obtain ⟨numbered, built⟩ := ofImages_ok opened
  rw [Graph.origin?_eq_find? numbered built present, List.find?_flatMap] at origin
  obtain ⟨d, found, rfl⟩ := Option.map_eq_some_iff.mp origin
  obtain ⟨image, member, found⟩ := List.exists_of_findSome?_eq_some found
  have first : (image.definitionsIn c.name).head? = some d.origin := by
    rw [Image.definitionsIn, List.head?_map, List.head?_filter, found, Option.map_some]
  have own := (Image.mem_definitionsIn.mp (List.mem_of_head? first)).1
  have there := numbered.at_index member
  refine ⟨image, ?_, (numbered _ image there).1, first⟩
  rw [own]
  simpa using there

/-- The origin of a class is the first of its definitions in an image, and the look-up in that image
gives the last. So they agree exactly if there is only one. -/
theorem classByName_eq_origin_iff (opened : (ofImages inputs options).outcome = .ok package)
    {key : ClassKey} {c : ClassEntity} (present : package.graph.classes.get? key = some c)
    {o : Origin} (origin : c.origin? = some o) {path : ClassName}
    (form : c.name = path.descriptor) :
    ∃ image last, package.images[o.image]? = some image ∧
      image.className? o.position = some c.name ∧ image.className? last = some c.name ∧
      (∀ position, image.className? position = some c.name →
        o.position ≤ position ∧ position ≤ last) ∧
      image.classByName? c.name = image.classDef? last ∧
      (image.classByName? c.name = image.classDef? o.position ↔
        ∀ position, image.className? position = some c.name → position = o.position) := by
  obtain ⟨image, there, loaded, first⟩ := origin_first opened present origin
  obtain ⟨defined, lowest⟩ := Image.position_of_head? first
  obtain ⟨last, found⟩ : ∃ last, (image.definitionsIn c.name).getLast? = some last := by
    obtain ⟨rest, split⟩ := List.head?_eq_some_iff.mp first
    exact ⟨_, by rw [split, List.getLast?_cons]⟩
  obtain ⟨alsoDefined, highest⟩ := Image.position_of_getLast? found
  have same : Descriptor.canonicalClass c.name = c.name :=
    (Descriptor.canonicalClass_eq_self_iff c.name).mpr ⟨path, form⟩
  have lookedUp : image.classByName? c.name = image.classDef? last.position := by
    rw [Image.classByName?, same, loaded.classesByName, Image.indexClasses_last, found,
      Option.map_some, Option.bind_some]
  refine ⟨image, last.position, there, defined, alsoDefined,
    fun position named => ⟨lowest position named, highest position named⟩, lookedUp, ?_⟩
  rw [lookedUp]
  constructor
  · intro agree position named
    -- the definition at both ends is one, so all positions in between are one
    obtain ⟨classDef, there, -⟩ := Option.bind_eq_some_iff.mp defined
    have ends := loaded.sound.classDef?_inj (agree.trans there) there
    exact Nat.le_antisymm (ends ▸ highest position named) (lowest position named)
  · intro single
    rw [single last.position alsoDefined]

/-- What is known of the class that the only image of a package defines first. -/
theorem exists_class {name : String} {bytes : Bytes} {image : Image}
    (loaded : (Image.load name 0 bytes false).outcome = .ok image)
    (small : Image.entityBound [image] < 2 ^ 32) {classDef : ClassDef}
    (defined : image.classDef? 0 = some classDef) {descriptor : String}
    (named : image.className? 0 = some descriptor) :
    ∃ package key c, (ofImages [(name, bytes)] {}).outcome = .ok package ∧
      package.images = #[image] ∧ package.graph.classes.size < 2 ^ 32 ∧
      package.graph.classes.get? key = some c ∧ c.name = descriptor ∧
      package.classOf? 0 classDef = some c ∧
      c.origin? = (image.definitionsIn descriptor).head? := by
  have numbered := Image.numbered_singleton loaded
  obtain ⟨graph, built, -⟩ := Graph.build_populated numbered true
  have opened := ofImages_single loaded built
  have fits : graph.classes.size < 2 ^ 32 :=
    Nat.lt_of_le_of_lt (Graph.size_le_entityBound built .classes) small
  have there : (⟨#[image], graph, []⟩ : Package).images[0]? = some image := rfl
  obtain ⟨key, c, known, bound, present⟩ := class_defined opened there defined named
  have coherent := (populated_of_opened opened).1.coherent .classes
  obtain ⟨entity, there, own⟩ := coherent.get?_of_name fits known
  obtain rfl : c = entity := Option.some.inj (present.symm.trans there)
  have origin := Graph.origin?_eq_find? numbered built present
  rw [show c.name = descriptor from own, List.flatMap_singleton, ← List.head?_filter,
    ← List.head?_map] at origin
  refine ⟨_, key, c, opened, rfl, fits, present, own, ?_, ?_⟩
  · exact Option.bind_eq_some_iff.mpr ⟨key, bound, present⟩
  · exact origin

end Package

/-! ### Images that spell one descriptor

All type ids of such an image spell the same descriptor, and each of them has a definition without
class data. With the descriptor `V` and one id this is a class that has no name of a class; with two
ids it is a class that is defined twice. The descriptor `LL/a;` is that of a class whose name with
dots begins like a descriptor. -/

namespace PlainSample

def pools (text : String) (count : Nat) : Pools where
  strings := #[text]
  types := Array.replicate count 0
  protos := #[]
  fields := #[]
  methods := #[]

def classDef (type : Nat) : ClassDef := { Sample.classDef with type, data := none }

def classDefs (count : Nat) : List ClassDef := (List.range count).map classDef

/-- The data behind the tables is the text with its length and a zero. -/
def header (text : String) (count : Nat) : Header :=
  Layout.header 35 (pools text count) (classDefs count) (text.length + 2)

def bytes (text : String) (count : Nat) : Bytes :=
  (Layout.image 35 (pools text count) (classDefs count)).toArray

def container (text : String) (count : Nat) : Container :=
  ⟨header text count, pools text count, (classDefs count).toArray, bytes text count⟩

def image (text : String) (count : Nat) : Image where
  name := "classes.dex"
  index := 0
  container := container text count
  classesByName := Image.indexClasses (container text count)
  declared := Image.indexMethods (container text count)
  bodies := ∅

/-- All that can keep such an image from being laid out is its size. -/
theorem writable {text : String} {count : Nat}
    (size : (Layout.image 35 (pools text count) (classDefs count)).length < UInt32.size) :
    Layout.Writable 35 (pools text count) (classDefs count) where
  supported := by decide
  closed := ⟨by simp [pools], by simp [pools], by simp [pools], by simp [pools]⟩
  parameters := by simp [pools]
  fields := by simp [pools]
  methods := by simp [pools]
  inRange := by
    intro definition member
    obtain ⟨type, inside, rfl⟩ := List.mem_map.mp member
    have plain : (classDef type).superclass = none ∧ (classDef type).interfaces = [] ∧
        (classDef type).sourceFile = none ∧ (classDef type).data = none := ⟨rfl, rfl, rfl, rfl⟩
    refine ⟨?_, by simp [plain], by simp [plain], by simp [plain], by simp [plain]⟩
    simpa [classDef, pools, Pools.sizes] using inside
  interfaces := by simp [classDefs, classDef, Sample.classDef]
  words := by
    intro definition member
    obtain ⟨type, -, rfl⟩ := List.mem_map.mp member
    have small : 1 < UInt32.size ∧ 0 < UInt32.size := by decide
    exact ⟨small.1, small.2, small.2⟩
  bare := by simp [classDefs, classDef]
  distinct := by
    have types : (classDefs count).map ClassDef.type = List.range count := by
      rw [classDefs, List.map_map]
      exact List.map_id _
    rw [types]
    exact List.nodup_range
  size := size

theorem loaded {text : String} {count : Nat}
    (size : (Layout.image 35 (pools text count) (classDefs count)).length < UInt32.size)
    (data : Layout.dataSize (pools text count) (classDefs count) = text.length + 2) :
    (Image.load "classes.dex" 0 (bytes text count) false).outcome = .ok (image text count) := by
  have uncoded : ∀ method ∈ Image.entries (container text count), method.code = none := by
    simp [Image.mem_entries, container, classDefs, classDef, ClassDef.methods]
  have written := writable size
  have parsed : (Container.parse (bytes text count) false).outcome = .ok (container text count) := by
    rw [container, header, ← data]
    exact Container.parse_of_parts (Header.takes_read written.readable)
      (Layout.holds_image _ _ _).left (written.gives_pools _)
      (@Layout.laid 35 (pools text count) (classDefs count) 5 _ rfl) rfl written.takes_classDefs
  exact Image.load_of_uncoded parsed uncoded "classes.dex" 0

/-- The three images are measured at once, since it is the evaluation that takes time. -/
theorem sizes : ∀ sample ∈ [("V", 1), ("LA;", 2), ("LL/a;", 1)],
    (Layout.image 35 (pools sample.1 sample.2) (classDefs sample.2)).length < UInt32.size ∧
      Layout.dataSize (pools sample.1 sample.2) (classDefs sample.2) = sample.1.length + 2 := by
  decide +kernel

theorem void_loaded :
    (Image.load "classes.dex" 0 (bytes "V" 1) false).outcome = .ok (image "V" 1) := by
  obtain ⟨size, data⟩ := sizes ("V", 1) (by simp)
  exact loaded size data

theorem twin_loaded :
    (Image.load "classes.dex" 0 (bytes "LA;" 2) false).outcome = .ok (image "LA;" 2) := by
  obtain ⟨size, data⟩ := sizes ("LA;", 2) (by simp)
  exact loaded size data

theorem lettered_loaded :
    (Image.load "classes.dex" 0 (bytes "LL/a;" 1) false).outcome = .ok (image "LL/a;" 1) := by
  obtain ⟨size, data⟩ := sizes ("LL/a;", 1) (by simp)
  exact loaded size data

theorem twin_definitions : (image "LA;" 2).definitionsIn "LA;" = [⟨0, 0⟩, ⟨0, 1⟩] := by
  decide +kernel

end PlainSample

namespace Package

theorem classNamed_finds_descriptors_sample :
    ∃ package c, (ofImages [("classes.dex", Sample.bytes)] {}).outcome = .ok package ∧
      package.classNamed? "LA;" = some c ∧ package.classOf? 0 Sample.classDef = some c := by
  obtain ⟨graph, built, -⟩ := Graph.build_populated Sample.numbered true
  have opened := ofImages_single Sample.loaded built
  have there : (⟨#[Sample.image], graph, []⟩ : Package).images[0]? = some Sample.image := rfl
  have defined : Sample.image.classDef? 0 = some Sample.classDef := rfl
  obtain ⟨c, named, bound⟩ :=
    (classNamed_finds_descriptors opened).2.1 0 Sample.image there 0 Sample.classDef defined ⟨"A"⟩ rfl
  exact ⟨_, c, opened, named, bound⟩

/-- A class whose descriptor is that of no class is in the graph, and its definition leads to it;
but it is not found by its name. -/
theorem classNamed_misses_void :
    ∃ package key c,
      (ofImages [("classes.dex", PlainSample.bytes "V" 1)] {}).outcome = .ok package ∧
      package.graph.classes.get? key = some c ∧ c.name = "V" ∧
      package.classOf? 0 (PlainSample.classDef 0) = some c ∧
      package.classNamed? c.name ≠ some c := by
  have small : Image.entityBound [PlainSample.image "V" 1] < 2 ^ 32 := by decide +kernel
  have named : (PlainSample.image "V" 1).className? 0 = some "V" := by decide +kernel
  obtain ⟨package, key, c, opened, -, fits, present, own, bound, -⟩ :=
    exists_class PlainSample.void_loaded small rfl named
  refine ⟨package, key, c, opened, present, own, bound, fun found => ?_⟩
  have name := name_of_classNamed? opened fits found
  rw [own] at name
  exact absurd name (by decide +kernel)

/-- A name with dots may begin like a descriptor. -/
theorem javaName_leads_back_lettered :
    ∃ package key c, Opened package ∧ package.graph.classes.get? key = some c ∧
      c.name = "LL/a;" ∧ c.javaName = "L.a" ∧ package.classNamed? "L.a" = some c ∧
      package.classNamed? "LL/a;" = some c := by
  have small : Image.entityBound [PlainSample.image "LL/a;" 1] < 2 ^ 32 := by decide
  have named : (PlainSample.image "LL/a;" 1).className? 0 = some "LL/a;" := by decide
  obtain ⟨package, key, c, opened, -, -, present, own, -, -⟩ :=
    exists_class PlainSample.lettered_loaded small rfl named
  have accepted : ClassName.ofDescriptor? c.name = some ⟨"L/a"⟩ := by
    rw [own]
    decide
  have java : c.javaName = "L.a" :=
    (ClassEntity.javaName_of_accepted accepted).trans (by decide)
  have back := (javaName_leads_back (.inl ⟨_, _, opened⟩)).1 key c ⟨"L/a"⟩ present accepted
    (by rw [own]; decide)
  rw [java, own] at back
  exact ⟨package, key, c, .inl ⟨_, _, opened⟩, present, own, java, back.1, back.2.1⟩

theorem classByName_eq_origin_iff_sample :
    ∃ package key c, (ofImages [("classes.dex", Sample.bytes)] {}).outcome = .ok package ∧
      package.graph.classes.get? key = some c ∧ c.origin? = some ⟨0, 0⟩ ∧
      c.name = (⟨"A"⟩ : ClassName).descriptor ∧
      Sample.image.classByName? c.name = Sample.image.classDef? 0 := by
  obtain ⟨package, key, c, opened, images, -, present, own, -, origin⟩ :=
    exists_class Sample.loaded Sample.entityBound_lt rfl
      (show Sample.image.className? 0 = some (⟨"A"⟩ : ClassName).descriptor from rfl)
  have single : Sample.image.definitionsIn (⟨"A"⟩ : ClassName).descriptor = [⟨0, 0⟩] := by
    decide +kernel
  rw [single] at origin
  obtain ⟨image, last, there, -, -, -, -, agree⟩ :=
    classByName_eq_origin_iff opened present origin own
  obtain rfl : Sample.image = image := by simpa [images] using there
  refine ⟨package, key, c, opened, present, origin, own, agree.mpr fun position named => ?_⟩
  have listed : (⟨0, position⟩ : Origin) ∈ Sample.image.definitionsIn c.name :=
    Image.mem_definitionsIn.mpr ⟨rfl, named⟩
  rw [own, single] at listed
  exact congrArg Origin.position (List.mem_singleton.mp listed)

/-- A class is defined twice. Its origin is the first definition, and by its name the image gives
the second. -/
theorem classByName_misses_origin :
    ∃ package key c o image,
      (ofImages [("classes.dex", PlainSample.bytes "LA;" 2)] {}).outcome = .ok package ∧
      package.graph.classes.get? key = some c ∧ c.name = (⟨"A"⟩ : ClassName).descriptor ∧
      c.origin? = some o ∧ package.images[o.image]? = some image ∧
      image.classByName? c.name ≠ image.classDef? o.position := by
  have small : Image.entityBound [PlainSample.image "LA;" 2] < 2 ^ 32 := by decide +kernel
  have named : (PlainSample.image "LA;" 2).className? 0 = some "LA;" := by decide +kernel
  obtain ⟨package, key, c, opened, images, -, present, own, -, origin⟩ :=
    exists_class PlainSample.twin_loaded small rfl named
  rw [PlainSample.twin_definitions] at origin
  have form : c.name = (⟨"A"⟩ : ClassName).descriptor := own.trans (by decide +kernel)
  refine ⟨package, key, c, ⟨0, 0⟩, PlainSample.image "LA;" 2, opened, present, form, origin,
    by rw [images]; rfl, ?_⟩
  have last : (PlainSample.image "LA;" 2).classesByName["LA;"]? = some 1 := by
    have index := Image.indexClasses_last (PlainSample.image "LA;" 2) "LA;"
    rwa [PlainSample.twin_definitions] at index
  rw [Image.classByName?, form, Descriptor.canonicalClass_descriptor, ← form, own, last]
  decide +kernel

end Package

end DexAtlas
