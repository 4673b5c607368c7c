import DexAtlas.Container.Layout
import DexAtlas.Package.Basic
import DexAtlas.Proofs.Ranges
import DexAtlas.Proofs.References

/-!
# Loaded images

What is known of an image because it was loaded: its container is sound, and each decoded body
belongs to a method that has code and holds references to the pools of that image. The images of a
package are loaded ones, numbered by their position.
-/
namespace DexAtlas

namespace Image

/-- What every loaded image satisfies. -/
structure Sound (image : Image) : Prop where
  container : image.container.Sound
  coded : ∀ {id body}, image.body? id = some body →
    ∃ method ∈ entries image.container, method.id = id ∧ method.code.isSome = true
  decoded : ∀ {id body}, image.body? id = some body →
    ∃ code, Instruction.decode image.container.version image.container.pools.resolve code = .ok body

theorem mem_entries {container : Container} {method : EncodedMethod} :
    method ∈ entries container ↔ ∃ classDef ∈ container.classDefs, method ∈ classDef.methods := by
  simp [entries]

private theorem mem_codedIds_from {id : Nat} (list : List EncodedMethod) (ids : Std.HashSet Nat) :
    id ∈ list.foldl (fun ids method =>
      if method.code.isSome then ids.insert method.id else ids) ids ↔
    id ∈ ids ∨ ∃ method ∈ list, method.id = id ∧ method.code.isSome = true := by
  induction list generalizing ids with
  | nil => simp
  | cons method rest ih =>
    rw [List.foldl_cons, ih]
    split
    next coded => simp [coded, or_assoc, or_left_comm]
    next uncoded => simp [uncoded]

theorem mem_codedIds {container : Container} {id : Nat} : id ∈ codedIds container ↔
    ∃ method ∈ entries container, method.id = id ∧ method.code.isSome = true := by
  rw [codedIds, mem_codedIds_from]
  simp

theorem decodeBody_ok {container : Container} {declared : Std.HashMap Nat EncodedMethod} {id : Nat}
    {body : Array Instruction} (decoded : decodeBody container declared id = .ok body) :
    ∃ item, declared[id]?.bind EncodedMethod.code = some item ∧
      container.disassemble item = .ok body := by
  unfold decodeBody at decoded
  split at decoded
  · cases decoded
  next item found =>
    split at decoded
    next insns result =>
      obtain rfl := Except.ok.inj decoded
      exact ⟨item, found, result⟩
    next => cases decoded

/-- Bodies are decoded for ids with code only, and for all of those among the entries passed. -/
private theorem decodeBodies_from {container : Container}
    {declared : Std.HashMap Nat EncodedMethod} (list : List EncodedMethod)
    (bodies result : Std.HashMap Nat (Array Instruction))
    (ran : list.foldlM (fun bodies method => do
      if (codedIds container).contains method.id && !bodies.contains method.id then
        return bodies.insert method.id (← decodeBody container declared method.id)
      else return bodies) bodies = Except.ok result)
    (before : ∀ id body, bodies[id]? = some body →
      id ∈ codedIds container ∧ decodeBody container declared id = .ok body) :
    (∀ id body, result[id]? = some body →
      id ∈ codedIds container ∧ decodeBody container declared id = .ok body) ∧
    (∀ id ∈ bodies, id ∈ result) ∧
    ∀ method ∈ list, method.id ∈ codedIds container → method.id ∈ result := by
  induction list generalizing bodies with
  | nil =>
    obtain rfl := Except.ok.inj ran
    exact ⟨before, fun _ kept => kept, by simp⟩
  | cons method rest ih =>
    rw [List.foldlM_cons] at ran
    split at ran
    next needed =>
      rw [Bool.and_eq_true, Std.HashSet.contains_iff_mem] at needed
      cases body : decodeBody container declared method.id with
      | error e => rw [body] at ran; cases ran
      | ok insns =>
        rw [body] at ran
        have extended : ∀ id found, (bodies.insert method.id insns)[id]? = some found →
            id ∈ codedIds container ∧ decodeBody container declared id = .ok found := by
          intro id found present
          rw [Std.HashMap.getElem?_insert] at present
          split at present
          next same =>
            obtain rfl := eq_of_beq same
            obtain rfl := Option.some.inj present
            exact ⟨needed.1, body⟩
          next => exact before id found present
        obtain ⟨sound, kept, complete⟩ := ih _ ran extended
        refine ⟨sound, fun id old => kept id (by simp [old]), ?_⟩
        intro other member coded
        rcases List.mem_cons.mp member with rfl | later
        · exact kept _ (by simp)
        · exact complete other later coded
    next passed =>
      obtain ⟨sound, kept, complete⟩ := ih _ ran before
      refine ⟨sound, kept, ?_⟩
      intro other member coded
      rcases List.mem_cons.mp member with rfl | later
      · -- an id with code is passed over only where it has its body already
        have present : other.id ∈ bodies := by simpa [coded] using passed
        exact kept _ present
      · exact complete other later coded

theorem decodeBodies_ok {container : Container} {declared : Std.HashMap Nat EncodedMethod}
    {bodies : Std.HashMap Nat (Array Instruction)}
    (ran : decodeBodies container declared = .ok bodies) {id : Nat} {body : Array Instruction}
    (present : bodies[id]? = some body) :
    id ∈ codedIds container ∧ decodeBody container declared id = .ok body :=
  (decodeBodies_from _ _ _ ran (by simp)).1 id body present

theorem decodeBodies_coded {container : Container} {declared : Std.HashMap Nat EncodedMethod}
    {bodies : Std.HashMap Nat (Array Instruction)}
    (ran : decodeBodies container declared = .ok bodies) {id : Nat}
    (coded : id ∈ codedIds container) : ∃ body, bodies[id]? = some body := by
  obtain ⟨method, member, rfl, -⟩ := mem_codedIds.mp coded
  have present := (decodeBodies_from _ _ _ ran (by simp)).2.2 method member coded
  exact ⟨_, Std.HashMap.getElem?_eq_some_getElem present⟩

/-- Without code there is nothing to decode. -/
theorem decodeBodies_uncoded {container : Container}
    (uncoded : ∀ method ∈ entries container, method.code = none)
    (declared : Std.HashMap Nat EncodedMethod) : decodeBodies container declared = .ok ∅ := by
  have idle : ∀ id, (codedIds container).contains id = false := by
    intro id
    rw [Bool.eq_false_iff]
    intro coded
    obtain ⟨method, member, -, some⟩ := mem_codedIds.mp (Std.HashSet.mem_iff_contains.mpr coded)
    rw [uncoded method member] at some
    cases some
  simp only [decodeBodies, idle, Bool.false_and, Bool.false_eq_true, if_false]
  generalize entries container = list
  induction list with
  | nil => rfl
  | cons method rest ih => exact ih

theorem ofContainer_ok {name : String} {index : Nat} {container : Container} {image : Image}
    (built : ofContainer name index container = .ok image) :
    ∃ bodies, decodeBodies container (indexMethods container) = .ok bodies ∧
      image = ⟨name, index, container, indexClasses container, indexMethods container, bodies⟩ := by
  simp only [ofContainer] at built
  cases ran : decodeBodies container (indexMethods container) with
  | error e => rw [ran] at built; cases built
  | ok bodies =>
    rw [ran] at built
    exact ⟨bodies, rfl, (Except.ok.inj built).symm⟩

theorem load_ofContainer {name : String} {index : Nat} {bytes : Bytes} {cancelled : Bool}
    {image : Image} (loaded : (load name index bytes cancelled).outcome = .ok image) :
    ∃ container, (Container.parse bytes cancelled).outcome = .ok container ∧
      ofContainer name index container = .ok image := by
  simp only [load] at loaded
  split at loaded
  · cases loaded
  next container parsed =>
    split at loaded
    · cases loaded
    next found built =>
      obtain rfl := Except.ok.inj loaded
      exact ⟨container, parsed, built⟩

/-- All that loading puts together. -/
theorem load_built {name : String} {index : Nat} {bytes : Bytes} {cancelled : Bool} {image : Image}
    (loaded : (load name index bytes cancelled).outcome = .ok image) :
    image.name = name ∧ image.index = index ∧
      (Container.parse bytes cancelled).outcome = .ok image.container ∧
      image.declared = indexMethods image.container ∧
      decodeBodies image.container image.declared = .ok image.bodies := by
  obtain ⟨container, parsed, built⟩ := load_ofContainer loaded
  obtain ⟨bodies, ran, rfl⟩ := ofContainer_ok built
  exact ⟨rfl, rfl, parsed, rfl, ran⟩

theorem load_ok {name : String} {index : Nat} {bytes : Bytes} {cancelled : Bool} {image : Image}
    (loaded : (load name index bytes cancelled).outcome = .ok image) :
    image.name = name ∧ image.index = index ∧ image.Sound := by
  obtain ⟨named, numbered, parsed, -, ran⟩ := load_built loaded
  refine ⟨named, numbered, Container.sound_of_parse parsed, ?_, ?_⟩
  · intro id body present
    exact mem_codedIds.mp (decodeBodies_ok ran present).1
  · intro id body present
    obtain ⟨item, -, disassembled⟩ := decodeBody_ok (decodeBodies_ok ran present).2
    unfold Container.disassemble at disassembled
    split at disassembled
    next insns swept =>
      obtain rfl := Except.ok.inj disassembled
      exact ⟨item.code, swept⟩
    next => cases disassembled

theorem load_of_parse {name : String} {index : Nat} {bytes : Bytes} {cancelled : Bool}
    {container : Container} {image : Image}
    (parsed : (Container.parse bytes cancelled).outcome = .ok container)
    (built : ofContainer name index container = .ok image) :
    (load name index bytes cancelled).outcome = .ok image := by
  simp only [load, parsed, built]

theorem load_of_unbuilt {name : String} {index : Nat} {bytes : Bytes} {cancelled : Bool}
    {container : Container} {e : Error}
    (parsed : (Container.parse bytes cancelled).outcome = .ok container)
    (unbuilt : ofContainer name index container = .error e) :
    (load name index bytes cancelled).outcome = .error e := by
  simp only [load, parsed, unbuilt]

theorem load_of_uncoded {bytes : Bytes} {cancelled : Bool} {container : Container}
    (parsed : (Container.parse bytes cancelled).outcome = .ok container)
    (uncoded : ∀ method ∈ entries container, method.code = none) (name : String) (index : Nat) :
    (load name index bytes cancelled).outcome =
      .ok ⟨name, index, container, indexClasses container, indexMethods container, ∅⟩ := by
  refine load_of_parse parsed ?_
  rw [ofContainer, decodeBodies_uncoded uncoded]
  rfl

/-- The number under which an image is loaded is stored and used for nothing else. -/
theorem load_index (name : String) (index other : Nat) (bytes : Bytes) (cancelled : Bool) :
    (load name other bytes cancelled).outcome =
      (load name index bytes cancelled).outcome.map fun image => { image with index := other } := by
  have built (container : Container) : ofContainer name other container =
      (ofContainer name index container).map fun image => { image with index := other } := by
    simp only [ofContainer]
    cases decodeBodies container (indexMethods container) <;> rfl
  simp only [load]
  cases (Container.parse bytes cancelled).outcome with
  | error e => rfl
  | ok container =>
    simp only [built]
    cases ofContainer name index container <;> rfl

/-- The image was read from some bytes under its own name and number. -/
def IsLoaded (image : Image) : Prop :=
  ∃ bytes cancelled, (load image.name image.index bytes cancelled).outcome = .ok image

/-- Loaded images, each under the number of its position. -/
def Numbered (images : List Image) : Prop :=
  ∀ (position : Nat) (image : Image), images[position]? = some image →
    image.IsLoaded ∧ image.index = position

theorem IsLoaded.sound {image : Image} (loaded : image.IsLoaded) : image.Sound := by
  obtain ⟨bytes, cancelled, outcome⟩ := loaded
  exact (load_ok outcome).2.2

/-- An image that was loaded as the first one is numbered on its own. -/
theorem numbered_singleton {name : String} {bytes : Bytes} {cancelled : Bool} {image : Image}
    (loaded : (load name 0 bytes cancelled).outcome = .ok image) : Numbered [image] := by
  intro position other found
  obtain ⟨rfl, rfl⟩ : position = 0 ∧ other = image := by
    cases position with
    | zero => exact ⟨rfl, (Option.some.inj found).symm⟩
    | succ => cases found
  obtain ⟨rfl, numbered, -⟩ := load_ok loaded
  exact ⟨⟨bytes, cancelled, by rw [numbered]; exact loaded⟩, numbered⟩

end Image

namespace Package

/-- What loading makes of an input at its position. -/
def outcomeOf (cancelled : Bool) (input : (String × Bytes) × Nat) : Except Error Image :=
  (Image.load input.1.1 input.2 input.1.2 cancelled).outcome

/-- The failure of an input that does not load. -/
def failureOf? (cancelled : Bool) (input : (String × Bytes) × Nat) : Option ImageFailure :=
  match outcomeOf cancelled input with
  | .ok _ => none
  | .error error => some ⟨input.1.1, input.2, error⟩

theorem toOption_eq_some {outcome : Except Error Image} {image : Image} :
    outcome.toOption = some image ↔ outcome = .ok image := by
  cases outcome <;> simp [Except.toOption]

private theorem loadAll_from (cancelled : Bool) (list : List ((String × Bytes) × Nat))
    (loaded : Loaded) :
    (list.foldl (fun loaded input => loaded.add cancelled input.2 input.1.1 input.1.2)
      loaded).images.toList =
        loaded.images.toList ++ list.filterMap (fun input => (outcomeOf cancelled input).toOption) ∧
    (list.foldl (fun loaded input => loaded.add cancelled input.2 input.1.1 input.1.2)
      loaded).failures.toList = loaded.failures.toList ++ list.filterMap (failureOf? cancelled) := by
  induction list generalizing loaded with
  | nil => simp
  | cons input rest ih =>
    rw [List.foldl_cons, (ih _).1, (ih _).2]
    cases outcome : outcomeOf cancelled input with
    | ok image =>
      have result : (Image.load input.1.1 input.2 input.1.2 cancelled).outcome = .ok image := outcome
      simp [Loaded.add, result, outcome, failureOf?, Except.toOption]
    | error e =>
      have result : (Image.load input.1.1 input.2 input.1.2 cancelled).outcome = .error e := outcome
      simp [Loaded.add, result, outcome, failureOf?, Except.toOption]

/-- The images are those of the inputs that load, numbered anew. -/
theorem loadAll_images (cancelled : Bool) (inputs : List (String × Bytes)) :
    (loadAll cancelled inputs).images = renumber (inputs.zipIdx.filterMap fun input =>
      (outcomeOf cancelled input).toOption).toArray := by
  rw [← List.nil_append (List.filterMap _ _)]
  exact congrArg (fun images => renumber images.toArray) (loadAll_from cancelled inputs.zipIdx {}).1

theorem loadAll_failures (cancelled : Bool) (inputs : List (String × Bytes)) :
    (loadAll cancelled inputs).failures.toList =
      inputs.zipIdx.filterMap (failureOf? cancelled) :=
  (loadAll_from cancelled inputs.zipIdx {}).2

theorem getElem?_renumber (images : Array Image) (place : Nat) :
    (renumber images)[place]? = images[place]?.map fun image => { image with index := place } := by
  simp [renumber]

theorem loadAll_numbered (cancelled : Bool) (inputs : List (String × Bytes)) :
    Image.Numbered (loadAll cancelled inputs).images.toList := by
  intro place image found
  rw [loadAll_images, Array.getElem?_toList, getElem?_renumber] at found
  obtain ⟨old, there, rfl⟩ := Option.map_eq_some_iff.mp found
  -- the image was loaded under its position in the input, and would be the same under any other
  have listed := Array.mem_of_getElem? there
  simp only [List.mem_toArray, List.mem_filterMap] at listed
  obtain ⟨⟨⟨name, bytes⟩, position⟩, -, loads⟩ := listed
  have loaded : (Image.load name position bytes cancelled).outcome = .ok old :=
    toOption_eq_some.mp loads
  obtain ⟨rfl, -, -⟩ := Image.load_ok loaded
  refine ⟨⟨bytes, cancelled, ?_⟩, rfl⟩
  rw [Image.load_index old.name position place, loaded]
  rfl

theorem Loaded.running {loaded : Loaded} {options : Options}
    (running : ¬loaded.isCancelled options = true) : options.cancelled = false := by
  simp only [isCancelled, Bool.or_eq_true, not_or] at running
  exact eq_false_of_ne_true running.1

/-- An opened package is made of loaded images and of the graph built over them. -/
theorem ofImages_ok {inputs : List (String × Bytes)} {options : Options} {package : Package}
    (opened : (ofImages inputs options).outcome = .ok package) :
    Image.Numbered package.images.toList ∧
      (Graph.build false options.keepUses package.images.toList).outcome = .ok package.graph := by
  simp only [ofImages] at opened
  split at opened
  · cases opened
  next running =>
    split at opened
    · cases opened
    · split at opened
      · cases opened
      next graph built =>
        obtain rfl := Except.ok.inj opened
        exact ⟨loadAll_numbered _ _, Loaded.running running ▸ built⟩

/-- Images that were loaded under their places keep their numbers. -/
theorem renumber_eq {images : Array Image}
    (numbered : ∀ (place : Nat) (image : Image), images[place]? = some image → image.index = place) :
    renumber images = images := by
  apply Array.ext_getElem?
  intro place
  rw [getElem?_renumber]
  cases found : images[place]? with
  | none => rfl
  | some image => rw [Option.map_some, ← numbered place image found]

/-- Inputs that all load make a package of their images. -/
theorem ofImages_loaded {inputs : List (String × Bytes)} {images : List Image} {keepUses : Bool}
    {graph : Graph} (loaded : inputs.zipIdx.map (outcomeOf false) = images.map .ok)
    (built : (Graph.build false keepUses images).outcome = .ok graph) :
    (ofImages inputs { keepUses }).outcome = .ok ⟨images.toArray, graph, []⟩ := by
  have good : inputs.zipIdx.filterMap (fun input => (outcomeOf false input).toOption) = images := by
    have mapped := congrArg (List.filterMap Except.toOption) loaded
    rw [List.filterMap_map, List.filterMap_map] at mapped
    exact mapped.trans (List.filterMap_some ..)
  have bad : inputs.zipIdx.filterMap (failureOf? false) = [] := by
    rw [List.filterMap_eq_nil_iff]
    intro input listed
    have outcome := List.mem_map_of_mem (f := outcomeOf false) listed
    rw [loaded] at outcome
    obtain ⟨image, -, same⟩ := List.mem_map.mp outcome
    rw [failureOf?, ← same]
  have numbered : ∀ (place : Nat) (image : Image),
      images.toArray[place]? = some image → image.index = place := by
    intro place image found
    have outcome := congrArg (fun outcomes => outcomes[place]?) loaded
    rw [List.getElem?_toArray] at found
    simp only [List.getElem?_map, found, List.getElem?_zipIdx, Option.map_map] at outcome
    obtain ⟨input, -, result⟩ := Option.map_eq_some_iff.mp outcome
    simpa using (Image.load_ok result).2.1
  have images : (loadAll false inputs).images = images.toArray := by
    rw [loadAll_images, good, renumber_eq numbered]
  have failures : (loadAll false inputs).failures = #[] := by
    rw [← Array.toList_eq_nil_iff, loadAll_failures, bad]
  simp [ofImages, Loaded.isCancelled, images, failures, built]

theorem ofImages_single {name : String} {bytes : Bytes} {image : Image} {keepUses : Bool}
    {graph : Graph} (loaded : (Image.load name 0 bytes false).outcome = .ok image)
    (built : (Graph.build false keepUses [image]).outcome = .ok graph) :
    (ofImages [(name, bytes)] { keepUses }).outcome = .ok ⟨#[image], graph, []⟩ :=
  ofImages_loaded (congrArg (fun outcome => [outcome]) loaded) built

theorem ofImages_pair {name other : String} {bytes more : Bytes} {first second : Image}
    {keepUses : Bool} {graph : Graph}
    (loaded : (Image.load name 0 bytes false).outcome = .ok first)
    (alsoLoaded : (Image.load other 1 more false).outcome = .ok second)
    (built : (Graph.build false keepUses [first, second]).outcome = .ok graph) :
    (ofImages [(name, bytes), (other, more)] { keepUses }).outcome =
      .ok ⟨#[first, second], graph, []⟩ := by
  have outcomes : [(name, bytes), (other, more)].zipIdx.map (outcomeOf false) =
      [first, second].map .ok := by
    simp [outcomeOf, loaded, alsoLoaded]
  exact ofImages_loaded outcomes built

end Package

/-! ### Images by evaluation -/

/-- A run whose result can be compared by evaluation. -/
theorem Reader.ok_of_check {α : Type} [DecidableEq α] {run : EStateM.Result Error Cursor α} {a : α}
    (check : (match run with
      | .ok b _ => decide (b = a)
      | .error .. => false) = true) : ∃ cursor, run = .ok a cursor := by
  split at check
  next b cursor =>
    obtain rfl := of_decide_eq_true check
    exact ⟨cursor, rfl⟩
  next => cases check

namespace Container

/-- Definitions one after another, unchecked. -/
def readDefs (sizes : PoolSizes) : Nat → Reader (List ClassDef)
  | 0 => pure []
  | left + 1 => do
    let classDef ← ClassDef.read sizes
    let rest ← readDefs sizes left
    return classDef :: rest

/-- The header, the pools and a number of definitions, unchecked. -/
def readUnchecked (count : Nat) : Reader (Header × Pools × List ClassDef) := do
  let header ← Header.read
  let pools ← Tables.pools header
  Tables.enter "class_defs" 32 header.classDefs
  let classDefs ← readDefs pools.sizes count
  return (header, pools, classDefs)

/-- Each definition passes its check beside those before it. -/
def Accepts (pools : Pools) : Std.HashSet Nat → Nat → List ClassDef → Prop
  | _, _, [] => True
  | seen, position, classDef :: rest =>
    checkDef pools seen position classDef = .ok () ∧
      Accepts pools (seen.insert classDef.type) (position + 1) rest

theorem classDefsFrom_of_readDefs {pools : Pools} {bytes : Bytes} {left : Nat}
    {seen : Std.HashSet Nat} {done : Array ClassDef} {classDefs : List ClassDef}
    {before after : Cursor} (ran : readDefs pools.sizes left bytes before = .ok classDefs after)
    (accepts : Accepts pools seen done.size classDefs) :
    classDefsFrom false pools left seen done bytes before = .ok (done ++ classDefs.toArray) after := by
  induction left generalizing seen done classDefs before with
  | zero =>
    cases ran
    simp only [Array.append_empty]
    rfl
  | succ left ih =>
    obtain ⟨classDef, middle, read, ran⟩ := Reader.bind_ok ran
    obtain ⟨rest, _, others, returned⟩ := Reader.bind_ok ran
    cases returned
    have running : Reader.ensure (false = false) .cancelled bytes before = .ok () before := rfl
    have within : Reader.within (.classDef done.size (pools.typeDescriptor? done.size))
        (ClassDef.read pools.sizes) bytes before = .ok classDef middle := by
      rw [Reader.within, read]
    have pushed : Accepts pools (seen.insert classDef.type) (done.push classDef).size rest := by
      rw [Array.size_push]
      exact accepts.2
    rw [classDefsFrom, Reader.bind_of_ok running, Reader.bind_of_ok within]
    simp only [accepts.1, ih others pushed]
    simp

theorem parse_of_readUnchecked {bytes : Bytes} {header : Header} {pools : Pools}
    {classDefs : List ClassDef}
    (ran : ∃ cursor, readUnchecked header.classDefs.size bytes ⟨0, #[]⟩ =
      .ok (header, pools, classDefs) cursor)
    (accepts : Accepts pools ∅ 0 classDefs) :
    (parse bytes false).outcome = .ok ⟨header, pools, classDefs.toArray, bytes⟩ := by
  obtain ⟨d, ran⟩ := ran
  obtain ⟨_, a, headerRead, ran⟩ := Reader.bind_ok ran
  obtain ⟨_, b, poolsRead, ran⟩ := Reader.bind_ok ran
  obtain ⟨⟨⟩, c, entered, ran⟩ := Reader.bind_ok ran
  obtain ⟨_, _, defsRead, ran⟩ := Reader.bind_ok ran
  cases ran
  have checked : classDefsFrom false pools header.classDefs.size ∅ #[] bytes c =
      .ok classDefs.toArray d := by
    rw [classDefsFrom_of_readDefs defsRead (show Accepts pools ∅ (#[] : Array ClassDef).size _ from
      accepts), Array.empty_append]
  rw [parse, Reader.runAt, read, Reader.bind_of_ok headerRead, Reader.bind_of_ok poolsRead,
    Reader.bind_of_ok entered, Reader.bind_of_ok checked]
  rfl

end Container

/-! ### A small image

One class with a field and a method. The code of the method loads a string, makes an instance of
the class, reads the field and calls the method itself. -/

namespace Sample

def pools : Pools where
  strings := #["LA;", "V", "f"]
  types := #[0, 1]
  protos := #[⟨1, 1, []⟩]
  fields := #[⟨0, 0, 2⟩]
  methods := #[⟨0, 0, 2⟩]

def code : CodeItem where
  offset := 213
  registers := 1
  ins := 0
  outs := 0
  debugInfo := none
  code := [0x001a, 2, 0x0022, 0, 0x0062, 0, 0x0071, 0, 0, 0x000e]
  tries := []
  handlers := []

def classData : ClassData where
  staticFields := [⟨0, 9⟩]
  instanceFields := []
  directMethods := [⟨0, 9, some code⟩]
  virtualMethods := []

def classDef : ClassDef where
  type := 0
  access := 1
  superclass := none
  interfaces := []
  sourceFile := none
  annotationsOffset := 0
  staticValuesOffset := 0
  data := some classData

def header : Header := Layout.header 35 pools [classDef] 11

/-- The pools and the definition as they are written, with class data and code behind them; the
offset of the class data is put into the definition. -/
def bytes : Bytes :=
  ((Layout.image 35 pools [classDef]).set 184 203 ++ classData.bytes ++ code.bytes).toArray

def container : Container := ⟨header, pools, #[classDef], bytes⟩

def body : Array Instruction :=
  (Instruction.decode 35 pools.resolve code.code).toOption.getD #[]

def image : Image where
  name := "classes.dex"
  index := 0
  container := container
  classesByName := Image.indexClasses container
  declared := Image.indexMethods container
  bodies := (∅ : Std.HashMap Nat (Array Instruction)).insert 0 body

theorem parsed : (Container.parse bytes false).outcome = .ok container := by
  have ran : ∃ cursor, Container.readUnchecked 1 bytes ⟨0, #[]⟩ =
      .ok (header, pools, [classDef]) cursor :=
    Reader.ok_of_check (by decide +kernel)
  -- look-ups in a set do not evaluate, so the one that is made is rewritten
  have accepted : Container.checkDef pools ∅ 0 classDef = .ok () := by
    simp only [Container.checkDef, Std.HashSet.contains_empty]
    rfl
  exact Container.parse_of_readUnchecked ran ⟨accepted, trivial⟩

theorem decoded : Instruction.decode 35 pools.resolve code.code = .ok body := by
  have good : (Instruction.decode 35 pools.resolve code.code).toBool = true := by decide +kernel
  unfold body
  cases run : Instruction.decode 35 pools.resolve code.code with
  | ok insns => rfl
  | error e => rw [run] at good; cases good

theorem entries : Image.entries container = [⟨0, 9, some code⟩] := rfl

private theorem body_decoded :
    Image.decodeBody container (Image.indexMethods container) 0 = .ok body := by
  have found : (Image.indexMethods container)[0]? = some ⟨0, 9, some code⟩ := by
    simp [Image.indexMethods, entries]
  have version : container.version = 35 := by decide +kernel
  have answer : Instruction.decode 35 container.pools.resolve code.code = .ok body := decoded
  have disassembled : container.disassemble code = .ok body := by
    rw [Container.disassemble, version, answer]
  simp only [Image.decodeBody, found, Option.bind_some, disassembled]

private theorem built (name : String) (index : Nat) :
    Image.ofContainer name index container = .ok { image with name, index } := by
  have coded : Image.codedIds container = (∅ : Std.HashSet Nat).insert 0 := by
    simp [Image.codedIds, entries]
  have needed : (((∅ : Std.HashSet Nat).insert 0).contains 0 &&
      !(∅ : Std.HashMap Nat (Array Instruction)).contains 0) = true := by
    simp
  have bodies : Image.decodeBodies container (Image.indexMethods container) =
      .ok ((∅ : Std.HashMap Nat (Array Instruction)).insert 0 body) := by
    rw [Image.decodeBodies, coded, entries, List.foldlM_cons, if_pos needed, body_decoded]
    rfl
  rw [Image.ofContainer, bodies]
  rfl

theorem loadedAs (name : String) (index : Nat) :
    (Image.load name index bytes false).outcome = .ok { image with name, index } :=
  Image.load_of_parse parsed (built name index)

theorem loaded : (Image.load "classes.dex" 0 bytes false).outcome = .ok image :=
  loadedAs "classes.dex" 0

theorem numbered : Image.Numbered [image] :=
  Image.numbered_singleton loaded

end Sample

end DexAtlas
