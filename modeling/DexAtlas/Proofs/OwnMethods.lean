import DexAtlas.Proofs.ErrorKinds
import DexAtlas.Proofs.Loading

/-!
# Finding the methods of an image

A method id is looked up without its class. Definitions never share an id, and neither list of a
class data holds one twice, but the direct and the virtual list of one class data may both hold it.
Then the virtual entry counts and hides the direct one; if only the hidden one has code, the image is
not loaded, though nothing in it was found malformed.
-/
namespace DexAtlas

namespace Image

variable {container : Container} {classDef : ClassDef} {data : ClassData} {m : EncodedMethod}

/-! ### The entry that counts -/

private theorem indexMethods_from (list : List EncodedMethod)
    (index : Std.HashMap Nat EncodedMethod) {id : Nat} (absent : ∀ m ∈ list, m.id ≠ id) :
    (list.foldl (fun index m => index.insert m.id m) index)[id]? = index[id]? := by
  induction list generalizing index with
  | nil => rfl
  | cons m rest ih =>
    rw [List.foldl_cons, ih _ fun other later => absent other (by simp [later])]
    have differs : m.id ≠ id := absent m (by simp)
    simp [Std.HashMap.getElem?_insert, differs]

private theorem mem_of_indexMethods_from (list : List EncodedMethod)
    (index : Std.HashMap Nat EncodedMethod) {id : Nat}
    (found : (list.foldl (fun index m => index.insert m.id m) index)[id]? = some m) :
    index[id]? = some m ∨ m ∈ list ∧ m.id = id := by
  induction list generalizing index with
  | nil => exact .inl found
  | cons other rest ih =>
    rcases ih _ found with old | ⟨later, same⟩
    · rw [Std.HashMap.getElem?_insert] at old
      split at old
      next same =>
        obtain rfl := Option.some.inj old
        exact .inr ⟨by simp, eq_of_beq same⟩
      next => exact .inl old
    · exact .inr ⟨by simp [later], same⟩

theorem mem_of_indexMethods {id : Nat} (found : (indexMethods container)[id]? = some m) :
    m ∈ entries container ∧ m.id = id := by
  rcases mem_of_indexMethods_from _ _ found with none | entry
  · simp at none
  · exact entry

/-- The last entry of an id is the one that is found. -/
theorem indexMethods_last {before after : List EncodedMethod}
    (split : entries container = before ++ m :: after) (last : ∀ other ∈ after, other.id ≠ m.id) :
    (indexMethods container)[m.id]? = some m := by
  rw [indexMethods, split, List.foldl_append, List.foldl_cons, indexMethods_from after _ last]
  simp

theorem ids_differ (sound : container.Sound) {before after : List ClassDef}
    (split : container.classDefs.toList = before ++ classDef :: after) (member : m ∈ classDef.methods) :
    ∀ other ∈ after.flatMap ClassDef.methods, other.id ≠ m.id := by
  intro other listed
  obtain ⟨later, inAfter, ofLater⟩ := List.mem_flatMap.mp listed
  -- each entry belongs to the class that lists it, and no class is defined twice
  have distinct := sound.classDefs.distinct
  rw [split] at distinct
  have apart := List.rel_of_pairwise_cons (List.pairwise_append.mp distinct).2.1 inAfter
  have inDefs : classDef ∈ container.classDefs := by
    rw [← Array.mem_toList_iff, split]
    simp
  have laterInDefs : later ∈ container.classDefs := by
    rw [← Array.mem_toList_iff, split]
    simp [inAfter]
  have own := sound.classDefs.ownMembers classDef inDefs
  have ownLater := sound.classDefs.ownMembers later laterInDefs
  exact ownLater.methods_apart own apart.symm other ofLater m member

/-- Inside its own class data an entry must be the last of its id. -/
theorem indexMethods_of_split (sound : container.Sound) (defined : classDef ∈ container.classDefs)
    (given : classDef.data = some data) {before after : List EncodedMethod}
    (split : data.methods = before ++ m :: after) (last : ∀ other ∈ after, other.id ≠ m.id) :
    (indexMethods container)[m.id]? = some m := by
  obtain ⟨front, back, around⟩ := List.append_of_mem (Array.mem_toList_iff.mpr defined)
  have methods : classDef.methods = before ++ m :: after := by
    rw [ClassDef.methods, given]
    exact split
  have whole : entries container = front.flatMap ClassDef.methods ++ before ++ m ::
      (after ++ back.flatMap ClassDef.methods) := by
    rw [entries, around, List.flatMap_append, List.flatMap_cons, methods]
    simp
  apply indexMethods_last whole
  intro other listed
  rcases List.mem_append.mp listed with own | later
  · exact last other own
  · exact ids_differ sound around (by simp [methods]) other later

private theorem ne_of_after {list before after : List EncodedMethod} {size : Nat}
    (ascending : ClassData.Ascending EncodedMethod.id size list)
    (split : list = before ++ m :: after) : ∀ other ∈ after, other.id ≠ m.id := by
  intro other later
  have ordered := ascending.2
  rw [split] at ordered
  have above := List.rel_of_pairwise_cons (List.pairwise_append.mp ordered).2.1 later
  omega

theorem indexMethods_virtual (sound : container.Sound) (defined : classDef ∈ container.classDefs)
    (given : classDef.data = some data) (listed : m ∈ data.virtualMethods) :
    (indexMethods container)[m.id]? = some m := by
  obtain ⟨before, after, split⟩ := List.append_of_mem listed
  have ordered := (sound.classDefs.inRange classDef defined).data data given
  have whole : data.methods = (data.directMethods ++ before) ++ m :: after := by
    rw [ClassData.methods, split, List.append_assoc]
  exact indexMethods_of_split sound defined given whole (ne_of_after ordered.virtualMethods split)

theorem indexMethods_direct (sound : container.Sound) (defined : classDef ∈ container.classDefs)
    (given : classDef.data = some data) (listed : m ∈ data.directMethods)
    (visible : ∀ v ∈ data.virtualMethods, v.id ≠ m.id) :
    (indexMethods container)[m.id]? = some m := by
  obtain ⟨before, after, split⟩ := List.append_of_mem listed
  have ordered := (sound.classDefs.inRange classDef defined).data data given
  have whole : data.methods = before ++ m :: (after ++ data.virtualMethods) := by
    rw [ClassData.methods, split, List.append_assoc, List.cons_append]
  apply indexMethods_of_split sound defined given whole
  intro other later
  rcases List.mem_append.mp later with direct | virtual
  · exact ne_of_after ordered.directMethods split other direct
  · exact visible other virtual

/-- A direct entry is found unless another entry hides it. -/
theorem indexMethods_direct_iff (sound : container.Sound)
    (defined : classDef ∈ container.classDefs) (given : classDef.data = some data)
    (listed : m ∈ data.directMethods) :
    (indexMethods container)[m.id]? = some m ↔ ∀ v ∈ data.virtualMethods, v.id = m.id → v = m := by
  constructor
  · intro found v virtual same
    have counts := indexMethods_virtual sound defined given virtual
    rw [same, found] at counts
    exact (Option.some.inj counts).symm
  · intro alone
    by_cases hidden : ∃ v ∈ data.virtualMethods, v.id = m.id
    · obtain ⟨v, virtual, same⟩ := hidden
      obtain rfl := alone v virtual same
      exact indexMethods_virtual sound defined given virtual
    · apply indexMethods_direct sound defined given listed
      intro v virtual same
      exact hidden ⟨v, virtual, same⟩

/-! ### Why an image is not loaded -/

/-- A class data whose virtual list takes the code from a method of its direct list. -/
def HidesCode (container : Container) : Prop :=
  ∃ classDef ∈ container.classDefs, ∃ data ∈ classDef.data, ∃ d ∈ data.directMethods,
    ∃ v ∈ data.virtualMethods, v.id = d.id ∧ d.code.isSome = true ∧ v.code = none

theorem hidesCode_of_vanished (sound : container.Sound) {id : Nat} (coded : id ∈ codedIds container)
    (vanished : (indexMethods container)[id]?.bind EncodedMethod.code = none) :
    HidesCode container := by
  obtain ⟨method, member, rfl, hasCode⟩ := mem_codedIds.mp coded
  obtain ⟨classDef, defined, listed⟩ := mem_entries.mp member
  -- the entry with code is not the one that is found
  have hidden : (indexMethods container)[method.id]? ≠ some method := by
    intro found
    rw [found, Option.bind_some] at vanished
    rw [vanished] at hasCode
    cases hasCode
  unfold ClassDef.methods at listed
  split at listed
  next data given =>
    rcases List.mem_append.mp listed with direct | virtual
    · by_cases hider : ∃ v ∈ data.virtualMethods, v.id = method.id
      · obtain ⟨v, virtual, same⟩ := hider
        have found := indexMethods_virtual sound defined given virtual
        rw [← same, found, Option.bind_some] at vanished
        exact ⟨classDef, defined, data, given, method, direct, v, virtual, same, hasCode, vanished⟩
      · have found := indexMethods_direct sound defined given direct
          fun v virtual same => hider ⟨v, virtual, same⟩
        exact absurd found hidden
    · exact absurd (indexMethods_virtual sound defined given virtual) hidden
  next => cases listed

theorem decodeBodies_error {declared : Std.HashMap Nat EncodedMethod} {e : Error}
    (failed : decodeBodies container declared = .error e) :
    ∃ id ∈ codedIds container, decodeBody container declared id = .error e := by
  unfold decodeBodies at failed
  dsimp only at failed
  -- the induction is on the entries that are left, and only those: the coded ids stay the whole set
  generalize entries container = list at failed
  generalize (∅ : Std.HashMap Nat (Array Instruction)) = bodies at failed
  induction list generalizing bodies with
  | nil => cases failed
  | cons method rest ih =>
    rw [List.foldlM_cons] at failed
    split at failed
    next needed =>
      rw [Bool.and_eq_true, Std.HashSet.contains_iff_mem] at needed
      cases body : decodeBody container declared method.id with
      | error e' =>
        rw [body] at failed
        obtain rfl := Except.error.inj failed
        exact ⟨method.id, needed.1, body⟩
      | ok insns =>
        rw [body] at failed
        exact ih _ failed
    next => exact ih _ failed

/-- The entry that is found has no code, or its code cannot be decoded. -/
theorem decodeBody_error {id : Nat} {e : Error}
    (failed : decodeBody container (indexMethods container) id = .error e) :
    (indexMethods container)[id]?.bind EncodedMethod.code = none ∧ e = .of .bodyVanished ∨
      ∃ method ∈ entries container, method.id = id ∧ ∃ item, method.code = some item ∧
        ∃ cause, container.disassemble item = .error cause ∧ e = cause.within (.method id) := by
  unfold decodeBody at failed
  split at failed
  next vanished => exact .inl ⟨vanished, (Except.error.inj failed).symm⟩
  next item found =>
    obtain ⟨method, declared, code⟩ := Option.bind_eq_some_iff.mp found
    obtain ⟨member, same⟩ := mem_of_indexMethods declared
    split at failed
    next => cases failed
    next cause refused =>
      exact .inr ⟨method, member, same, item, code, cause, refused, (Except.error.inj failed).symm⟩

theorem load_error {name : String} {index : Nat} {bytes : Bytes} {e : Error}
    (failed : (load name index bytes false).outcome = .error e) :
    (Container.parse bytes false).outcome = .error e ∨
      ∃ container, (Container.parse bytes false).outcome = .ok container ∧
        decodeBodies container (indexMethods container) = .error e := by
  simp only [load] at failed
  split at failed
  next unread =>
    obtain rfl := Except.error.inj failed
    exact .inl unread
  next container parsed =>
    refine .inr ⟨container, parsed, ?_⟩
    simp only [ofContainer] at failed
    cases ran : decodeBodies container (indexMethods container) with
    | ok bodies =>
      rw [ran] at failed
      cases failed
    | error cause =>
      rw [ran] at failed
      exact congrArg Except.error (Except.error.inj failed)

/-- Why an image is not loaded while no flag is raised. -/
inductive Refused (bytes : Bytes) : Error → Prop
  /-- It cannot be read. -/
  | unread {e : Error} (failed : (Container.parse bytes false).outcome = .error e)
      (kind : e.kind = .malformed ∨ e.kind = .unsupported) : Refused bytes e
  /-- The code of one of its methods cannot be decoded. -/
  | undecoded {container : Container} {method : EncodedMethod} {item : CodeItem} {e : Error}
      (parsed : (Container.parse bytes false).outcome = .ok container)
      (member : method ∈ entries container) (code : method.code = some item)
      (failed : container.disassemble item = .error e) (kind : e.kind = .malformed) :
      Refused bytes (e.within (.method method.id))
  /-- The only code of a method is in an entry that another hides. -/
  | hidden {container : Container} (parsed : (Container.parse bytes false).outcome = .ok container)
      (hides : HidesCode container) : Refused bytes (.of .bodyVanished)

theorem refused_of_load {name : String} {index : Nat} {bytes : Bytes} {e : Error}
    (failed : (load name index bytes false).outcome = .error e) : Refused bytes e := by
  rcases load_error failed with unread | ⟨container, parsed, stopped⟩
  · exact .unread unread (Container.parse_error unread)
  · obtain ⟨id, coded, undecoded⟩ := decodeBodies_error stopped
    rcases decodeBody_error undecoded with
      ⟨vanished, rfl⟩ | ⟨method, member, rfl, item, code, cause, refused, rfl⟩
    · exact .hidden parsed (hidesCode_of_vanished (Container.sound_of_parse parsed) coded vanished)
    · exact .undecoded parsed member code refused (container.malformed_disassemble item refused)

/-! ### What a loaded image finds -/

/-- What looking up the methods of a class data gives. A virtual entry is always found and a direct
one unless another hides it; and the body of an entry that is found is its own code. -/
structure FindsOwn (image : Image) (data : ClassData) : Prop where
  virtual : ∀ m ∈ data.virtualMethods, image.encodedMethod? m.id = some m
  direct : ∀ m ∈ data.directMethods, image.encodedMethod? m.id = some m ↔
    ∀ v ∈ data.virtualMethods, v.id = m.id → v = m
  noBody : ∀ m ∈ data.methods, image.encodedMethod? m.id = some m →
    (image.body? m.id = none ↔ m.code = none)
  body : ∀ m ∈ data.methods, image.encodedMethod? m.id = some m → ∀ item, m.code = some item →
    ∃ insns, image.container.disassemble item = .ok insns ∧ image.body? m.id = some insns

theorem body_of_found {image : Image}
    (decoded : decodeBodies image.container image.declared = .ok image.bodies)
    (member : m ∈ entries image.container) (found : image.encodedMethod? m.id = some m) :
    (image.body? m.id = none ↔ m.code = none) ∧ ∀ item, m.code = some item →
      ∃ insns, image.container.disassemble item = .ok insns ∧ image.body? m.id = some insns := by
  have own : ∀ insns, image.body? m.id = some insns →
      ∃ item, m.code = some item ∧ image.container.disassemble item = .ok insns := by
    intro insns present
    obtain ⟨item, code, disassembled⟩ := decodeBody_ok (decodeBodies_ok decoded present).2
    rw [show image.declared[m.id]? = some m from found, Option.bind_some] at code
    exact ⟨item, code, disassembled⟩
  cases code : m.code with
  | none =>
    refine ⟨iff_of_true ?_ rfl, nofun⟩
    cases present : image.body? m.id with
    | none => rfl
    | some insns =>
      obtain ⟨item, given, -⟩ := own insns present
      rw [code] at given
      cases given
  | some item =>
    have coded : m.id ∈ codedIds image.container :=
      mem_codedIds.mpr ⟨m, member, rfl, by simp [code]⟩
    obtain ⟨insns, present⟩ := decodeBodies_coded decoded coded
    have there : image.body? m.id = some insns := present
    obtain ⟨own', given, disassembled⟩ := own insns there
    obtain rfl : own' = item := Option.some.inj (given.symm.trans code)
    refine ⟨iff_of_false (by simp [there]) nofun, ?_⟩
    intro other same
    obtain rfl := Option.some.inj same
    exact ⟨insns, disassembled, there⟩

/-- An image that is loaded finds each of its methods that no other entry hides, with its own code.
One that is not loaded cannot be read or decoded, or one of its methods is hidden together with its
only code. -/
theorem load_finds_methods (name : String) (index : Nat) (bytes : Bytes) :
    (∀ e, (load name index bytes false).outcome = .error e → Refused bytes e) ∧
      ∀ image, (load name index bytes false).outcome = .ok image →
        (Container.parse bytes false).outcome = .ok image.container ∧
          ∀ classDef ∈ image.container.classDefs, ∀ data ∈ classDef.data, image.FindsOwn data := by
  refine ⟨fun e failed => refused_of_load failed, ?_⟩
  intro image loaded
  obtain ⟨-, -, parsed, built, decoded⟩ := load_built loaded
  have sound := Container.sound_of_parse parsed
  refine ⟨parsed, ?_⟩
  intro classDef defined data given
  have listed : ∀ m ∈ data.methods, m ∈ entries image.container := by
    intro m member
    refine mem_entries.mpr ⟨classDef, defined, ?_⟩
    rw [ClassDef.methods, given]
    exact member
  constructor
  · intro m virtual
    rw [encodedMethod?, built]
    exact indexMethods_virtual sound defined given virtual
  · intro m direct
    rw [encodedMethod?, built]
    exact indexMethods_direct_iff sound defined given direct
  · intro m member found
    exact (body_of_found decoded (listed m member) found).1
  · intro m member found
    exact (body_of_found decoded (listed m member) found).2

end Image

/-! ### An image that hides the code of a method

The method of the small image is listed a second time among the virtual ones, without code. -/

namespace HiddenSample

def code : CodeItem := { Sample.code with offset := 216 }

def classData : ClassData where
  staticFields := [⟨0, 9⟩]
  instanceFields := []
  directMethods := [⟨0, 9, some code⟩]
  virtualMethods := [⟨0, 1, none⟩]

def classDef : ClassDef := { Sample.classDef with data := some classData }

def bytes : Bytes :=
  ((Layout.image 35 Sample.pools [classDef]).set 184 203 ++ classData.bytes ++ code.bytes).toArray

def container : Container := ⟨Sample.header, Sample.pools, #[classDef], bytes⟩

theorem parsed : (Container.parse bytes false).outcome = .ok container := by
  have ran : ∃ cursor, Container.readUnchecked 1 bytes ⟨0, #[]⟩ =
      .ok (Sample.header, Sample.pools, [classDef]) cursor :=
    Reader.ok_of_check (by decide +kernel)
  have accepted : Container.checkDef Sample.pools ∅ 0 classDef = .ok () := by
    simp only [Container.checkDef, Std.HashSet.contains_empty]
    rfl
  exact Container.parse_of_readUnchecked ran ⟨accepted, trivial⟩

theorem refused : (Image.load "classes.dex" 0 bytes false).outcome = .error (.of .bodyVanished) := by
  have entries : Image.entries container = [⟨0, 9, some code⟩, ⟨0, 1, none⟩] := rfl
  have found : (Image.indexMethods container)[0]? = some ⟨0, 1, none⟩ := by
    simp [Image.indexMethods, entries]
  have coded : Image.codedIds container = (∅ : Std.HashSet Nat).insert 0 := by
    simp [Image.codedIds, entries]
  have needed : (((∅ : Std.HashSet Nat).insert 0).contains 0 &&
      !(∅ : Std.HashMap Nat (Array Instruction)).contains 0) = true := by
    simp
  have vanished : Image.decodeBody container (Image.indexMethods container) 0 =
      .error (.of .bodyVanished) := by
    simp [Image.decodeBody, found]
  have bodies : Image.decodeBodies container (Image.indexMethods container) =
      .error (.of .bodyVanished) := by
    rw [Image.decodeBodies, coded, entries, List.foldlM_cons, if_pos needed, vanished]
    rfl
  have unbuilt : Image.ofContainer "classes.dex" 0 container = .error (.of .bodyVanished) := by
    rw [Image.ofContainer, bodies]
    rfl
  exact Image.load_of_unbuilt parsed unbuilt

end HiddenSample

theorem Image.load_finds_methods_samples :
    Sample.image.FindsOwn Sample.classData ∧ Refused HiddenSample.bytes (.of .bodyVanished) := by
  have defined : Sample.classDef ∈ Sample.image.container.classDefs := List.mem_toArray.mpr (.head _)
  constructor
  · exact ((load_finds_methods "classes.dex" 0 Sample.bytes).2 _ Sample.loaded).2 _ defined _ rfl
  · exact (load_finds_methods "classes.dex" 0 HiddenSample.bytes).1 _ HiddenSample.refused

/-- Nothing in the image is malformed, and yet it is not loaded. -/
theorem Image.load_hidden_code :
    ∃ e, (load "classes.dex" 0 HiddenSample.bytes false).outcome = .error e ∧
      e.kind = .invariant :=
  ⟨_, HiddenSample.refused, rfl⟩

end DexAtlas
