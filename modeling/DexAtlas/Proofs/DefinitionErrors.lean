import DexAtlas.Proofs.Loading
import DexAtlas.Proofs.Refusals

/-!
# Definitions that cannot be read

When a class definition cannot be read, the error is put in the context of its position and of a
descriptor. The descriptor is the one that the type pool has at that position. It is that of the class
being defined only where the two are spelled alike, since definitions need not stand in the order of
the types. All other reports on a definition go by the type that it was read with.
-/
namespace DexAtlas

/-! ### Readers of a fixed width -/

namespace Reader

variable {α β : Type}

/-- Whatever the reader returns, the cursor has moved by `width`. -/
def Advances (width : Nat) (reader : Reader α) : Prop :=
  ∀ ⦃bytes cursor a after⦄, reader bytes cursor = .ok a after → after.pos = cursor.pos + width

namespace Advances

theorem pure (a : α) : Advances 0 (Pure.pure a : Reader α) := by
  intro bytes cursor b after ran
  cases ran
  rfl

theorem bind {first second : Nat} {reader : Reader α} {next : α → Reader β}
    (head : Advances first reader) (tail : ∀ a, Advances second (next a)) :
    Advances (first + second) (reader >>= next) := by
  intro bytes cursor b after ran
  obtain ⟨a, middle, begun, ended⟩ := bind_ok ran
  rw [tail a ended, head begun, Nat.add_assoc]

/-- A check or a jump in front of other readers. -/
theorem free {width : Nat} {reader : Reader α} {next : α → Reader β} (head : Advances 0 reader)
    (tail : ∀ a, Advances width (next a)) : Advances width (reader >>= next) := by
  have both := bind head tail
  rwa [Nat.zero_add] at both

theorem ensure (condition : Prop) [Decidable condition] (cause : Cause) :
    Advances 0 (Reader.ensure condition cause) := by
  unfold Reader.ensure
  split
  · exact pure ()
  · intro bytes cursor a after ran
    cases ran

theorem elsewhere (pos : Nat) (reader : Reader α) : Advances 0 (Reader.elsewhere pos reader) := by
  intro bytes cursor a after ran
  obtain ⟨left, -, rfl⟩ := elsewhere_ok_iff.mp ran
  rfl

theorem map {width : Nat} {reader : Reader α} (f : α → β) (inner : Advances width reader) :
    Advances width (f <$> reader) := by
  rw [map_eq_pure_bind]
  exact bind inner fun a => pure (f a)

theorem uint (what : String) (width : Nat) : Advances width (Reader.uint what width) := by
  have raw : Advances width (take what width) := by
    intro bytes cursor raw after ran
    simp only [take] at ran
    split at ran
    · cases ran
      rfl
    · cases ran
  exact bind raw fun _ => pure _

/-- A word in front of other readers. -/
theorem word {width : Nat} {next : Nat → Reader β} (tail : ∀ n, Advances width (next n)) :
    Advances (width + 4) (Reader.u4 >>= next) := by
  have both := bind (uint "u4" 4) tail
  rwa [Nat.add_comm] at both

end Advances

theorem u4_ok {bytes : Bytes} {cursor : Cursor} (inside : cursor.pos + 4 ≤ bytes.size) :
    u4 bytes cursor = .ok (bytes.word cursor.pos) { cursor with pos := cursor.pos + 4 } := by
  rw [u4, uint, take_bind "u4" inside]
  rfl

end Reader

open Reader

theorem Tables.advances_optionalId (what : String) (size id : Nat) :
    Advances 0 (optionalId what size id) := by
  unfold optionalId
  split
  · exact .pure _
  · exact .bind (.ensure _ _) fun _ => .pure _

/-- A table that is entered begins at its offset and, if it is not empty, ends in the buffer. -/
theorem Tables.enter_ok {what : String} {width : Nat} {extent : Extent} {bytes : Bytes}
    {cursor after : Cursor} {done : Unit}
    (ran : enter what width extent bytes cursor = .ok done after) :
    after = { cursor with pos := extent.offset } ∧
      (extent.size = 0 ∨ extent.offset + extent.size * width ≤ bytes.size) := by
  rw [enter, bufferSize_bind] at ran
  by_cases fits : extent.size = 0 ∨
      (Header.byteSize ≤ extent.offset ∧ extent.offset + extent.size * width ≤ bytes.size)
  · rw [ensure_bind fits] at ran
    cases ran
    exact ⟨rfl, fits.imp_right And.right⟩
  · rw [ensure_refuses fits] at ran
    cases ran

theorem Tables.advances_typeListAt (types offset : Nat) :
    Advances 0 (typeListAt types offset) := by
  unfold typeListAt
  split
  · exact .pure _
  · exact .elsewhere offset _

theorem ClassDef.advances_dataAt (sizes : PoolSizes) (offset : Nat) :
    Advances 0 (dataAt sizes offset) := by
  unfold dataAt
  split
  · exact .pure _
  · exact .map _ (.elsewhere offset _)

/-- A definition takes eight words; what it points to lies elsewhere. -/
theorem ClassDef.advances_read (sizes : PoolSizes) : Advances 32 (read sizes) := by
  refine .word fun type => ?_
  refine .free (.ensure _ _) fun _ => ?_
  refine .word fun access => ?_
  refine .word fun superclassId => ?_
  refine .free (Tables.advances_optionalId _ _ superclassId) fun superclass => ?_
  refine .word fun interfacesOffset => ?_
  refine .free (Tables.advances_typeListAt _ interfacesOffset) fun interfaces => ?_
  refine .word fun sourceFileId => ?_
  refine .free (Tables.advances_optionalId _ _ sourceFileId) fun sourceFile => ?_
  refine .word fun annotationsOffset => ?_
  refine .word fun dataOffset => ?_
  refine .free (advances_dataAt sizes dataOffset) fun data => ?_
  exact .word fun staticValuesOffset => .pure _

namespace Container

variable {bytes : Bytes} {pools : Pools} {header : Header} {before : List ClassDef} {e : Error}
  {position : Nat}

/-! ### The first definition that cannot be read -/

/-- The header, the pools, the definitions before `position` and the error in which reading the
definition at `position` ends, if it is the first that cannot be read. -/
def firstRejected? (bytes : Bytes) (position : Nat) :
    Option (Header × Pools × List ClassDef × Error) :=
  match readUnchecked position bytes ⟨0, #[]⟩ with
  | .ok (header, pools, before) here =>
    match ClassDef.read pools.sizes bytes here with
    | .ok .. => none
    | .error e _ => some (header, pools, before, e)
  | .error .. => none

theorem firstRejected?_eq_some_iff :
    firstRejected? bytes position = some (header, pools, before, e) ↔
      ∃ here there, readUnchecked position bytes ⟨0, #[]⟩ = .ok (header, pools, before) here ∧
        ClassDef.read pools.sizes bytes here = .error e there := by
  unfold firstRejected?
  constructor
  · intro rejected
    split at rejected
    next header' pools' before' here ran =>
      split at rejected
      next => cases rejected
      next e' there failed =>
        cases rejected
        exact ⟨here, there, ran, failed⟩
    next => cases rejected
  · rintro ⟨here, there, ran, failed⟩
    simp only [ran, failed]

theorem readDefs_pos {sizes : PoolSizes} {count : Nat} {start here : Cursor}
    (ran : readDefs sizes count bytes start = .ok before here) :
    here.pos = start.pos + 32 * count := by
  induction count generalizing before start with
  | zero =>
    cases ran
    rfl
  | succ count ih =>
    obtain ⟨classDef, middle, read, ran⟩ := bind_ok ran
    obtain ⟨rest, last, others, returned⟩ := bind_ok ran
    cases returned
    have first := ClassDef.advances_read sizes read
    have further := ih others
    omega

/-- Definitions that are accepted are passed over, and the one behind them fails in the context of its
position and of the descriptor that the type pool has there. -/
theorem classDefsFrom_of_rejected {left count : Nat} {seen : Std.HashSet Nat} {done : Array ClassDef}
    {start here there : Cursor} (listed : count < left)
    (ran : readDefs pools.sizes count bytes start = .ok before here)
    (accepts : Accepts pools seen done.size before)
    (failed : ClassDef.read pools.sizes bytes here = .error e there) :
    classDefsFrom false pools left seen done bytes start =
      .error (e.within (.classDef (done.size + count)
        (pools.typeDescriptor? (done.size + count)))) there := by
  induction count generalizing left seen done before start with
  | zero =>
    obtain ⟨left, rfl⟩ := Nat.exists_eq_add_one_of_ne_zero (Nat.ne_of_gt listed)
    cases ran
    have rejected : within (.classDef done.size (pools.typeDescriptor? done.size))
        (ClassDef.read pools.sizes) bytes here = .error (e.within _) there :=
      within_error_iff.mpr ⟨e, failed, rfl⟩
    rw [classDefsFrom, ensure_bind rfl, bind_of_error rejected]
    rfl
  | succ count ih =>
    obtain ⟨left, rfl⟩ := Nat.exists_eq_add_one_of_ne_zero (Nat.ne_zero_of_lt listed)
    obtain ⟨classDef, middle, read, ran⟩ := bind_ok ran
    obtain ⟨rest, last, others, returned⟩ := bind_ok ran
    cases returned
    have first : within (.classDef done.size (pools.typeDescriptor? done.size))
        (ClassDef.read pools.sizes) bytes start = .ok classDef middle :=
      within_ok_iff.mpr read
    have pushed : Accepts pools (seen.insert classDef.type) (done.push classDef).size rest := by
      rw [Array.size_push]
      exact accepts.2
    have behind := ih (Nat.lt_of_succ_lt_succ listed) others pushed
    rw [classDefsFrom, ensure_bind rfl, bind_of_ok first]
    simp only [accepts.1]
    rw [behind, Array.size_push, Nat.add_right_comm, Nat.add_assoc]

/-- The stages that have passed when the definitions before `position` are there. -/
theorem readUnchecked_ok {start here : Cursor}
    (ran : readUnchecked position bytes start = .ok (header, pools, before) here) :
    ∃ behind between entered, Header.read bytes start = .ok header behind ∧
      Tables.pools header bytes behind = .ok pools between ∧
      Tables.enter "class_defs" 32 header.classDefs bytes between = .ok () entered ∧
      readDefs pools.sizes position bytes entered = .ok before here := by
  obtain ⟨header', behind, headerRead, ran⟩ := bind_ok ran
  obtain ⟨pools', between, poolsRead, ran⟩ := bind_ok ran
  obtain ⟨_, entered, enter, ran⟩ := bind_ok ran
  obtain ⟨before', last, defsRead, returned⟩ := bind_ok ran
  cases returned
  exact ⟨behind, between, entered, headerRead, poolsRead, enter, defsRead⟩

/-- The type that the definition at `position` is for: its first word. -/
def definedType (bytes : Bytes) (header : Header) (position : Nat) : Nat :=
  bytes.word (header.classDefs.offset + 32 * position)

/-- The definition stands where its position says, and the image is refused for it. -/
theorem parse_of_firstRejected
    (rejected : firstRejected? bytes position = some (header, pools, before, e))
    (listed : position < header.classDefs.size) (accepts : Accepts pools ∅ 0 before) :
    (∃ here, readUnchecked position bytes ⟨0, #[]⟩ = .ok (header, pools, before) here ∧
      u4 bytes here = .ok (definedType bytes header position) { here with pos := here.pos + 4 }) ∧
    (parse bytes false).outcome =
      .error (e.within (.classDef position (pools.typeDescriptor? position))) := by
  obtain ⟨here, there, ran, failed⟩ := firstRejected?_eq_some_iff.mp rejected
  obtain ⟨behind, between, entered, headerRead, poolsRead, enter, defsRead⟩ := readUnchecked_ok ran
  constructor
  · -- the table is entered at its offset, and each definition in front takes its width
    obtain ⟨rfl, room⟩ := Tables.enter_ok enter
    have placed := readDefs_pos defsRead
    dsimp only at placed
    have inside : here.pos + 4 ≤ bytes.size := by omega
    refine ⟨here, ran, ?_⟩
    rw [definedType, ← placed]
    exact u4_ok inside
  · have refused := classDefsFrom_of_rejected listed defsRead
      (show Accepts pools ∅ (#[] : Array ClassDef).size before from accepts) failed
    rw [Array.size_empty, Nat.zero_add] at refused
    have error : (read false).runAt bytes 0 =
        .error (e.within (.classDef position (pools.typeDescriptor? position))) there := by
      rw [runAt, read, bind_of_ok headerRead, bind_of_ok poolsRead, bind_of_ok enter]
      exact bind_of_error refused
    rw [parse, error]

end Container

/-- The outermost context of the error is the definition at `position`, and the class is called `name`
there. -/
def Error.Blames (e : Error) (position : Nat) (name : String) : Prop :=
  e.contexts.getLast? = some (.classDef position (some name))

theorem Error.blames_within_iff {e : Error} {position : Nat} {shown : Option String} {name : String} :
    (e.within (.classDef position shown)).Blames position name ↔ shown = some name := by
  simp [Blames, Error.within]

namespace Container

variable {bytes : Bytes} {pools : Pools} {header : Header} {before : List ClassDef} {e : Error}
  {position : Nat}

/-- If a definition is the first that cannot be read, the image is refused in its context. The
descriptor that is given there is the one at the position of the definition in the type pool. So the
class that the definition is for, which has a descriptor if its type is in range, is named just if it
is spelled like the type at that position. -/
theorem parse_blames_position
    (rejected : firstRejected? bytes position = some (header, pools, before, e))
    (listed : position < header.classDefs.size) (accepts : Accepts pools ∅ 0 before) :
    (∃ here, readUnchecked position bytes ⟨0, #[]⟩ = .ok (header, pools, before) here ∧
      u4 bytes here = .ok (definedType bytes header position) { here with pos := here.pos + 4 }) ∧
    ∃ raised, (parse bytes false).outcome = .error raised ∧
      raised = e.within (.classDef position (pools.typeDescriptor? position)) ∧
      (definedType bytes header position < pools.types.size →
        ∃ name, pools.typeDescriptor? (definedType bytes header position) = some name ∧
          (raised.Blames position name ↔ pools.typeDescriptor? position = some name)) := by
  obtain ⟨placed, refused⟩ := parse_of_firstRejected rejected listed accepts
  refine ⟨placed, _, refused, rfl, fun inside => ?_⟩
  obtain ⟨here, ran, -⟩ := placed
  -- the pools were read, so every type in range has a descriptor
  have closed : pools.Closed := by
    obtain ⟨_, _, _, -, poolsRead, -⟩ := readUnchecked_ok ran
    exact Tables.yields_pools _ poolsRead
  obtain ⟨name, named⟩ := closed.typeDescriptor? inside
  exact ⟨name, named, Error.blames_within_iff⟩

end Container

/-! ### Definitions in another order than their types

There are two classes. The second one is defined first, and the first one has a superclass that is not
there. -/

namespace SwappedSample

def pools : Pools where
  strings := #["LA;", "LB;"]
  types := #[0, 1]
  protos := #[]
  fields := #[]
  methods := #[]

def sound : ClassDef := { Sample.classDef with type := 1, data := none }

def broken : ClassDef := { Sample.classDef with type := 0, superclass := some 7, data := none }

def bytes : Bytes := (Layout.image 35 pools [sound, broken]).toArray

def header : Header := Layout.header 35 pools [sound, broken] 10

def cause : Cause := .indexRange "superclass type" 7 2

theorem rejected :
    Container.firstRejected? bytes 1 = some (header, pools, [sound], .of cause) := by
  decide +kernel

theorem accepts : Container.Accepts pools ∅ 0 [sound] := by
  constructor
  · simp only [Container.checkDef, Std.HashSet.contains_empty]
    rfl
  · trivial

/-- The definition behind is for the first class. -/
theorem definedType_eq : Container.definedType bytes header 1 = 0 := by decide +kernel

end SwappedSample

namespace Container

theorem parse_blames_position_swapped :
    firstRejected? SwappedSample.bytes 1 =
        some (SwappedSample.header, SwappedSample.pools, [SwappedSample.sound],
          .of SwappedSample.cause) ∧
      ∃ raised name, (parse SwappedSample.bytes false).outcome = .error raised ∧
        SwappedSample.pools.typeDescriptor? 0 = some name ∧
        (raised.Blames 1 name ↔ SwappedSample.pools.typeDescriptor? 1 = some name) := by
  obtain ⟨-, raised, refused, -, blamed⟩ :=
    parse_blames_position SwappedSample.rejected (by decide) SwappedSample.accepts
  rw [SwappedSample.definedType_eq] at blamed
  obtain ⟨name, named, exactly⟩ := blamed (by decide)
  exact ⟨SwappedSample.rejected, raised, name, refused, named, exactly⟩

/-- The definition that cannot be read is for the class `LA;`. The error says `LB;`. -/
theorem parse_blames_other :
    definedType SwappedSample.bytes SwappedSample.header 1 = 0 ∧
      SwappedSample.pools.typeDescriptor? 0 = some "LA;" ∧
      ∃ raised, (parse SwappedSample.bytes false).outcome = .error raised ∧
        raised.Blames 1 "LB;" ∧ ¬raised.Blames 1 "LA;" := by
  refine ⟨SwappedSample.definedType_eq, rfl, _,
    (parse_of_firstRejected SwappedSample.rejected (by decide) SwappedSample.accepts).2, ?_, ?_⟩
  · exact Error.blames_within_iff.mpr rfl
  · rw [Error.blames_within_iff]
    decide

end Container

end DexAtlas
