import DexAtlas.Proofs.CodeItems
import DexAtlas.Proofs.Composition

/-!
# Class data

The members of a class stand in four lists behind their four counts, each id as its distance from the
one before. Lists whose ids increase are read back as they were written, wherever they stand: the
distances add up to the ids again, no distance but the first is zero, and a list is never longer than
the limits on its count allow, since every member takes two bytes and every method three. The code of
a method lies elsewhere and may be any code item that can be read. Conversely the ids of all lists
that are read increase and are in range.
-/
namespace DexAtlas

namespace Reader

variable {α β : Type}

/-! ### Earlier notices -/

/-- What the reader returns and where it stops do not depend on what was noticed before. -/
def Unheeding (reader : Reader α) : Prop :=
  ∀ ⦃bytes pos earlier a after⦄, reader bytes ⟨pos, earlier⟩ = .ok a after →
    ∀ notices, ∃ later, reader bytes ⟨pos, notices⟩ = .ok a ⟨after.pos, later⟩

namespace Unheeding

theorem pure (a : α) : Unheeding (Pure.pure a : Reader α) := by
  intro bytes pos earlier b after ran notices
  cases ran
  exact ⟨notices, rfl⟩

theorem bind {reader : Reader α} {next : α → Reader β} (first : Unheeding reader)
    (others : ∀ a, Unheeding (next a)) : Unheeding (reader >>= next) := by
  intro bytes pos earlier b after ran notices
  obtain ⟨a, middle, begun, ended⟩ := bind_ok ran
  obtain ⟨between, again⟩ := first begun notices
  obtain ⟨later, finished⟩ := others a ended between
  exact ⟨later, (bind_of_ok again).trans finished⟩

theorem fail (cause : Cause) : Unheeding (Reader.fail cause : Reader α) := nofun

theorem ensure (condition : Prop) [Decidable condition] (cause : Cause) :
    Unheeding (Reader.ensure condition cause) := by
  unfold Reader.ensure
  split
  · exact pure ()
  · exact fail cause

theorem within {reader : Reader α} (context : Context) (inner : Unheeding reader) :
    Unheeding (Reader.within context reader) := by
  intro bytes pos earlier a after ran notices
  obtain ⟨later, again⟩ := inner (within_ok_iff.mp ran) notices
  exact ⟨later, within_ok_iff.mpr again⟩

theorem elsewhere {reader : Reader α} (pos : Nat) (inner : Unheeding reader) :
    Unheeding (Reader.elsewhere pos reader) := by
  intro bytes here earlier a after ran notices
  obtain ⟨left, there, rfl⟩ := elsewhere_ok_iff.mp ran
  obtain ⟨later, again⟩ := inner there notices
  exact ⟨later, elsewhere_ok_iff.mpr ⟨_, again, rfl⟩⟩

theorem restoring {reader : Reader α} (inner : Unheeding reader) :
    Unheeding (Reader.restoring reader) := by
  intro bytes pos earlier a after ran notices
  obtain ⟨later, again⟩ := inner (restoring_ok_iff.mp ran) notices
  exact ⟨later, restoring_ok_iff.mpr again⟩

theorem position : Unheeding Reader.position := by
  rintro bytes pos earlier a after ⟨⟩ notices
  exact ⟨notices, rfl⟩

theorem bufferSize : Unheeding Reader.bufferSize := by
  rintro bytes pos earlier a after ⟨⟩ notices
  exact ⟨notices, rfl⟩

theorem buffer : Unheeding (MonadReaderOf.read : Reader Bytes) := by
  rintro bytes pos earlier a after ⟨⟩ notices
  exact ⟨notices, rfl⟩

theorem seek (pos : Nat) : Unheeding (Reader.seek pos) := by
  rintro bytes here earlier a after ⟨⟩ notices
  exact ⟨notices, rfl⟩

theorem raise (notice : Notice) : Unheeding (Reader.raise notice) := by
  rintro bytes pos earlier a after ⟨⟩ notices
  exact ⟨notices.push notice, rfl⟩

theorem take (what : String) (count : Nat) : Unheeding (Reader.take what count) := by
  intro bytes pos earlier a after ran notices
  unfold Reader.take at ran ⊢
  dsimp only at ran ⊢
  split at ran
  next inside =>
    cases ran
    exact ⟨notices, if_pos inside⟩
  next => cases ran

theorem leb (decode : List UInt8 → Except Cause (α × Nat)) : Unheeding (Reader.leb decode) := by
  intro bytes pos earlier a after ran notices
  unfold Reader.leb at ran ⊢
  dsimp only at ran ⊢
  split at ran
  next value used decoded =>
    cases ran
    exact ⟨notices, rfl⟩
  next => cases ran

theorem text : Unheeding Reader.text := by
  refine restoring (bind position fun start => ?_)
  refine bind (leb _) fun declared => ?_
  refine bind position fun first => bind buffer fun bytes => ?_
  split
  next stop _ =>
    split
    next decoded _ => exact bind (ensure _ _) fun _ => bind (seek _) fun _ => pure _
    next => exact fail _
  next => exact fail _

end Unheeding

theorem Composed.unheeding {reader : Reader α} (composed : Composed reader) :
    Unheeding reader := by
  induction composed with
  | pure a => exact .pure a
  | bind _ _ first others => exact .bind first others
  | fail _ => exact .fail _
  | limit _ _ _ others =>
    exact .bind .bufferSize fun size => .bind (.ensure _ _) fun _ => others
  | within context _ inner => exact .within context inner
  | elsewhere pos _ inner => exact .elsewhere pos inner
  | position => exact .position
  | seek pos => exact .seek pos
  | raise notice => exact .raise notice
  | take what count => exact .take what count
  | uleb128 => exact .leb _
  | uleb128p1 => exact .leb _
  | sleb128 => exact .leb _
  | text => exact .text

end Reader

open Reader (Unheeding Takes Yields bind_of_ok bufferSize_bind ensure_bind)

/-! ### Chunks with notices -/

namespace Reader

variable {α β : Type} {bytes : Bytes}

/-- Wherever the chunk stands in the buffer, the reader takes it for `a` and stops behind it; it may
notice something on the way. -/
def Receives (bytes : Bytes) (reader : Reader α) (chunk : List UInt8) (a : α) : Prop :=
  ∀ ⦃pos⦄, bytes.Holds pos chunk → ∀ notices, ∃ later,
    reader bytes ⟨pos, notices⟩ = .ok a ⟨pos + chunk.length, later⟩

theorem Takes.receives {reader : Reader α} {chunk : List UInt8} {a : α}
    (takes : Takes bytes reader chunk a) : Receives bytes reader chunk a :=
  fun _ holds notices => ⟨notices, takes holds notices⟩

namespace Receives

theorem bind {reader : Reader α} {next : α → Reader β} {first second : List UInt8} {a : α} {b : β}
    (head : Receives bytes reader first a) (tail : Receives bytes (next a) second b) :
    Receives bytes (reader >>= next) (first ++ second) b := by
  intro pos holds notices
  obtain ⟨between, begun⟩ := head holds.left notices
  obtain ⟨later, ended⟩ := tail holds.right between
  refine ⟨later, ?_⟩
  rw [bind_of_ok begun, ended, List.length_append, Nat.add_assoc]

/-- A reader that receives nothing stands before one that receives the chunk. -/
theorem after {reader : Reader α} {next : α → Reader β} {chunk : List UInt8} {a : α} {b : β}
    (head : Receives bytes reader [] a) (tail : Receives bytes (next a) chunk b) :
    Receives bytes (reader >>= next) chunk b :=
  bind head tail

/-- A reader that receives nothing stands behind one that receives the chunk. -/
theorem finish {reader : Reader α} {next : α → Reader β} {chunk : List UInt8} {a : α} {b : β}
    (head : Receives bytes reader chunk a) (tail : Receives bytes (next a) [] b) :
    Receives bytes (reader >>= next) chunk b := by
  have both := bind head tail
  rwa [List.append_nil] at both

theorem pure (a : α) : Receives bytes (Pure.pure a : Reader α) [] a := (Takes.pure a).receives

theorem uleb128 {n : Nat} (small : n < UInt32.size) :
    Receives bytes Reader.uleb128 (Leb128.encode n) n :=
  (Takes.uleb128 small).receives

end Receives

end Reader

open Reader (Receives)

/-! ### Lists of members -/

namespace ClassData

variable {α : Type} {bytes : Bytes} {idOf : α → Nat} {write : α → List UInt8} {items : List α}

/-- The members behind one with the given id. -/
def membersFrom (previous : Nat) (members : List (Nat × List UInt8)) : List UInt8 :=
  ((distances previous (members.map (·.1))).zip members).flatMap fun (distance, member) =>
    Leb128.encode distance ++ member.2

theorem membersFrom_cons (previous id : Nat) (chunk : List UInt8)
    (rest : List (Nat × List UInt8)) : membersFrom previous ((id, chunk) :: rest) =
      Leb128.encode (id - previous) ++ (chunk ++ membersFrom id rest) := by
  rw [membersFrom, List.map_cons, distances, List.zip_cons_cons, List.flatMap_cons,
    List.append_assoc, ← membersFrom]

/-- The distance from the member before leads to the id; there is none before the first. -/
theorem nextId_distance (what : String) {previous : Option Nat} {id : Nat}
    (above : ∀ before, previous = some before → before < id) (small : id < UInt32.size) :
    nextId what previous (id - previous.getD 0) = .ok id := by
  cases previous with
  | none => rfl
  | some before =>
    have positive := above before rfl
    have sum : before + (id - before) = id := by omega
    rw [Option.getD_some, nextId, if_neg (by omega), sum, if_pos small]

/-- What a list of members must be for its bytes to be read back: ids of 32 bits that increase
within the pool, and a count of 32 bits. -/
structure WritableList (idOf : α → Nat) (size : Nat) (items : List α) : Prop where
  ascending : Ascending idOf size items
  ids : ∀ item ∈ items, idOf item < UInt32.size
  count : items.length < UInt32.size

section Members

variable {entry : Nat → Reader α} {what : String} {size : Nat}

private theorem receives_more {previous : Option Nat} {done : Array α}
    (each : ∀ item ∈ items, Receives bytes (entry (idOf item)) (write item) item)
    (inside : ∀ item ∈ items, idOf item < size) (small : ∀ item ∈ items, idOf item < UInt32.size)
    (ordered : items.Pairwise fun a b => idOf a < idOf b)
    (above : ∀ item ∈ items, ∀ before, previous = some before → before < idOf item) :
    Receives bytes (members.more what size entry items.length previous done)
      (membersFrom (previous.getD 0) (items.map fun item => (idOf item, write item)))
      (done.toList ++ items) := by
  induction items generalizing previous done with
  | nil =>
    rw [List.append_nil]
    exact .pure _
  | cons item rest ih =>
    obtain ⟨below, others⟩ := List.pairwise_cons.mp ordered
    have least : idOf item - previous.getD 0 < UInt32.size :=
      Nat.lt_of_le_of_lt (Nat.sub_le _ _) (small item (by simp))
    have moved : done.toList ++ item :: rest = (done.push item).toList ++ rest := by simp
    rw [List.map_cons, membersFrom_cons, List.length_cons, members.more, moved]
    refine .bind (.uleb128 least) ?_
    rw [nextId_distance what (above item (by simp)) (small item (by simp))]
    refine .after (Takes.ensure (inside item (by simp)) _).receives (.bind (each item (by simp)) ?_)
    -- the member that was just read is the one before all that are left
    refine ih (fun other member => each other (by simp [member]))
      (fun other member => inside other (by simp [member]))
      (fun other member => small other (by simp [member])) others ?_
    rintro other member _ ⟨⟩
    exact below other member

theorem length_membersFrom (previous width : Nat)
    (wide : ∀ item ∈ items, width ≤ 1 + (write item).length) :
    items.length * width ≤
      (membersFrom previous (items.map fun item => (idOf item, write item))).length := by
  induction items generalizing previous with
  | nil => simp
  | cons item rest ih =>
    have first := wide item (by simp)
    have positive := Leb128.length_encode_pos (idOf item - previous)
    have others := ih (idOf item) fun other member => wide other (by simp [member])
    rw [List.map_cons, membersFrom_cons, List.length_append, List.length_append, List.length_cons,
      Nat.succ_mul]
    omega

/-- The limit on the count never refuses a list that is there. -/
theorem receives_members {width : Nat} (positive : 0 < width)
    (wide : ∀ item ∈ items, width ≤ 1 + (write item).length)
    (writable : WritableList idOf size items)
    (each : ∀ item ∈ items, Receives bytes (entry (idOf item)) (write item) item) :
    Receives bytes (members what width size items.length entry)
      (memberBytes (items.map fun item => (idOf item, write item))) items := by
  have list : Receives bytes (members.more what size entry items.length none #[])
      (membersFrom 0 (items.map fun item => (idOf item, write item))) (#[].toList ++ items) :=
    receives_more each writable.ascending.1 writable.ids writable.ascending.2 (by simp)
  intro pos holds notices
  have enough : items.length ≤ bytes.size / width := by
    rw [Nat.le_div_iff_mul_le positive]
    have room := holds.le
    have counted := @length_membersFrom α idOf write items 0 width wide
    exact Nat.le_trans counted (Nat.le_trans (Nat.le_add_left _ _) room)
  rw [members, bufferSize_bind, ensure_bind enough]
  exact list holds notices

end Members

/-! ### Fields and methods -/

variable {sizes : PoolSizes}

theorem receives_fieldList {fields : List EncodedField} (what : String)
    (writable : WritableList EncodedField.id sizes.fields fields)
    (access : ∀ field ∈ fields, field.access < UInt32.size) :
    Receives bytes (fieldList what sizes fields.length) (fieldBytes fields) fields := by
  refine receives_members (by decide) (fun field _ => ?_) writable fun field member => ?_
  · have positive := Leb128.length_encode_pos field.access
    rw [EncodedField.entryBytes]
    omega
  · exact .finish (.uleb128 (access field member)) (.pure field)

/-- The code item stands where it says, but not at the beginning, since offset zero is taken for
none. -/
structure Stands (bytes : Bytes) (sizes : PoolSizes) (item : CodeItem) : Prop where
  positive : 0 < item.offset
  small : item.offset < UInt32.size
  read : ∃ after, (CodeItem.read sizes.strings sizes.types).runAt bytes item.offset = .ok item after

/-- Any code item that can be read stands where it was read, since that is the offset it has. -/
theorem Stands.of_read {item : CodeItem} {offset : Nat} {after : Cursor} (positive : 0 < offset)
    (small : offset < UInt32.size)
    (read : (CodeItem.read sizes.strings sizes.types).runAt bytes offset = .ok item after) :
    Stands bytes sizes item := by
  have itself : item.offset = offset := by
    rw [(CodeItem.read_ok read).1]
    exact Nat.mod_eq_of_lt small
  rw [← itself] at positive small read
  exact ⟨positive, small, after, read⟩

theorem receives_codeAt {code : Option CodeItem} (what : String) (id : Nat)
    (stands : ∀ item ∈ code, Stands bytes sizes item) :
    Receives bytes (codeAt what sizes id ((code.map CodeItem.offset).getD 0)) [] code := by
  cases code with
  | none => exact .pure none
  | some item =>
    obtain ⟨positive, -, after, read⟩ := stands item rfl
    have offset : ((some item).map CodeItem.offset).getD 0 = item.offset := rfl
    intro pos holds notices
    -- it was read without notices before it, but that makes no difference
    obtain ⟨later, again⟩ := (Unheeding.within (.member what id item.offset)
      (Unheeding.elsewhere item.offset (CodeItem.composed_read sizes.strings sizes.types).unheeding))
      (Reader.within_ok_iff.mpr (Reader.elsewhere_ok_iff.mpr ⟨after, read, rfl⟩)) notices
    refine ⟨later, ?_⟩
    rw [offset, codeAt, if_neg (by omega), map_eq_pure_bind, bind_of_ok again]
    rfl

theorem receives_encodedMethod {method : EncodedMethod} (what : String)
    (access : method.access < UInt32.size) (stands : ∀ item ∈ method.code, Stands bytes sizes item) :
    Receives bytes (encodedMethod what sizes method.id) method.entryBytes method := by
  have offset : (method.code.map CodeItem.offset).getD 0 < UInt32.size := by
    cases found : method.code with
    | none => decide
    | some item => exact (stands item found).small
  exact .bind (.uleb128 access) (.finish (.uleb128 offset)
    (.finish (receives_codeAt what method.id stands) (.pure method)))

theorem receives_methodList {methods : List EncodedMethod} (what : String)
    (writable : WritableList EncodedMethod.id sizes.methods methods)
    (access : ∀ method ∈ methods, method.access < UInt32.size)
    (stands : ∀ method ∈ methods, ∀ item ∈ method.code, Stands bytes sizes item) :
    Receives bytes (methodList what sizes methods.length) (methodBytes methods) methods := by
  refine receives_members (by decide) (fun method _ => ?_) writable fun method member => ?_
  · have flags := Leb128.length_encode_pos method.access
    have offset := Leb128.length_encode_pos ((method.code.map CodeItem.offset).getD 0)
    rw [EncodedMethod.entryBytes, List.length_append]
    omega
  · exact receives_encodedMethod what (access method member) (stands method member)

/-! ### All four lists -/

/-- What class data must be for its bytes to be read back from the buffer: four lists that can be
written, flags of 32 bits, and code items where the methods have them. -/
structure Writable (sizes : PoolSizes) (bytes : Bytes) (data : ClassData) : Prop where
  staticFields : WritableList EncodedField.id sizes.fields data.staticFields
  instanceFields : WritableList EncodedField.id sizes.fields data.instanceFields
  directMethods : WritableList EncodedMethod.id sizes.methods data.directMethods
  virtualMethods : WritableList EncodedMethod.id sizes.methods data.virtualMethods
  fieldAccess : ∀ field ∈ data.fields, field.access < UInt32.size
  methodAccess : ∀ method ∈ data.methods, method.access < UInt32.size
  code : ∀ method ∈ data.methods, ∀ item ∈ method.code, Stands bytes sizes item

theorem Writable.receives_read {data : ClassData} (writable : data.Writable sizes bytes) :
    Receives bytes (read sizes) data.bytes data := by
  have static := @receives_fieldList bytes sizes _ "static field" writable.staticFields
    fun field member => writable.fieldAccess field (List.mem_append_left _ member)
  have instanced := @receives_fieldList bytes sizes _ "instance field" writable.instanceFields
    fun field member => writable.fieldAccess field (List.mem_append_right _ member)
  have direct := receives_methodList "direct method" writable.directMethods
    (fun method member => writable.methodAccess method (List.mem_append_left _ member))
    fun method member => writable.code method (List.mem_append_left _ member)
  have virtual := receives_methodList "virtual method" writable.virtualMethods
    (fun method member => writable.methodAccess method (List.mem_append_right _ member))
    fun method member => writable.code method (List.mem_append_right _ member)
  simp only [ClassData.bytes, List.append_assoc]
  refine .bind (.uleb128 writable.staticFields.count) (.bind (.uleb128 writable.instanceFields.count)
    (.bind (.uleb128 writable.directMethods.count) (.bind (.uleb128 writable.virtualMethods.count)
    ?_)))
  exact .bind static (.bind instanced (.bind direct (.finish virtual (.pure data))))

/-- Class data that was written in front of and behind anything is read back unchanged, and the
cursor stops right behind its last member. Conversely, whatever class data is read from any buffer,
the ids of each of its four lists increase and are in range. -/
theorem lists_round_trip (sizes : PoolSizes) :
    (∀ (data : ClassData) (before after : List UInt8) (notices : Array Notice),
      data.Writable sizes (before ++ data.bytes ++ after).toArray →
        ∃ later, read sizes (before ++ data.bytes ++ after).toArray ⟨before.length, notices⟩ =
          .ok data ⟨before.length + data.bytes.length, later⟩) ∧
      ∀ (bytes : Bytes) (cursor after : Cursor) (data : ClassData),
        read sizes bytes cursor = .ok data after →
          Ascending EncodedField.id sizes.fields data.staticFields ∧
            Ascending EncodedField.id sizes.fields data.instanceFields ∧
            Ascending EncodedMethod.id sizes.methods data.directMethods ∧
            Ascending EncodedMethod.id sizes.methods data.virtualMethods := by
  constructor
  · intro data before after notices writable
    refine writable.receives_read ⟨before, after, ?_, rfl⟩ notices
    rw [List.toList_toArray, List.append_assoc]
  · intro bytes cursor after data ran
    have ordered := yields_read sizes ran
    exact ⟨ordered.staticFields, ordered.instanceFields, ordered.directMethods,
      ordered.virtualMethods⟩

/-- A class with members in all four lists. Two of its methods share a code item. -/
def membersSample : ClassData where
  staticFields := [⟨0, 9⟩, ⟨3, 0xFFFFFFFF⟩]
  instanceFields := [⟨1, 2⟩]
  directMethods := [⟨2, 9, some CodeItem.guardedSample⟩]
  virtualMethods := [⟨0, 1, none⟩, ⟨300, 1, some CodeItem.guardedSample⟩]

/-- The pools are no larger than the ids require. -/
def membersSizes : PoolSizes := ⟨0, 2, 4, 301⟩

/-- The class data stands behind the code item. -/
def membersBuffer : Bytes :=
  ([9, 9, 9] ++ CodeItem.guardedSample.bytes ++ membersSample.bytes ++ [9]).toArray

theorem membersSample_writable : membersSample.Writable membersSizes membersBuffer where
  staticFields := ⟨⟨by decide, by decide⟩, by decide, by decide⟩
  instanceFields := ⟨⟨by decide, by decide⟩, by decide, by decide⟩
  directMethods := ⟨⟨by decide, by decide⟩, by decide, by decide⟩
  virtualMethods := ⟨⟨by decide, by decide⟩, by decide, by decide⟩
  fieldAccess := by decide
  methodAccess := by decide
  code := by
    have holds : membersBuffer.Holds 3 CodeItem.guardedSample.bytes :=
      ⟨[9, 9, 9], membersSample.bytes ++ [9], by simp [membersBuffer], rfl⟩
    have read := CodeItem.guardedSample_writable.read_of_holds 0 holds #[]
    intro method member item present
    have same : item = CodeItem.guardedSample := by
      simp only [methods, membersSample, List.cons_append, List.nil_append, List.mem_cons,
        List.not_mem_nil, or_false] at member
      rcases member with rfl | rfl | rfl <;> cases present <;> rfl
    rw [same]
    exact .of_read (by decide) (by decide) read

theorem lists_round_trip_sample :
    membersSample.Writable membersSizes membersBuffer ∧
      membersSample.bytes = [2, 1, 1, 2] ++ [0, 9, 3, 0xFF, 0xFF, 0xFF, 0xFF, 0x0F] ++ [1, 2] ++
        [2, 9, 3] ++ [0, 1, 0, 0xAC, 2, 1, 3] ∧
      (∃ later, read membersSizes membersBuffer ⟨56, #[]⟩ = .ok membersSample ⟨80, later⟩) ∧
      Ascending EncodedMethod.id membersSizes.methods membersSample.virtualMethods := by
  have start : ([9, 9, 9] ++ CodeItem.guardedSample.bytes).length = 56 := by decide +kernel
  have length : membersSample.bytes.length = 24 := by decide +kernel
  obtain ⟨written, ordered⟩ := lists_round_trip membersSizes
  obtain ⟨later, read⟩ := written membersSample _ [9] #[] membersSample_writable
  rw [start, length] at read
  exact ⟨membersSample_writable, by decide +kernel, ⟨later, read⟩, (ordered _ _ _ _ read).2.2.2⟩

end ClassData

end DexAtlas
