import DexAtlas.Proofs.StringItems

/-!
# Round trip

An image that was laid out is read back as it was given: the same pools, the same class definitions
and the same version. A table is found where the header says, each of its entries is as wide as the
reader takes it to be, and an offset in an entry leads to the string item or type list that was put
there. What has to fit is asked of the parts alone: ids in range and no wider than their place,
and an image whose size is a 32-bit number.
-/
namespace DexAtlas

open Bytes (toLittleEndian)
open Reader

/-! ### Readers that find their own place -/

namespace Reader

variable {α β : Type} {bytes : Bytes}

/-- Wherever the cursor is, the reader gives `a` and notices nothing. -/
def Gives (bytes : Bytes) (reader : Reader α) (a : α) : Prop :=
  ∀ pos notices, ∃ stop, reader bytes ⟨pos, notices⟩ = .ok a ⟨stop, notices⟩

theorem Gives.pure (a : α) : Gives bytes (Pure.pure a : Reader α) a := fun pos _ => ⟨pos, rfl⟩

theorem Gives.bind {reader : Reader α} {next : α → Reader β} {a : α} {b : β}
    (head : Gives bytes reader a) (tail : Gives bytes (next a) b) :
    Gives bytes (reader >>= next) b := by
  intro pos notices
  obtain ⟨middle, first⟩ := head pos notices
  obtain ⟨stop, second⟩ := tail middle notices
  exact ⟨stop, by rw [bind_of_ok first, second]⟩

end Reader

/-! ### Where items and tables are put -/

namespace Layout

/-- A table of entries that are all of one width. -/
structure Table where
  width : Nat
  entries : List (List UInt8)
  uniform : ∀ entry ∈ entries, entry.length = width

namespace Table

def bytes (table : Table) : List UInt8 := table.entries.flatten

/-- The number of entries and their width. -/
def shape (table : Table) : Nat × Nat := (table.entries.length, table.width)

theorem length_bytes (table : Table) : table.bytes.length = table.entries.length * table.width := by
  obtain ⟨width, entries, uniform⟩ := table
  rw [bytes]
  dsimp only
  induction entries with
  | nil => simp
  | cons entry rest ih =>
    rw [List.flatten_cons, List.length_append, uniform entry (by simp),
      ih fun other member => uniform other (by simp [member]), List.length_cons, Nat.succ_mul,
      Nat.add_comm]

end Table

variable {bytes : Bytes} {unit base i offset : Nat} {items : List (List UInt8)} {item : List UInt8}

/-- An item is at its offset, which is zero just for an empty one. -/
def Placed (bytes : Bytes) (base : Nat) (item : List UInt8) (offset : Nat) : Prop :=
  (item = [] ∧ offset = 0) ∨ (item ≠ [] ∧ base ≤ offset ∧ bytes.Holds offset item)

theorem Placed.offset_lt (placed : Placed bytes base item offset)
    (small : bytes.size < UInt32.size) : offset < UInt32.size := by
  rcases placed with ⟨-, rfl⟩ | ⟨-, -, stands⟩
  · decide
  · have inside := stands.le
    omega

theorem Placed.mono {low : Nat} (placed : Placed bytes base item offset) (lower : low ≤ base) :
    Placed bytes low item offset := by
  rcases placed with empty | ⟨nonempty, behind, stands⟩
  · exact .inl empty
  · exact .inr ⟨nonempty, by omega, stands⟩

theorem place_nil (rest : List (List UInt8)) : place unit base ([] :: rest) =
    (0 :: (place unit base rest).1, (place unit base rest).2) := rfl

theorem place_cons (nonempty : item ≠ []) (rest : List (List UInt8)) :
    place unit base (item :: rest) =
      let start := base + (unit - base % unit) % unit
      (start :: (place unit (start + item.length) rest).1,
        List.replicate ((unit - base % unit) % unit) 0 ++
          (item ++ (place unit (start + item.length) rest).2)) := by
  rw [place, if_neg (by simpa using nonempty)]
  simp only [List.append_assoc]

theorem length_place : (place unit base items).1.length = items.length := by
  induction items generalizing base with
  | nil => rfl
  | cons item rest ih =>
    by_cases empty : item = []
    · rw [empty, place_nil, List.length_cons, List.length_cons, ih]
    · rw [place_cons empty, List.length_cons, List.length_cons, ih]

/-- The offsets lead to the items. -/
theorem place_holds (holds : bytes.Holds base (place unit base items).2)
    (listed : items[i]? = some item) (given : (place unit base items).1[i]? = some offset) :
    Placed bytes base item offset := by
  induction items generalizing base i with
  | nil => cases listed
  | cons first rest ih =>
    by_cases empty : first = []
    · -- an empty item takes no place and gets offset zero
      subst empty
      rw [place_nil] at holds given
      cases i with
      | zero =>
        cases listed
        cases given
        exact .inl ⟨rfl, rfl⟩
      | succ i => exact ih holds listed given
    · rw [place_cons empty] at holds given
      have moved := holds.right
      rw [List.length_replicate] at moved
      cases i with
      | zero =>
        cases listed
        cases given
        exact .inr ⟨empty, Nat.le_add_right _ _, moved.left⟩
      | succ i => exact (ih moved.right listed given).mono (by omega)

/-- The table is where its extent says. -/
structure Laid (bytes : Bytes) (table : Table) (extent : Extent) : Prop where
  size : extent.size = table.entries.length
  behind : extent.size = 0 ∨ Header.byteSize ≤ extent.offset
  stands : bytes.Holds extent.offset table.bytes

/-- The extents lead to the tables. -/
theorem extents_hold {tables : List Table} {table : Table} {extent : Extent}
    (low : Header.byteSize ≤ base) (holds : bytes.Holds base (tables.flatMap Table.bytes))
    (listed : tables[i]? = some table)
    (given : (extents base (tables.map Table.shape))[i]? = some extent) :
    Laid bytes table extent := by
  induction tables generalizing base i with
  | nil => cases listed
  | cons first rest ih =>
    rw [List.flatMap_cons] at holds
    cases i with
    | zero =>
      cases listed
      cases given
      by_cases empty : table.entries.length = 0
      · -- a table without entries is said to be at zero, where nothing stands as anywhere
        have nothing : table.bytes = [] := by
          rw [Table.bytes, List.length_eq_zero_iff.mp empty, List.flatten_nil]
        refine ⟨rfl, .inl empty, ?_⟩
        rw [nothing]
        exact Bytes.holds_nil (by simp [empty])
      · have offset : (if table.entries.length = 0 then 0 else base) = base := if_neg empty
        refine ⟨rfl, .inr ?_, ?_⟩
        · dsimp only [Table.shape]
          rwa [offset]
        · dsimp only [Table.shape]
          rw [offset]
          exact holds.left
    | succ i =>
      have moved := holds.right
      rw [first.length_bytes] at moved
      exact ih (Nat.le_trans low (Nat.le_add_right _ _)) moved listed given

namespace Laid

variable {table : Table} {extent : Extent}

theorem fits (laid : Laid bytes table extent) :
    extent.offset + extent.size * table.width ≤ bytes.size := by
  rw [laid.size, ← table.length_bytes]
  exact laid.stands.le

theorem size_lt (laid : Laid bytes table extent) (positive : 0 < table.width)
    (small : bytes.size < UInt32.size) : extent.size < UInt32.size := by
  have fits := laid.fits
  have wide : extent.size ≤ extent.size * table.width := Nat.le_mul_of_pos_right _ positive
  omega

theorem offset_lt (laid : Laid bytes table extent) (small : bytes.size < UInt32.size) :
    extent.offset < UInt32.size := by
  have fits := laid.fits
  omega

theorem enter (laid : Laid bytes table extent) (what : String) (cursor : Cursor) :
    Tables.enter what table.width extent bytes cursor =
      .ok () { cursor with pos := extent.offset } := by
  have allowed : extent.size = 0 ∨ (Header.byteSize ≤ extent.offset ∧
      extent.offset + extent.size * table.width ≤ bytes.size) :=
    laid.behind.imp_right fun behind => ⟨behind, laid.fits⟩
  rw [Tables.enter, bufferSize_bind, ensure_bind allowed]
  rfl

/-- What takes the table gives its value from wherever the cursor was. -/
theorem gives {α : Type} {reader : Reader α} {a : α} (laid : Laid bytes table extent)
    (what : String) (takes : Takes bytes reader table.bytes a) :
    Gives bytes (do Tables.enter what table.width extent; reader) a := by
  intro pos notices
  exact ⟨_, by rw [bind_of_ok (laid.enter what _), takes laid.stands notices]⟩

end Laid

end Layout

/-! ### Type lists and entries -/

namespace Tables

variable {bytes : Bytes} {base offset : Nat}

theorem takes_typeList {ids : List Nat} {types : Nat} (few : ids.length < UInt32.size)
    (inside : ∀ id ∈ ids, id < types) (narrow : ∀ id ∈ ids, id < UInt16.size) :
    Takes bytes (typeList types)
      (toLittleEndian 4 ids.length ++ ids.flatMap (toLittleEndian 2)) ids := by
  have entries : Takes bytes (Reader.collect ids.length fun _ => do
      let id ← Reader.u2
      checkId "type_list type" types id
      return id) (ids.flatMap (toLittleEndian 2)) ids.toArray := by
    refine .collect_flatMap (by simp) fun id member => ?_
    have listed : id ∈ ids := by simpa using member
    exact .finish (.u2 (narrow id listed)) (.after (.ensure (inside id listed) _) (.pure id))
  refine .bind (.u4 few) (.position fun here stands =>
    .after .bufferSize (.after (.ensure ?_ _) ?_))
  · rw [← Bytes.length_flatMap_toLittleEndian]
    exact stands.le
  · exact entries.finish (.pure _)

/-- A list that was placed is read at its offset, and no list at offset zero. -/
theorem takes_typeListAt {ids : List Nat} {types : Nat} (small : bytes.size < UInt32.size)
    (placed : Layout.Placed bytes Header.byteSize (Layout.typeList ids) offset)
    (inside : ∀ id ∈ ids, id < types) (narrow : ∀ id ∈ ids, id < UInt16.size) :
    Takes bytes (typeListAt types offset) [] ids := by
  rcases placed with ⟨empty, rfl⟩ | ⟨nonempty, behind, stands⟩
  · -- only an empty list is written as nothing
    have none : ids = [] := by
      unfold Layout.typeList at empty
      split at empty
      next none => simpa using none
      next => cases empty
    rw [none, typeListAt, if_pos rfl]
    exact .pure []
  · have written : Layout.typeList ids =
        toLittleEndian 4 ids.length ++ ids.flatMap (toLittleEndian 2) := by
      unfold Layout.typeList at nonempty ⊢
      split at nonempty
      next => exact absurd rfl nonempty
      next some => rw [if_neg some]
    rw [written] at stands
    have few : ids.length < UInt32.size := by
      have room := stands.le
      rw [List.length_append, Bytes.length_flatMap_toLittleEndian] at room
      omega
    -- behind the header no offset is zero
    rw [typeListAt, if_neg (by simp only [Header.byteSize] at behind; omega)]
    exact .elsewhere (takes_typeList few inside narrow) stands

theorem takes_optionalId {found : Option Nat} {size : Nat} (what : String)
    (small : size < UInt32.size) (inside : ∀ id ∈ found, id < size) :
    Takes bytes (optionalId what size (found.getD noIndex)) [] found := by
  cases found with
  | none => exact .pure none
  | some id =>
    have below := inside id rfl
    rw [Option.getD_some, optionalId, if_neg (by simp only [noIndex, UInt32.size] at *; omega)]
    exact .after (.ensure below _) (.pure _)

theorem optional_lt {found : Option Nat} {size : Nat} (small : size < UInt32.size)
    (inside : ∀ id ∈ found, id < size) : found.getD noIndex < UInt32.size := by
  cases found with
  | none => decide
  | some id => exact Nat.lt_trans (inside id rfl) small

end Tables

theorem ClassDef.takes_read {bytes : Bytes} {definition : ClassDef} {sizes : PoolSizes}
    {offset : Nat} (small : bytes.size < UInt32.size) (types : sizes.types < UInt32.size)
    (strings : sizes.strings < UInt32.size) (inRange : definition.InRange sizes)
    (bare : definition.data = none)
    (words : definition.access < UInt32.size ∧ definition.annotationsOffset < UInt32.size ∧
      definition.staticValuesOffset < UInt32.size)
    (placed : Layout.Placed bytes Header.byteSize (Layout.typeList definition.interfaces) offset)
    (narrow : ∀ id ∈ definition.interfaces, id < UInt16.size) :
    Takes bytes (ClassDef.read sizes) (Layout.classDef definition offset) definition := by
  obtain ⟨type, access, superclass, interfaces, sourceFile, annotations, values, data⟩ := definition
  subst bare
  simp only [Layout.classDef, List.append_assoc]
  refine .bind (.u4 (Nat.lt_trans inRange.type types)) (.after (.ensure inRange.type _) ?_)
  refine .bind (.u4 words.1) (.bind (.u4 (Tables.optional_lt types inRange.superclass)) ?_)
  refine .after (Tables.takes_optionalId _ types inRange.superclass) ?_
  refine .bind (.u4 (placed.offset_lt small)) ?_
  refine .after (Tables.takes_typeListAt small placed inRange.interfaces narrow) ?_
  refine .bind (.u4 (Tables.optional_lt strings inRange.sourceFile)) ?_
  refine .after (Tables.takes_optionalId _ strings inRange.sourceFile) ?_
  refine .bind (.u4 words.2.1) (.bind (.u4 (by decide)) ?_)
  exact .after (.pure none) (.finish (.u4 words.2.2) (.pure _))

/-! ### Headers -/

namespace Header

/-- The numbers that stand alone in a header. -/
def numbers (header : Header) : List Nat :=
  [header.checksum, header.fileSize, header.headerSize, header.endianTag, header.mapOffset]

/-- The numbers that come in pairs. -/
def extents (header : Header) : List Extent :=
  [header.link, header.strings, header.types, header.protos, header.fields, header.methods,
    header.classDefs, header.data]

/-- What a header must be for its bytes to be read back from a buffer of the given size. -/
structure Readable (size : Nat) (header : Header) : Prop where
  magic : header.magic.size = 8
  version : ∃ version ∈ supportedVersions, versionOf? header.magic.toList = some version
  signature : header.signature.size = 20
  numbers : ∀ n ∈ header.numbers, n < UInt32.size
  extents : ∀ extent ∈ header.extents, extent.size < UInt32.size ∧ extent.offset < UInt32.size
  endianTag : header.endianTag = littleEndianTag
  headerSize : header.headerSize = byteSize
  fileSize : header.fileSize ≤ size
  complete : byteSize ≤ size

theorem takes_read {bytes : Bytes} {header : Header} (readable : header.Readable bytes.size) :
    Takes bytes read header.bytes header := by
  obtain ⟨version, supported, named⟩ := readable.version
  have word {n : Nat} (listed : n ∈ header.numbers) :
      Takes bytes Reader.u4 (toLittleEndian 4 n) n :=
    .u4 (readable.numbers n listed)
  have pair {extent : Extent} (listed : extent ∈ header.extents) :
      Takes bytes Header.extent extent.bytes extent :=
    .bind (.u4 (readable.extents extent listed).1)
      (.finish (.u4 (readable.extents extent listed).2) (.pure extent))
  -- the fields in their order, and behind them the checks that take nothing
  simp only [Header.bytes, List.append_assoc]
  refine .after .bufferSize (.after (.ensure readable.complete _) (.bind (.raw readable.magic) ?_))
  rw [named]
  refine .after (.ensure supported _) (.bind (word (by simp [numbers])) ?_)
  refine .bind (.raw readable.signature) (.bind (word (by simp [numbers])) ?_)
  refine .bind (word (by simp [numbers])) (.bind (word (by simp [numbers])) ?_)
  refine .bind (pair (by simp [extents])) (.bind (word (by simp [numbers])) ?_)
  refine .bind (pair (by simp [extents])) (.bind (pair (by simp [extents])) ?_)
  refine .bind (pair (by simp [extents])) (.bind (pair (by simp [extents])) ?_)
  refine .bind (pair (by simp [extents])) (.bind (pair (by simp [extents])) ?_)
  refine .finish (pair (by simp [extents])) (.after (.ensure ?_ _) ?_)
  · rw [readable.endianTag]
    decide
  · exact .after (.ensure readable.endianTag _) (.after (.ensure readable.headerSize _)
      (.after (.ensure readable.fileSize _) (.pure header)))

end Header

/-! ### The parts of an image -/

namespace Layout

section Parts

variable (version : Nat) (pools : Pools) (classDefs : List ClassDef)

/-- The offsets and the bytes of the string items. -/
def stringPlaces : List Nat × List UInt8 :=
  place 1 (dataStart pools classDefs) (pools.strings.toList.map stringItem)

/-- The type lists: the parameters of each prototype, then the interfaces of each definition. -/
def lists : List (List Nat) :=
  pools.protos.toList.map ProtoItem.parameters ++ classDefs.map ClassDef.interfaces

/-- The offsets and the bytes of the type lists. -/
def listPlaces : List Nat × List UInt8 :=
  place 4 (dataStart pools classDefs + (stringPlaces pools classDefs).2.length)
    ((lists pools classDefs).map typeList)

theorem length_of_mem_zipWith {α β : Type} {f : α → β → List UInt8} {width : Nat}
    (fixed : ∀ a b, (f a b).length = width) {as : List α} {bs : List β} :
    ∀ entry ∈ List.zipWith f as bs, entry.length = width := by
  intro entry member
  obtain ⟨i, found⟩ := List.getElem?_of_mem member
  obtain ⟨a, b, -, -, rfl⟩ := List.getElem?_zipWith_eq_some.mp found
  exact fixed a b

def stringTable : Table :=
  ⟨4, (stringPlaces pools classDefs).1.map (toLittleEndian 4), by simp⟩

def typeTable : Table := ⟨4, pools.types.toList.map (toLittleEndian 4), by simp⟩

def protoTable : Table :=
  ⟨12, List.zipWith protoItem pools.protos.toList
    ((listPlaces pools classDefs).1.take pools.protos.size),
    length_of_mem_zipWith (by simp [protoItem])⟩

def fieldTable : Table := ⟨8, pools.fields.toList.map fieldItem, by simp [fieldItem]⟩

def methodTable : Table := ⟨8, pools.methods.toList.map methodItem, by simp [methodItem]⟩

def classTable : Table :=
  ⟨32, List.zipWith classDef classDefs ((listPlaces pools classDefs).1.drop pools.protos.size),
    length_of_mem_zipWith (by simp [classDef])⟩

/-- The six tables in their order. -/
def written : List Table :=
  [stringTable pools classDefs, typeTable pools, protoTable pools classDefs, fieldTable pools,
    methodTable pools, classTable pools classDefs]

/-- The size of all items. -/
def dataSize : Nat :=
  (stringPlaces pools classDefs).2.length + (listPlaces pools classDefs).2.length

theorem image_eq : image version pools classDefs =
    (header version pools classDefs (dataSize pools classDefs)).bytes ++
      ((written pools classDefs).flatMap Table.bytes ++
        ((stringPlaces pools classDefs).2 ++ (listPlaces pools classDefs).2)) := by
  -- the definition, with its local names replaced by those of the parts
  have unfolded : image version pools classDefs =
      (header version pools classDefs
        ((stringPlaces pools classDefs).2 ++ (listPlaces pools classDefs).2).length).bytes ++
      (stringPlaces pools classDefs).1.flatMap (toLittleEndian 4) ++
      pools.types.toList.flatMap (toLittleEndian 4) ++
      (List.zipWith protoItem pools.protos.toList
        ((listPlaces pools classDefs).1.splitAt pools.protos.size).1).flatten ++
      pools.fields.toList.flatMap fieldItem ++ pools.methods.toList.flatMap methodItem ++
      (List.zipWith classDef classDefs
        ((listPlaces pools classDefs).1.splitAt pools.protos.size).2).flatten ++
      ((stringPlaces pools classDefs).2 ++ (listPlaces pools classDefs).2) := rfl
  rw [unfolded, List.splitAt_eq, List.length_append]
  simp [written, Table.bytes, stringTable, typeTable, protoTable, fieldTable, methodTable,
    classTable, dataSize, List.flatMap_def]

theorem length_listPlaces :
    (listPlaces pools classDefs).1.length = pools.protos.size + classDefs.length := by
  simp [listPlaces, lists, length_place]

theorem shape_written : (written pools classDefs).map Table.shape = tables pools classDefs := by
  simp [written, Table.shape, tables, stringTable, typeTable, protoTable, fieldTable, methodTable,
    classTable, stringPlaces, length_place, length_listPlaces]

private theorem foldr_shapes (written : List Table) :
    (written.map Table.shape).foldr (fun shape bytes => shape.1 * shape.2 + bytes)
      Header.byteSize = Header.byteSize + (written.flatMap Table.bytes).length := by
  induction written with
  | nil => rfl
  | cons table rest ih =>
    rw [List.map_cons, List.foldr_cons, ih, List.flatMap_cons, List.length_append,
      table.length_bytes, Table.shape]
    dsimp only
    omega

/-- The data start where the tables end. -/
theorem dataStart_eq : dataStart pools classDefs =
    Header.byteSize + ((written pools classDefs).flatMap Table.bytes).length := by
  rw [← foldr_shapes, shape_written]
  rfl

end Parts

/-- What can be laid out: ids in range and no wider than their place, no class defined twice, and
an image whose size is a 32-bit number. -/
structure Writable (version : Nat) (pools : Pools) (classDefs : List ClassDef) : Prop where
  supported : version ∈ Header.supportedVersions
  closed : pools.Closed
  parameters : ∀ proto ∈ pools.protos, ∀ id ∈ proto.parameters, id < UInt16.size
  fields : ∀ field ∈ pools.fields, field.owner < UInt16.size ∧ field.type < UInt16.size
  methods : ∀ method ∈ pools.methods, method.owner < UInt16.size ∧ method.proto < UInt16.size
  inRange : ∀ definition ∈ classDefs, definition.InRange pools.sizes
  interfaces : ∀ definition ∈ classDefs, ∀ id ∈ definition.interfaces, id < UInt16.size
  words : ∀ definition ∈ classDefs, definition.access < UInt32.size ∧
    definition.annotationsOffset < UInt32.size ∧ definition.staticValuesOffset < UInt32.size
  bare : ∀ definition ∈ classDefs, definition.data = none
  distinct : (classDefs.map ClassDef.type).Nodup
  size : (image version pools classDefs).length < UInt32.size

section Standing

variable {version : Nat} {pools : Pools} {classDefs : List ClassDef}

theorem length_header (data : Nat) : (header version pools classDefs data).bytes.length =
    Header.byteSize := by
  simp [Header.bytes, Extent.bytes, header, Header.magicOf, Header.byteSize, Header.fileMark]

theorem holds_image (version : Nat) (pools : Pools) (classDefs : List ClassDef) :
    Bytes.Holds (image version pools classDefs).toArray 0
    ((header version pools classDefs (dataSize pools classDefs)).bytes ++
      ((written pools classDefs).flatMap Table.bytes ++
        ((stringPlaces pools classDefs).2 ++ (listPlaces pools classDefs).2))) :=
  ⟨[], [], by simp [image_eq], rfl⟩

theorem holds_tables : Bytes.Holds (image version pools classDefs).toArray Header.byteSize
    ((written pools classDefs).flatMap Table.bytes) := by
  have behind := (holds_image version pools classDefs).right.left
  rwa [length_header, Nat.zero_add] at behind

theorem holds_strings : Bytes.Holds (image version pools classDefs).toArray
    (dataStart pools classDefs) (stringPlaces pools classDefs).2 := by
  have behind := (holds_image version pools classDefs).right.right.left
  rwa [length_header, Nat.zero_add, ← dataStart_eq] at behind

theorem holds_lists : Bytes.Holds (image version pools classDefs).toArray
    (dataStart pools classDefs + (stringPlaces pools classDefs).2.length)
    (listPlaces pools classDefs).2 := by
  have behind := (holds_image version pools classDefs).right.right.right
  rwa [length_header, Nat.zero_add, ← dataStart_eq] at behind

theorem laid {k : Nat} {table : Table} (listed : (written pools classDefs)[k]? = some table) :
    Laid (image version pools classDefs).toArray table
      ((extents Header.byteSize (tables pools classDefs))[k]?.getD ⟨0, 0⟩) := by
  obtain ⟨inside, -⟩ := List.getElem?_eq_some_iff.mp listed
  have listedToo : k < (extents Header.byteSize (tables pools classDefs)).length := inside
  have given := List.getElem?_eq_getElem listedToo
  rw [given, Option.getD_some]
  refine extents_hold (Nat.le_refl _) holds_tables listed ?_
  rw [shape_written, given]

theorem string_placed {k offset : Nat} {text : String} (listed : pools.strings[k]? = some text)
    (given : (stringPlaces pools classDefs).1[k]? = some offset) :
    Placed (image version pools classDefs).toArray (dataStart pools classDefs) (stringItem text)
      offset := by
  have written : (pools.strings.toList.map stringItem)[k]? = some (stringItem text) := by
    rw [List.getElem?_map, Array.getElem?_toList, listed, Option.map_some]
  exact place_holds holds_strings written given

theorem list_placed {k offset : Nat} {ids : List Nat}
    (listed : (lists pools classDefs)[k]? = some ids)
    (given : (listPlaces pools classDefs).1[k]? = some offset) :
    Placed (image version pools classDefs).toArray Header.byteSize (typeList ids) offset := by
  have written : ((lists pools classDefs).map typeList)[k]? = some (typeList ids) := by
    rw [List.getElem?_map, listed, Option.map_some]
  refine (place_holds holds_lists written given).mono ?_
  rw [dataStart_eq]
  omega

theorem parameters_placed {k offset : Nat} {proto : ProtoItem}
    (listed : pools.protos[k]? = some proto)
    (given : ((listPlaces pools classDefs).1.take pools.protos.size)[k]? = some offset) :
    Placed (image version pools classDefs).toArray Header.byteSize (typeList proto.parameters)
      offset := by
  have inside : k < pools.protos.size := (Array.getElem?_eq_some_iff.mp listed).1
  rw [List.getElem?_take_of_lt inside] at given
  refine list_placed ?_ given
  rw [lists, List.getElem?_append_left (by simpa using inside), List.getElem?_map,
    Array.getElem?_toList, listed, Option.map_some]

theorem interfaces_placed {k offset : Nat} {definition : ClassDef}
    (listed : classDefs[k]? = some definition)
    (given : ((listPlaces pools classDefs).1.drop pools.protos.size)[k]? = some offset) :
    Placed (image version pools classDefs).toArray Header.byteSize (typeList definition.interfaces)
      offset := by
  rw [List.getElem?_drop] at given
  refine list_placed ?_ given
  rw [lists, List.getElem?_append_right (by simp)]
  simp [listed]

end Standing

/-! ### Reading the tables back -/

namespace Writable

variable {version : Nat} {pools : Pools} {classDefs : List ClassDef}

theorem small (writable : Writable version pools classDefs) :
    (image version pools classDefs).toArray.size < UInt32.size := by
  simpa using writable.size

theorem pool_sizes (writable : Writable version pools classDefs) :
    pools.strings.size < UInt32.size ∧ pools.types.size < UInt32.size :=
  ⟨(@laid version pools classDefs 0 _ rfl).size_lt (Nat.succ_pos 3) writable.small,
    (@laid version pools classDefs 1 _ rfl).size_lt (Nat.succ_pos 3) writable.small⟩

theorem gives_strings (writable : Writable version pools classDefs) (data : Nat) :
    Gives (image version pools classDefs).toArray
      (Tables.strings (header version pools classDefs data).strings) pools.strings := by
  refine (@laid version pools classDefs 0 _ rfl).gives "string_ids" (.collect rfl ?_ ?_)
  · simp [stringTable, stringPlaces, length_place]
    rfl
  intro i text entry listed written
  simp only [stringTable, List.getElem?_map, Option.map_eq_some_iff] at written
  obtain ⟨offset, given, rfl⟩ := written
  have placed : Placed (image version pools classDefs).toArray _ _ offset :=
    string_placed listed given
  have length := length_le_stringItem text
  refine .finish (.u4 (placed.offset_lt writable.small)) (.within _ ?_)
  -- a string item is never empty, as it has a zero at its end
  rcases placed with ⟨empty, -⟩ | ⟨-, -, stands⟩
  · rw [empty] at length
    cases length
  · have room := stands.le
    have small := writable.small
    exact .elsewhere (.text (by omega)) stands

theorem gives_types (writable : Writable version pools classDefs) (data : Nat) :
    Gives (image version pools classDefs).toArray
      (Tables.types (header version pools classDefs data).types pools.strings.size)
      pools.types := by
  refine (@laid version pools classDefs 1 _ rfl).gives "type_ids" (.collect_flatMap rfl ?_)
  intro id member
  have inside := writable.closed.types id member
  exact .finish (.u4 (Nat.lt_trans inside writable.pool_sizes.1))
    (.after (.ensure inside _) (.pure id))

theorem gives_protos (writable : Writable version pools classDefs) (data : Nat) :
    Gives (image version pools classDefs).toArray
      (Tables.protos (header version pools classDefs data).protos pools.strings.size
        pools.types.size) pools.protos := by
  refine (@laid version pools classDefs 2 _ rfl).gives "proto_ids" (.collect rfl ?_ ?_)
  · simp [protoTable, length_listPlaces]
    rfl
  intro i proto entry listed written
  obtain ⟨_, offset, same, given, rfl⟩ := List.getElem?_zipWith_eq_some.mp written
  obtain rfl : proto = _ := Option.some.inj (listed.symm.trans (by simpa using same))
  have member := Array.mem_of_getElem? listed
  obtain ⟨shorty, result, parameters⟩ := writable.closed.protos proto member
  obtain ⟨strings, types⟩ := writable.pool_sizes
  have placed : Placed (image version pools classDefs).toArray _ _ offset :=
    parameters_placed listed given
  simp only [protoItem, List.append_assoc]
  refine .bind (.u4 (Nat.lt_trans shorty strings)) (.after (.ensure shorty _) ?_)
  refine .bind (.u4 (Nat.lt_trans result types)) (.after (.ensure result _) ?_)
  refine .finish (.u4 (placed.offset_lt writable.small)) (.after (.within _ ?_) (.pure proto))
  exact Tables.takes_typeListAt writable.small placed parameters (writable.parameters proto member)

theorem gives_fields (writable : Writable version pools classDefs) (data : Nat) :
    Gives (image version pools classDefs).toArray
      (Tables.fields (header version pools classDefs data).fields pools.strings.size
        pools.types.size) pools.fields := by
  refine (@laid version pools classDefs 3 _ rfl).gives "field_ids" (.collect_flatMap rfl ?_)
  intro field member
  obtain ⟨owner, type, name⟩ := writable.closed.fields field member
  obtain ⟨ownerNarrow, typeNarrow⟩ := writable.fields field member
  have item : Takes (image version pools classDefs).toArray Tables.fieldItem (fieldItem field)
      field := by
    simp only [fieldItem, List.append_assoc]
    exact .bind (.u2 ownerNarrow) (.bind (.u2 typeNarrow)
      (.finish (.u4 (Nat.lt_trans name writable.pool_sizes.1)) (.pure field)))
  exact item.finish (.after (.ensure owner _) (.after (.ensure type _)
    (.after (.ensure name _) (.pure field))))

theorem gives_methods (writable : Writable version pools classDefs) (data : Nat) :
    Gives (image version pools classDefs).toArray
      (Tables.methods (header version pools classDefs data).methods pools.strings.size
        pools.types.size pools.protos.size) pools.methods := by
  refine (@laid version pools classDefs 4 _ rfl).gives "method_ids" (.collect_flatMap rfl ?_)
  intro method member
  obtain ⟨owner, proto, name⟩ := writable.closed.methods method member
  obtain ⟨ownerNarrow, protoNarrow⟩ := writable.methods method member
  have item : Takes (image version pools classDefs).toArray Tables.methodItem (methodItem method)
      method := by
    simp only [methodItem, List.append_assoc]
    exact .bind (.u2 ownerNarrow) (.bind (.u2 protoNarrow)
      (.finish (.u4 (Nat.lt_trans name writable.pool_sizes.1)) (.pure method)))
  exact item.finish (.after (.ensure owner _) (.after (.ensure proto _)
    (.after (.ensure name _) (.pure method))))

theorem gives_pools (writable : Writable version pools classDefs) (data : Nat) :
    Gives (image version pools classDefs).toArray
      (Tables.pools (header version pools classDefs data)) pools :=
  .bind (writable.gives_strings data) (.bind (writable.gives_types data)
    (.bind (writable.gives_protos data) (.bind (writable.gives_fields data)
      (.bind (writable.gives_methods data) (.pure pools)))))

end Writable

end Layout

/-! ### Class definitions -/

namespace Container

variable {bytes : Bytes} {pools : Pools}

theorem checkDef_of_bare {seen : Std.HashSet Nat} {definition : ClassDef} (position : Nat)
    (fresh : seen.contains definition.type = false) (bare : definition.data = none) :
    checkDef pools seen position definition = .ok () := by
  simp [checkDef, fresh, foreignMethod?, foreignField?, ClassDef.methods, ClassDef.fields, bare]

/-- Definitions of classes that were not seen and differ from each other are all accepted. -/
theorem takes_classDefsFrom {definitions : List ClassDef} {entries : List (List UInt8)}
    {seen : Std.HashSet Nat} {done : Array ClassDef} (sizes : entries.length = definitions.length)
    (each : ∀ (i : Nat) definition entry, definitions[i]? = some definition →
      entries[i]? = some entry → Takes bytes (ClassDef.read pools.sizes) entry definition)
    (bare : ∀ definition ∈ definitions, definition.data = none)
    (fresh : ∀ definition ∈ definitions, seen.contains definition.type = false)
    (distinct : (definitions.map ClassDef.type).Nodup) :
    Takes bytes (classDefsFrom false pools definitions.length seen done) entries.flatten
      (done ++ definitions.toArray) := by
  induction definitions generalizing entries seen done with
  | nil =>
    obtain rfl := List.length_eq_zero_iff.mp sizes
    rw [Array.append_empty]
    exact .pure done
  | cons definition rest ih =>
    obtain ⟨entry, entries, rfl⟩ := List.exists_cons_of_length_eq_add_one sizes
    have moved : done ++ (definition :: rest).toArray = done.push definition ++ rest.toArray := by
      simp
    rw [List.map_cons, List.nodup_cons] at distinct
    rw [moved, List.flatten_cons]
    refine .after (.ensure rfl _) (.bind (.within _ (each 0 definition entry rfl rfl)) ?_)
    rw [checkDef_of_bare _ (fresh definition (by simp)) (bare definition (by simp))]
    refine ih (Nat.succ.inj sizes) (fun i => each (i + 1))
      (fun other member => bare other (by simp [member])) ?_ distinct.2
    -- of those to come none was seen before, and none is of the type that is now seen
    intro other member
    have differs : definition.type ≠ other.type := fun same =>
      distinct.1 (same ▸ List.mem_map_of_mem member)
    rw [Std.HashSet.contains_insert, fresh other (by simp [member])]
    simpa using differs

end Container

namespace Layout.Writable

variable {version : Nat} {pools : Pools} {classDefs : List ClassDef}

theorem takes_classDefs (writable : Writable version pools classDefs) :
    Takes (image version pools classDefs).toArray
      (Container.classDefsFrom false pools classDefs.length ∅ #[])
      (classTable pools classDefs).bytes classDefs.toArray := by
  rw [← @Array.empty_append _ classDefs.toArray]
  refine Container.takes_classDefsFrom ?_ ?_ writable.bare (by simp) writable.distinct
  · simp [classTable, length_listPlaces]
  intro i definition entry listed written
  obtain ⟨_, offset, same, given, rfl⟩ := List.getElem?_zipWith_eq_some.mp written
  obtain rfl : definition = _ := Option.some.inj (listed.symm.trans same)
  have member := List.mem_of_getElem? listed
  exact ClassDef.takes_read writable.small writable.pool_sizes.2 writable.pool_sizes.1
    (writable.inRange definition member) (writable.bare definition member)
    (writable.words definition member) (interfaces_placed listed given)
    (writable.interfaces definition member)

theorem readable (writable : Writable version pools classDefs) :
    (header version pools classDefs (dataSize pools classDefs)).Readable
      (image version pools classDefs).toArray.size := by
  have named : ∀ version ∈ Header.supportedVersions,
      Header.versionOf? (Header.magicOf version).toList = some version := by decide
  have total : (image version pools classDefs).toArray.size =
      dataStart pools classDefs + dataSize pools classDefs := by
    rw [List.size_toArray, image_eq, dataStart_eq, dataSize]
    simp only [List.length_append, length_header]
    omega
  have small := writable.small
  -- what is inside of the image is below its size, and so are the numbers of entries
  have fits {k : Nat} {table : Table} (wide : 0 < table.width)
      (listed : (written pools classDefs)[k]? = some table) :
      _ < UInt32.size ∧ _ < UInt32.size :=
    ⟨(laid listed).size_lt wide small, (laid listed).offset_lt small⟩
  have whole : dataStart pools classDefs + dataSize pools classDefs < UInt32.size := total ▸ small
  have data : dataSize pools classDefs < UInt32.size ∧ dataStart pools classDefs < UInt32.size := by
    omega
  have zero : 0 < UInt32.size := by decide
  have constants : Header.byteSize < UInt32.size ∧ Header.littleEndianTag < UInt32.size := by decide
  refine ⟨rfl, ⟨version, writable.supported, named version writable.supported⟩, by simp [header],
    ?_, ?_, rfl, rfl, ?_, ?_⟩
  · simp only [Header.numbers, List.forall_mem_cons]
    exact ⟨zero, whole, constants.1, constants.2, zero, nofun⟩
  · simp only [Header.extents, List.forall_mem_cons]
    exact ⟨⟨zero, zero⟩, @fits 0 _ (Nat.succ_pos 3) rfl, @fits 1 _ (Nat.succ_pos 3) rfl,
      @fits 2 _ (Nat.succ_pos 11) rfl, @fits 3 _ (Nat.succ_pos 7) rfl,
      @fits 4 _ (Nat.succ_pos 7) rfl, @fits 5 _ (Nat.succ_pos 31) rfl, data, nofun⟩
  · rw [total]
    exact Nat.le_refl _
  · rw [total, dataStart_eq]
    omega

end Layout.Writable

namespace Container

theorem parse_of_parts {bytes : Bytes} {header : Header} {pools : Pools}
    {classDefs : Array ClassDef} {table : Layout.Table}
    (first : Takes bytes Header.read header.bytes header)
    (front : bytes.Holds 0 header.bytes) (second : Gives bytes (Tables.pools header) pools)
    (laid : Layout.Laid bytes table header.classDefs) (wide : table.width = 32)
    (third : Takes bytes (classDefsFrom false pools header.classDefs.size ∅ #[]) table.bytes
      classDefs) :
    (parse bytes false).outcome = .ok ⟨header, pools, classDefs, bytes⟩ := by
  obtain ⟨stop, tables⟩ := second (0 + header.bytes.length) #[]
  have entered := laid.enter "class_defs" ⟨stop, #[]⟩
  rw [wide] at entered
  rw [parse, runAt, read, bind_of_ok (first front #[]), bind_of_ok tables, bind_of_ok entered,
    bind_of_ok (third laid.stands #[])]
  rfl

/-- An image that was laid out is accepted, and read back with the pools, the class definitions and
the version that it was laid out for. -/
theorem parse_image {version : Nat} {pools : Pools} {classDefs : List ClassDef}
    (writable : Layout.Writable version pools classDefs) :
    ∃ header, header.version = version ∧
      (parse (Layout.image version pools classDefs).toArray false).outcome =
        .ok ⟨header, pools, classDefs.toArray, (Layout.image version pools classDefs).toArray⟩ := by
  have spelled : ∀ version ∈ Header.supportedVersions,
      Header.decimal (((Header.magicOf version).toList.drop 4).take 3) = version := by decide
  refine ⟨Layout.header version pools classDefs (Layout.dataSize pools classDefs),
    spelled version writable.supported, ?_⟩
  exact parse_of_parts (Header.takes_read writable.readable) (Layout.holds_image _ _ _).left
    (writable.gives_pools _) (@Layout.laid version pools classDefs 5 _ rfl) rfl
    writable.takes_classDefs

end Container

namespace MixedSample

/-- Among the strings an empty one, and one with a zero and a character outside the first plane;
the prototypes have no parameters and two. -/
def pools : Pools where
  strings := #["", "zero \x00 and 😀", "LA;", "LB;", "V", "VLL", "é"]
  types := #[2, 3, 4]
  protos := #[⟨4, 2, []⟩, ⟨5, 2, [0, 1]⟩]
  fields := #[⟨0, 1, 6⟩]
  methods := #[⟨1, 1, 6⟩]

/-- One definition with all that is optional and one with nothing. -/
def classDefs : List ClassDef :=
  [⟨0, 0xFFFFFFFF, some 1, [1, 0, 1], some 0, 0, 0, none⟩, ⟨1, 0, none, [], none, 0, 0, none⟩]

theorem writable : Layout.Writable 39 pools classDefs where
  supported := by decide
  closed := ⟨by decide, by decide, by decide, by decide⟩
  parameters := by decide
  fields := by decide
  methods := by decide
  inRange := by
    intro definition member
    simp only [classDefs, List.mem_cons, List.not_mem_nil, or_false] at member
    rcases member with rfl | rfl
    · exact ⟨by decide, by decide, by decide, by decide, nofun⟩
    · exact ⟨by decide, nofun, nofun, nofun, nofun⟩
  interfaces := by decide
  words := by decide
  bare := by decide
  distinct := by decide
  size := by decide +kernel

end MixedSample

theorem Container.parse_image_mixed : Layout.Writable 39 MixedSample.pools MixedSample.classDefs ∧
    ∃ header, header.version = 39 ∧
      (parse (Layout.image 39 MixedSample.pools MixedSample.classDefs).toArray false).outcome =
        .ok ⟨header, MixedSample.pools, MixedSample.classDefs.toArray,
          (Layout.image 39 MixedSample.pools MixedSample.classDefs).toArray⟩ :=
  ⟨MixedSample.writable, parse_image MixedSample.writable⟩

end DexAtlas
