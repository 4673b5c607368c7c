import DexAtlas.Proofs.Targets

/-!
# Decoding undoes assembling

Instructions of a version, with operands in the range of their format, are assembled one behind the
other. Decoding the units gives the same instructions back, each where the units before it end.
-/
namespace DexAtlas.Instruction

variable {version value pc : Nat} {resolve : Resolver} {insn : Instruction}
  {insns : List Instruction}

/-! ### Tables -/

/-- A table that its format can hold. -/
inductive TableInFormat : Format → Payload → Prop
  | packed {firstKey : Int} {targets : List Int} (few : targets.length < 0x10000)
    (key32 : Signed 32 firstKey) (each32 : ∀ target ∈ targets, Signed 32 target) :
    TableInFormat .packedSwitchPayload (.packedSwitch firstKey targets)
  | sparse {keys targets : List Int} (few : keys.length < 0x10000)
    (paired : targets.length = keys.length) (keys32 : ∀ key ∈ keys, Signed 32 key)
    (each32 : ∀ target ∈ targets, Signed 32 target) :
    TableInFormat .sparseSwitchPayload (.sparseSwitch keys targets)
  | array {element count : Nat} {data : List UInt8} (width8 : element ∈ [1, 2, 4, 8])
    (count32 : count < 0x100000000) (filled : data.length = element * count) :
    TableInFormat .arrayPayload (.arrayData element count data)

theorem TableInFormat.isPayload {format : Format} {table : Payload}
    (fits : TableInFormat format table) : format.isPayload = true := by
  cases fits <;> rfl

theorem InFormat.isFixed {format : Format} {operands : List Operand}
    (fits : InFormat format operands) : format.isPayload = false := by
  cases fits <;> rfl

theorem length_integerUnits (i : Int) : (integerUnits i).length = 2 := length_unitsOf 2 _

theorem length_flatMap_integerUnits (list : List Int) :
    (list.flatMap integerUnits).length = list.length * 2 := by
  induction list with
  | nil => rfl
  | cons i rest ih =>
    rw [List.flatMap_cons, List.length_append, ih, length_integerUnits, List.length_cons]
    omega

theorem integersOf_flatMap {list : List Int} (each32 : ∀ i ∈ list, Signed 32 i) :
    integersOf (list.flatMap integerUnits) = list := by
  induction list with
  | nil => rfl
  | cons i rest ih =>
    rw [List.flatMap_cons, integersOf_integerUnits (each32 i (by simp)),
      ih fun j member => each32 j (by simp [member])]

theorem take_flatMap_integerUnits (list : List Int) (tail : List UInt16) :
    (list.flatMap integerUnits ++ tail).take (list.length * 2) = list.flatMap integerUnits :=
  List.take_left' (length_flatMap_integerUnits list)

theorem drop_flatMap_integerUnits (list : List Int) (tail : List UInt16) :
    (list.flatMap integerUnits ++ tail).drop (list.length * 2) = tail :=
  List.drop_left' (length_flatMap_integerUnits list)

theorem length_dataUnits (data : List UInt8) : (dataUnits data).length = (data.length + 1) / 2 := by
  fun_induction dataUnits data with
  | case1 low high rest ih =>
    simp only [List.length_cons, ih]
    omega
  | case2 => simp
  | case3 => rfl

theorem bytesOf_bytePair (low high : UInt8) (rest : List UInt16) :
    bytesOf (bytePair low.toNat high.toNat :: rest) = low :: high :: bytesOf rest := by
  have whole := toNat_bytePair low.toNat_lt high.toNat_lt
  have lowPart : UInt8.ofNat (low.toNat + 0x100 * high.toNat) = low := by
    apply UInt8.toNat.inj
    rw [UInt8.toNat_ofNat', Nat.add_mul_mod_self_left, Nat.mod_eq_of_lt low.toNat_lt]
  have highPart : (low.toNat + 0x100 * high.toNat) / 256 = high.toNat := by
    have := low.toNat_lt
    omega
  simp only [bytesOf, List.flatMap_cons, whole, Bytes.toLittleEndian, lowPart, highPart,
    UInt8.ofNat_toNat, List.cons_append, List.nil_append]

theorem take_bytesOf_dataUnits (data : List UInt8) :
    (bytesOf (dataUnits data)).take data.length = data := by
  fun_induction dataUnits data with
  | case1 low high rest ih =>
    rw [bytesOf_bytePair]
    simp only [List.length_cons, List.take_succ_cons, ih]
  | case2 low => exact congrArg (List.take 1) (bytesOf_bytePair low 0 [])
  | case3 => rfl

theorem packedSwitchAt_units {firstKey : Int} {targets : List Int}
    (few : targets.length < 0x10000) (key32 : Signed 32 firstKey)
    (each32 : ∀ target ∈ targets, Signed 32 target) (tail : List UInt16) :
    packedSwitchAt pc (payloadUnits value (.packedSwitch firstKey targets) ++ tail) =
      .ok (.packedSwitch firstKey targets, 4 + targets.length * 2) := by
  have shape : payloadUnits value (.packedSwitch firstKey targets) ++ tail =
      UInt16.ofNat value :: unitsOf 1 targets.length ++ integerUnits firstKey ++
        (targets.flatMap integerUnits ++ tail) := by
    simp only [payloadUnits, List.append_assoc]
  have enough : targets.length * 2 ≤ (targets.flatMap integerUnits ++ tail).length := by
    rw [List.length_append, length_flatMap_integerUnits]
    omega
  rw [shape]
  -- with the units in this shape the reader's indexes compute, and each piece is one field
  show (do
    needUnits "packed-switch header" pc 4 _
    let size := unitsValue (unitsOf 1 targets.length)
    let body := targets.flatMap integerUnits ++ tail
    needUnits "packed-switch targets" (pc + 4) (size * 2) body
    let firstKey := signExtend 32 (unitsValue (integerUnits firstKey))
    return (Payload.packedSwitch firstKey (integersOf (body.take (size * 2))), 4 + size * 2)) = _
  rw [unitsValue_unitsOf few, signExtend_integerUnits key32]
  dsimp only
  rw [needUnits_of_le enough, take_flatMap_integerUnits, integersOf_flatMap each32]
  rfl

theorem sparseSwitchAt_units {keys targets : List Int} (few : keys.length < 0x10000)
    (paired : targets.length = keys.length) (keys32 : ∀ key ∈ keys, Signed 32 key)
    (each32 : ∀ target ∈ targets, Signed 32 target) (tail : List UInt16) :
    sparseSwitchAt pc (payloadUnits value (.sparseSwitch keys targets) ++ tail) =
      .ok (.sparseSwitch keys targets, 2 + keys.length * 4) := by
  have shape : payloadUnits value (.sparseSwitch keys targets) ++ tail =
      UInt16.ofNat value :: unitsOf 1 keys.length ++
        (keys.flatMap integerUnits ++ (targets.flatMap integerUnits ++ tail)) := by
    simp only [payloadUnits, List.append_assoc]
  have enough : keys.length * 4 ≤
      (keys.flatMap integerUnits ++ (targets.flatMap integerUnits ++ tail)).length := by
    simp only [List.length_append, length_flatMap_integerUnits]
    omega
  rw [shape]
  show (do
    needUnits "sparse-switch header" pc 2 _
    let size := unitsValue (unitsOf 1 keys.length)
    let body := keys.flatMap integerUnits ++ (targets.flatMap integerUnits ++ tail)
    needUnits "sparse-switch entries" (pc + 2) (size * 4) body
    let keys := integersOf (body.take (size * 2))
    let targets := integersOf ((body.drop (size * 2)).take (size * 2))
    return (Payload.sparseSwitch keys targets, 2 + size * 4)) = _
  rw [unitsValue_unitsOf few]
  dsimp only
  rw [needUnits_of_le enough, take_flatMap_integerUnits, drop_flatMap_integerUnits, ← paired,
    take_flatMap_integerUnits, integersOf_flatMap keys32, integersOf_flatMap each32]
  rfl

theorem arrayDataAt_units {width count : Nat} {data : List UInt8} (element : width ∈ [1, 2, 4, 8])
    (count32 : count < 0x100000000) (filled : data.length = width * count) (tail : List UInt16) :
    arrayDataAt pc (payloadUnits value (.arrayData width count data) ++ tail) =
      .ok (.arrayData width count data, 4 + (width * count + 1) / 2) := by
  have shape : payloadUnits value (.arrayData width count data) ++ tail =
      UInt16.ofNat value :: unitsOf 1 width ++ unitsOf 2 count ++ (dataUnits data ++ tail) := by
    simp only [payloadUnits, List.append_assoc]
  have units : (dataUnits data).length = (width * count + 1) / 2 := by
    rw [length_dataUnits, filled]
  have enough : (width * count + 1) / 2 ≤ (dataUnits data ++ tail).length := by
    rw [List.length_append, units]
    omega
  have width16 : width < 0x10000 := by
    simp only [List.mem_cons, List.not_mem_nil, or_false] at element
    omega
  rw [shape]
  show (do
    needUnits "array-data header" pc 4 _
    let width := unitsValue (unitsOf 1 width)
    let count := unitsValue (unitsOf 2 count)
    unless width ∈ [1, 2, 4, 8] do
      throw (Error.of (.elementWidth width))
    let body := dataUnits data ++ tail
    needUnits "array-data elements" (pc + 4) ((width * count + 1) / 2) body
    return (Payload.arrayData width count
      ((bytesOf (body.take ((width * count + 1) / 2))).take (width * count)),
      4 + (width * count + 1) / 2)) = _
  rw [unitsValue_unitsOf width16, unitsValue_unitsOf count32]
  dsimp only
  rw [needUnits_of_le enough, List.take_left' units, ← filled, take_bytesOf_dataUnits]
  simp only [element]
  rfl

/-- A table is as wide as it has units. -/
theorem bodyAt_table {opcode : Opcode} {table : Payload} (fits : TableInFormat opcode.format table)
    (tail : List UInt16) :
    bodyAt resolve opcode pc (payloadUnits value table ++ tail) =
      .ok ([], some table, (payloadUnits value table).length) := by
  obtain ⟨name, format, reference, reference2, effects, spans⟩ := opcode
  cases fits with
  | @packed firstKey targets few key32 each32 =>
    have width : (payloadUnits value (.packedSwitch firstKey targets)).length =
        4 + targets.length * 2 := by
      simp only [payloadUnits, List.length_append, List.length_cons, length_unitsOf,
        length_flatMap_integerUnits, length_integerUnits]
    rw [bodyAt, packedSwitchAt_units few key32 each32, width]
    rfl
  | @sparse keys targets few paired keys32 each32 =>
    have width : (payloadUnits value (.sparseSwitch keys targets)).length =
        2 + keys.length * 4 := by
      simp only [payloadUnits, List.length_append, List.length_cons, length_unitsOf,
        length_flatMap_integerUnits]
      omega
    rw [bodyAt, sparseSwitchAt_units few paired keys32 each32, width]
    rfl
  | @array element count data width8 count32 filled =>
    have width : (payloadUnits value (.arrayData element count data)).length =
        4 + (element * count + 1) / 2 := by
      simp only [payloadUnits, List.length_append, List.length_cons, length_unitsOf,
        length_dataUnits, filled]
    rw [bodyAt, arrayDataAt_units width8 count32 filled, width]
    rfl

/-! ### One instruction -/

/-- An instruction that a version has, with operands or a table that its format can hold. -/
structure Encodable (version : Nat) (resolve : Resolver) (insn : Instruction) : Prop where
  defined : insn.opcode ∈ InstructionSet.inVersion version
  body : match insn.payload with
    | some table => insn.operands = [] ∧ TableInFormat insn.format table
    | none => InFormat insn.format insn.operands ∧
        Accepted resolve insn.operands (pools insn.opcode)

/-- The number of units of an instruction. -/
def unitCount (version : Nat) (insn : Instruction) : Nat :=
  ((assemble version insn).getD []).length

theorem unitCount_of_assemble {units : List UInt16} (assembled : assemble version insn = some units) :
    unitCount version insn = units.length := by
  rw [unitCount, assembled, Option.getD_some]

/-- The instruction as it stands at an address, with its indexes resolved. -/
def placedAt (version : Nat) (resolve : Resolver) (pc : Nat) (insn : Instruction) : Instruction where
  offset := 2 * pc
  code := (insn.opcode.valueAt? version).getD 0 % 0x100
  opcode := insn.opcode
  length := unitCount version insn
  operands := answered resolve insn.operands (pools insn.opcode)
  payload := insn.payload

theorem keyOf_table (low : value % 0x100 = 0) (least : 0x100 ≤ value) (most : value < 0x10000) :
    keyOf (UInt16.ofNat value) = value := by
  have whole := toNat_ofNat16 most
  rw [keyOf, if_pos, whole]
  rw [lowByte, highByte, whole]
  omega

theorem keyOf_fixed {first : UInt16} (low : lowByte first = value)
    (high : value = 0 → highByte first = 0) : keyOf first = value := by
  rw [keyOf, if_neg, low]
  rintro ⟨zero, positive⟩
  exact positive (high (low ▸ zero))

theorem opcodeAt_of_key {first : UInt16} {opcode : Opcode} (member : opcode ∈ InstructionSet.all)
    (found : opcode.valueAt? version = some value) (key : keyOf first = value) :
    opcodeAt version pc first = .ok opcode := by
  rw [opcodeAt, key, InstructionSet.lookup?_of_mem member found]

theorem decodeAt_of_body {first : UInt16} {rest tail : List UInt16}
    (member : insn.opcode ∈ InstructionSet.all)
    (found : insn.opcode.valueAt? version = some value)
    (assembled : assemble version insn = some (first :: rest)) (key : keyOf first = value)
    (low : lowByte first = value % 0x100) (short : pc + (first :: rest).length ≤ 2 ^ 31)
    (body : bodyAt resolve insn.opcode pc (first :: rest ++ tail) =
      .ok (answered resolve insn.operands (pools insn.opcode), insn.payload,
        (first :: rest).length)) :
    decodeAt version resolve pc first (rest ++ tail) =
      .ok (placedAt version resolve pc insn, (first :: rest).length) := by
  have positive : 0 < (first :: rest).length := by simp
  have offset : pc * 2 % UInt32.size = 2 * pc := by
    rw [UInt32.size]
    omega
  have length : (first :: rest).length % UInt32.size = (first :: rest).length := by
    rw [UInt32.size]
    omega
  have width := unitCount_of_assemble assembled
  rw [List.cons_append] at body
  rw [decodeAt, opcodeAt_of_key member found key]
  simp only [bind, Except.bind, body, placedAt, offset, length, low, found, width, Option.getD_some]
  rfl

theorem decodeAt_assemble (encodable : Encodable version resolve insn) :
    ∃ first rest, assemble version insn = some (first :: rest) ∧
      ∀ pc tail, pc + (first :: rest).length ≤ 2 ^ 31 →
        decodeAt version resolve pc first (rest ++ tail) =
          .ok (placedAt version resolve pc insn, (first :: rest).length) := by
  obtain ⟨defined, body⟩ := encodable
  obtain ⟨member, isDefined⟩ := List.mem_filter.mp defined
  obtain ⟨value, found⟩ := Option.isSome_iff_exists.mp isDefined
  obtain ⟨span, listed, rfl⟩ := VersionSpan.value_of_valueAt? found
  -- a table has its value as the whole first unit, all other instructions as its low byte
  have range := InstructionSet.value_range insn.opcode member span listed
  cases payload : insn.payload with
  | some table =>
    rw [payload] at body
    obtain ⟨noOperands, fits⟩ := body
    obtain ⟨rest, shape⟩ : ∃ rest, payloadUnits span.value table = UInt16.ofNat span.value :: rest := by
      cases table <;> exact ⟨_, rfl⟩
    obtain ⟨lowZero, least, most⟩ := range.1 fits.isPayload
    have assembled : assemble version insn = some (UInt16.ofNat span.value :: rest) := by
      rw [← shape, assemble]
      simp only [found, payload]
      rfl
    refine ⟨_, rest, assembled, ?_⟩
    intro pc tail short
    apply decodeAt_of_body member found assembled (keyOf_table lowZero least most) _ short
    · rw [← shape, noOperands, payload]
      exact bodyAt_table fits tail
    · rw [lowByte, toNat_ofNat16 most]
  | none =>
    rw [payload] at body
    obtain ⟨fits, accepted⟩ := body
    obtain ⟨small, zero⟩ := range.2 fits.isFixed
    obtain ⟨first, rest, units, width, low, high, read⟩ := fixedUnits_inFormat small fits accepted
    have assembled : assemble version insn = some (first :: rest) := by
      rw [← units, assemble]
      simp only [found, payload]
      rfl
    refine ⟨first, rest, assembled, ?_⟩
    intro pc tail short
    apply decodeAt_of_body member found assembled (keyOf_fixed low fun h => high (zero h)) _ short
    · have enough : (first :: rest).length ≤ (first :: rest ++ tail).length := by
        rw [List.length_append]
        omega
      rw [bodyAt_fixed width, operandsOf_append tail width, read, needUnits_of_le enough,
        payload]
      rfl
    · rw [low, Nat.mod_eq_of_lt small]

/-! ### Sequences of instructions -/

/-- Instructions one behind the other, from address `pc` on. -/
def placed (version : Nat) (resolve : Resolver) : Nat → List Instruction → List Instruction
  | _, [] => []
  | pc, insn :: rest =>
    placedAt version resolve pc insn ::
      placed version resolve (pc + unitCount version insn) rest

theorem assembleAll_cons {first : UInt16} {rest units : List UInt16}
    (assembled : assemble version insn = some (first :: rest))
    (others : assembleAll version insns = some units) :
    assembleAll version (insn :: insns) = some (first :: rest ++ units) := by
  unfold assembleAll at others ⊢
  obtain ⟨lists, all, rfl⟩ := Option.map_eq_some_iff.mp others
  simp [List.mapM_cons, assembled, all]

theorem sweeps_placed (encodable : ∀ insn ∈ insns, Encodable version resolve insn) :
    ∃ units, assembleAll version insns = some units ∧ ∀ pc, pc + units.length ≤ 2 ^ 31 →
      Sweeps version resolve pc units (placed version resolve pc insns) := by
  induction insns with
  | nil => exact ⟨[], rfl, fun pc _ => .done pc⟩
  | cons insn insns ih =>
    obtain ⟨units, others, sweeps⟩ := ih fun other later => encodable other (by simp [later])
    obtain ⟨first, rest, assembled, decoded⟩ := decodeAt_assemble (encodable insn (by simp))
    refine ⟨first :: rest ++ units, assembleAll_cons assembled others, ?_⟩
    intro pc short
    rw [List.length_append] at short
    -- the units of the others are the tail that this instruction is decoded in front of
    refine .step (decoded pc units (by omega)) ?_
    show Sweeps version resolve _ ((first :: rest ++ units).drop (first :: rest).length) _
    rw [List.drop_left, unitCount_of_assemble assembled]
    exact sweeps (pc + (first :: rest).length) (by omega)

/-! ### Tables that instructions point at -/

/-- The kind of table that an instruction uses. -/
inductive TableFor : String → Payload → Prop
  | packed (firstKey : Int) (targets : List Int) :
    TableFor "packed-switch" (.packedSwitch firstKey targets)
  | sparse (keys targets : List Int) : TableFor "sparse-switch" (.sparseSwitch keys targets)
  | array (element count : Nat) (data : List UInt8) :
    TableFor "fill-array-data" (.arrayData element count data)

/-- The target of the instruction is the address of a table of its kind. -/
def PointsAtTable (insns : List Instruction) (insn : Instruction) : Prop :=
  ∃ distance, .target distance ∈ insn.operands ∧ ∃ other ∈ insns, ∃ table,
    other.payload = some table ∧ TableFor insn.name table ∧
      (other.address : Int) = insn.address + distance

/-- A table in a decoded instruction shows in the instruction's format. -/
theorem TableFor.tableKind {name : String} {table : Payload} {format : Format} {width : Nat}
    (kind : TableFor name table) (sized : Sized format (some table) width) :
    TableKind name format := by
  cases kind with
  | packed =>
    obtain ⟨rfl, -⟩ := sized
    exact .packed
  | sparse =>
    obtain ⟨rfl, -⟩ := sized
    exact .sparse
  | array =>
    obtain ⟨rfl, -⟩ := sized
    exact .array

theorem PointsAtTable.findsTable (points : PointsAtTable insns insn)
    (sized : ∀ other ∈ insns, Sized other.format other.payload other.length) :
    FindsTable insns.toArray insn := by
  obtain ⟨distance, target, other, listed, table, payload, kind, place⟩ := points
  have itsSize := sized other listed
  rw [payload] at itsSize
  exact ⟨distance, target, other, by simpa using listed, place, kind.tableKind itsSize⟩

/-- Decoding undoes assembling: the units of instructions that the version has and whose operands
and tables fit their formats are decoded into the same instructions, each at the sum of the widths
before it and with the resolver's answer in the place of every index. -/
theorem decode_assembleAll (encodable : ∀ insn ∈ insns, Encodable version resolve insn)
    (tables : ∀ insn ∈ placed version resolve 0 insns, insn.format = .f31t →
      PointsAtTable (placed version resolve 0 insns) insn) :
    ∃ units, assembleAll version insns = some units ∧ (units.length < 2 ^ 31 →
      decode version resolve units = .ok (placed version resolve 0 insns).toArray) := by
  obtain ⟨units, assembled, sweeps⟩ := sweeps_placed encodable
  refine ⟨units, assembled, ?_⟩
  intro short
  have run := sweeps 0 (by omega)
  rw [decode_ok_iff short]
  constructor
  · exact run
  · intro insn member uses
    exact (tables insn (by simpa using member) uses).findsTable (run.sized (by omega))

/-- An instruction to assemble, which has no place yet. -/
def unplaced (opcode : Opcode) (operands : List Operand) (payload : Option Payload) :
    Instruction where
  offset := 0
  code := 0
  opcode := opcode
  length := 0
  operands := operands
  payload := payload

open InstructionSet in
/-- A switch and an array that stand before their tables, around a call with two indexes, a full
list of registers and the least literals of their formats. -/
def callSample : List Instruction :=
  [unplaced (plain 0x2b "packed-switch" .f31t mayBranch) [.register 7, .target 15] none,
    unplaced (plain 0x19 "const-wide/high16" .f21lh setsWide)
      [.register 200, .literal (-0x8000000000000000)] none,
    unplaced ⟨"invoke-polymorphic", .f45cc, some .method, some .proto, calls, [.since 38 0xfa]⟩
      [.registers [1, 2, 15, 4, 5], .reference (.callSite 3), .reference (.callSite 0xffff)] none,
    unplaced (plain 0x12 "const/4" .f11n sets) [.register 3, .literal (-8)] none,
    unplaced (plain 0x26 "fill-array-data" .f31t proceeds) [.register 0, .target 13] none,
    unplaced (plain 0x0e "return-void" .f10x []) [] none,
    unplaced (plain 0x00 "nop" .f10x proceeds) [] none,
    unplaced (plain 0x100 "packed-switch-payload" .packedSwitchPayload []) []
      (some (.packedSwitch (-1) [3, -0x80000000])),
    unplaced (plain 0x300 "array-payload" .arrayPayload []) []
      (some (.arrayData 1 3 [1, 2, 255]))]

def callResolver : Resolver
  | .proto, index => .ok (.proto index "(I)V")
  | .method, index => .ok (.method index ⟨"LA;", "run", "()V"⟩)
  | _, index => .error (.of (.noReferenceKind index))

theorem callSample_encodable : ∀ insn ∈ callSample, Encodable 39 callResolver insn := by
  have defined : ∀ insn ∈ callSample, insn.opcode ∈ InstructionSet.inVersion 39 := by
    decide +kernel
  intro insn member
  refine ⟨defined insn member, ?_⟩
  simp only [callSample, List.mem_cons, List.not_mem_nil, or_false] at member
  rcases member with rfl | rfl | rfl | rfl | rfl | rfl | rfl | rfl | rfl
  · exact ⟨.f31t (by decide) (by decide), trivial⟩
  · exact ⟨.f21lh (by decide) (by decide) (by decide), trivial⟩
  · exact ⟨.f45cc (by decide) (by decide) (by decide) (by decide), ⟨_, rfl⟩, ⟨_, rfl⟩, trivial⟩
  · exact ⟨.f11n (by decide) (by decide), trivial⟩
  · exact ⟨.f31t (by decide) (by decide), trivial⟩
  · exact ⟨.f10x, trivial⟩
  · exact ⟨.f10x, trivial⟩
  · exact ⟨rfl, .packed (by decide) (by decide) (by decide)⟩
  · exact ⟨rfl, .array (by decide) (by decide) rfl⟩

theorem callSample_tables : ∀ insn ∈ placed 39 callResolver 0 callSample, insn.format = .f31t →
    PointsAtTable (placed 39 callResolver 0 callSample) insn := by
  have pointing : ∀ insn ∈ placed 39 callResolver 0 callSample, insn.format = .f31t →
      insn.operands = [.register 7, .target 15] ∧ insn.name = "packed-switch" ∧ insn.address = 0 ∨
      insn.operands = [.register 0, .target 13] ∧ insn.name = "fill-array-data" ∧
        insn.address = 10 := by
    decide +kernel
  have switchTable : ∃ other ∈ placed 39 callResolver 0 callSample, other.address = 15 ∧
      other.payload = some (.packedSwitch (-1) [3, -0x80000000]) := by
    decide +kernel
  have arrayTable : ∃ other ∈ placed 39 callResolver 0 callSample, other.address = 23 ∧
      other.payload = some (.arrayData 1 3 [1, 2, 255]) := by
    decide +kernel
  intro insn member uses
  rcases pointing insn member uses with ⟨operands, name, address⟩ | ⟨operands, name, address⟩
  · obtain ⟨other, listed, place, payload⟩ := switchTable
    refine ⟨15, by simp [operands], other, listed, _, payload, name ▸ .packed _ _, ?_⟩
    rw [place, address]
    rfl
  · obtain ⟨other, listed, place, payload⟩ := arrayTable
    refine ⟨13, by simp [operands], other, listed, _, payload, name ▸ .array _ _ _, ?_⟩
    rw [place, address]
    rfl

theorem decode_assembleAll_calls :
    (∀ insn ∈ callSample, Encodable 39 callResolver insn) ∧
      (∀ insn ∈ placed 39 callResolver 0 callSample, insn.format = .f31t →
        PointsAtTable (placed 39 callResolver 0 callSample) insn) ∧
      ∃ units, assembleAll 39 callSample = some units ∧ units.length = 29 ∧
        decode 39 callResolver units = .ok (placed 39 callResolver 0 callSample).toArray := by
  obtain ⟨units, assembled, decoded⟩ :=
    decode_assembleAll callSample_encodable callSample_tables
  have total : (assembleAll 39 callSample).map List.length = some 29 := by decide +kernel
  rw [assembled] at total
  have length : units.length = 29 := Option.some.inj total
  exact ⟨callSample_encodable, callSample_tables, units, assembled, length, decoded (by omega)⟩

end DexAtlas.Instruction
