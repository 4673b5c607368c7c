import DexAtlas.Proofs.Targets

/-!
# Decoding code that is put together

An instruction is decoded from its own units: neither the units behind it nor its address matter,
but for the offset that it is given. So the instructions of two pieces of code are, one list behind
the other, those of the whole, with the second list moved by the length of the first piece. Distances
to tables are the same wherever a piece stands.
-/
namespace DexAtlas.Instruction

variable {version pc : Nat} {resolve : Resolver} {opcode : Opcode} {insn : Instruction}
  {units : List UInt16} {list : List Instruction} {insns : Array Instruction}

/-! ### One instruction in front of other units -/

theorem take_drop_append {start count : Nat} (inside : start + count ≤ units.length)
    (tail : List UInt16) :
    ((units ++ tail).drop start).take count = (units.drop start).take count := by
  rw [List.drop_append_of_le_length (by omega), List.take_append_of_le_length]
  rw [List.length_drop]
  omega

theorem needUnits_append {what : String} {need : Nat}
    (enough : needUnits what pc need units = .ok ()) (pc' : Nat) (tail : List UInt16) :
    needUnits what pc' need (units ++ tail) = .ok () := by
  have left := needUnits_ok enough
  apply needUnits_of_le
  rw [List.length_append]
  omega

/-- The units of a table behind its header. -/
theorem needUnits_drop_append {what : String} {need start : Nat}
    (header : start ≤ units.length)
    (enough : needUnits what pc need (units.drop start) = .ok ()) (pc' : Nat)
    (tail : List UInt16) : needUnits what pc' need ((units ++ tail).drop start) = .ok () := by
  rw [List.drop_append_of_le_length header]
  exact needUnits_append enough pc' tail

variable {table : Payload} {width : Nat}

theorem packedSwitchAt_append (read : packedSwitchAt pc units = .ok (table, width)) (pc' : Nat)
    (tail : List UInt16) : packedSwitchAt pc' (units ++ tail) = .ok (table, width) := by
  obtain ⟨⟨⟩, header, read⟩ := except_bind_ok read
  obtain ⟨⟨⟩, targets, read⟩ := except_bind_ok read
  have four := needUnits_ok header
  have body := needUnits_ok targets
  rw [List.length_drop] at body
  rw [packedSwitchAt, needUnits_append header, take_drop_append (by omega),
    take_drop_append (by omega)]
  simp only [bind, Except.bind, needUnits_drop_append four targets]
  rw [take_drop_append (by omega)]
  exact read

theorem sparseSwitchAt_append (read : sparseSwitchAt pc units = .ok (table, width)) (pc' : Nat)
    (tail : List UInt16) : sparseSwitchAt pc' (units ++ tail) = .ok (table, width) := by
  obtain ⟨⟨⟩, header, read⟩ := except_bind_ok read
  obtain ⟨⟨⟩, entries, read⟩ := except_bind_ok read
  have two := needUnits_ok header
  have body := needUnits_ok entries
  rw [List.length_drop] at body
  rw [sparseSwitchAt, needUnits_append header, take_drop_append (by omega)]
  simp only [bind, Except.bind, needUnits_drop_append two entries]
  rw [take_drop_append (by omega), List.drop_drop, take_drop_append (by omega), ← List.drop_drop]
  exact read

theorem arrayDataAt_append (read : arrayDataAt pc units = .ok (table, width)) (pc' : Nat)
    (tail : List UInt16) : arrayDataAt pc' (units ++ tail) = .ok (table, width) := by
  obtain ⟨⟨⟩, header, read⟩ := except_bind_ok read
  have four := needUnits_ok header
  rw [arrayDataAt, needUnits_append header, take_drop_append (by omega),
    take_drop_append (by omega)]
  dsimp only at read
  split at read
  next known =>
    obtain ⟨⟨⟩, elements, read⟩ := except_bind_ok read
    have body := needUnits_ok elements
    rw [List.length_drop] at body
    simp only [bind, Except.bind, known, if_true, needUnits_drop_append four elements]
    rw [take_drop_append (by omega)]
    exact read
  next => cases read

/-- What follows an opcode is read from the units of its instruction alone. -/
theorem bodyAt_append {operands : List Operand} {payload : Option Payload}
    (read : bodyAt resolve opcode pc units = .ok (operands, payload, width)) (pc' : Nat)
    (tail : List UInt16) :
    bodyAt resolve opcode pc' (units ++ tail) = .ok (operands, payload, width) := by
  unfold bodyAt at read
  split at read
  next format =>
    obtain ⟨⟨table, _⟩, parsed, built⟩ := except_bind_ok read
    simp only [bodyAt, format, packedSwitchAt_append parsed]
    exact built
  next format =>
    obtain ⟨⟨table, _⟩, parsed, built⟩ := except_bind_ok read
    simp only [bodyAt, format, sparseSwitchAt_append parsed]
    exact built
  next format =>
    obtain ⟨⟨table, _⟩, parsed, built⟩ := except_bind_ok read
    simp only [bodyAt, format, arrayDataAt_append parsed]
    exact built
  next notPacked notSparse notArray =>
    obtain ⟨fixedWidth, fixed⟩ := width?_of_fixed notPacked notSparse notArray
    rw [fixed, Option.getD_some] at read
    obtain ⟨⟨⟩, enough, read⟩ := except_bind_ok read
    -- a fixed format sees no unit beyond its width, so those units can be cut off and others put on
    have inside := needUnits_ok enough
    have cut : opcode.format.width? = some (units.take fixedWidth).length := by
      rw [List.length_take_of_le inside, fixed]
    have same : operandsOf resolve opcode (units ++ tail) = operandsOf resolve opcode units := by
      conv => lhs; rw [← List.take_append_drop fixedWidth units, List.append_assoc]
      conv => rhs; rw [← List.take_append_drop fixedWidth units]
      rw [operandsOf_append _ cut, operandsOf_append _ cut]
    rw [bodyAt_fixed fixed, needUnits_append enough, same]
    cases found : operandsOf resolve opcode units with
    | ok operands =>
      rw [found] at read
      exact read
    | error error =>
      rw [found] at read
      cases read

theorem opcodeAt_moved {first : UInt16} (found : opcodeAt version pc first = .ok opcode)
    (pc' : Nat) : opcodeAt version pc' first = .ok opcode :=
  opcodeAt_ok_iff.mpr (opcodeAt_ok_iff.mp found)

/-- At another address and in front of other units there is the same instruction, but for its
offset. -/
theorem decodeAt_moved {first : UInt16} {rest : List UInt16}
    (decoded : decodeAt version resolve pc first rest = .ok (insn, width)) (pc' : Nat)
    (tail : List UInt16) :
    decodeAt version resolve pc' first (rest ++ tail) =
      .ok ({ insn with offset := pc' * 2 % UInt32.size }, width) := by
  obtain ⟨opcode, row, decoded⟩ := except_bind_ok decoded
  obtain ⟨⟨operands, payload, width⟩, body, built⟩ := except_bind_ok decoded
  cases built
  have bodyThere := bodyAt_append body pc' tail
  rw [List.cons_append] at bodyThere
  simp only [decodeAt, opcodeAt_moved row, bodyThere, bind, Except.bind]
  rfl

/-! ### Runs -/

/-- The instruction so many bytes further on. -/
def moved (bytes : Nat) (insn : Instruction) : Instruction :=
  { insn with offset := insn.offset + bytes }

theorem address_moved (count : Nat) (insn : Instruction) :
    (moved (2 * count) insn).address = insn.address + count := by
  simp only [moved, address]
  omega

/-- The run over the first units goes on with that over the others. -/
theorem Sweeps.append {more : List UInt16} {later : List Instruction}
    (run : Sweeps version resolve pc units list)
    (others : Sweeps version resolve (pc + units.length) more later) :
    Sweeps version resolve pc (units ++ more) (list ++ later) := by
  induction run with
  | done pc => simpa using others
  | @step pc width first rest insn insns decoded _ ih =>
    have placed := decodeAt_ok decoded
    have within := placed.within
    have here := decodeAt_moved decoded pc more
    rw [← placed.offset] at here
    have ends : pc + width + ((first :: rest).drop width).length = pc + (first :: rest).length := by
      rw [List.length_drop]
      omega
    have next := ih (ends ▸ others)
    rw [← List.drop_append_of_le_length within] at next
    exact .step here next

/-- Code at a higher address is decoded into the same instructions, moved. -/
theorem Sweeps.moved (run : Sweeps version resolve pc units list) (count : Nat)
    (short : count + pc + units.length ≤ 2 ^ 31) :
    Sweeps version resolve (count + pc) units (list.map (moved (2 * count))) := by
  induction run with
  | done pc => exact .done _
  | @step pc width first rest insn insns decoded _ ih =>
    have placed := decodeAt_ok decoded
    have within := placed.within
    have left : ((first :: rest).drop width).length = (first :: rest).length - width :=
      List.length_drop
    have there := decodeAt_moved decoded (count + pc) []
    have place : (count + pc) * 2 % UInt32.size = insn.offset + 2 * count := by
      rw [List.length_cons] at short
      rw [placed.offset, UInt32.size]
      omega
    rw [place, List.append_nil] at there
    have next := ih (by omega)
    rw [← Nat.add_assoc] at next
    exact .step there next

/-! ### Tables -/

theorem FindsTable.mono {more : Array Instruction} (finds : FindsTable insns insn)
    (listed : ∀ other ∈ insns, other ∈ more) : FindsTable more insn := by
  obtain ⟨distance, target, other, member, place, kind⟩ := finds
  exact ⟨distance, target, other, listed other member, place, kind⟩

/-- A table that is moved together with its instruction is found at the same distance. -/
theorem FindsTable.moved (finds : FindsTable insns insn) (count : Nat) :
    FindsTable (insns.map (moved (2 * count))) (moved (2 * count) insn) := by
  obtain ⟨distance, target, other, member, place, kind⟩ := finds
  refine ⟨distance, target, Instruction.moved (2 * count) other, Array.mem_map_of_mem member, ?_, kind⟩
  rw [address_moved, address_moved]
  omega

/-- Decoding composes: the code of two pieces, one behind the other, is decoded into the instructions
of the first and those of the second, whose offsets are moved by the bytes of the first. -/
theorem decode_append {front back : List UInt16} {frontInsns backInsns : Array Instruction}
    (short : (front ++ back).length < 2 ^ 31)
    (frontDecoded : decode version resolve front = .ok frontInsns)
    (backDecoded : decode version resolve back = .ok backInsns) :
    decode version resolve (front ++ back) =
      .ok (frontInsns ++ backInsns.map (moved (2 * front.length))) := by
  rw [List.length_append] at short
  obtain ⟨frontRun, frontFinds⟩ := (decode_ok_iff (by omega)).mp frontDecoded
  obtain ⟨backRun, backFinds⟩ := (decode_ok_iff (by omega)).mp backDecoded
  rw [decode_ok_iff (by rw [List.length_append]; exact short)]
  constructor
  · have behind := backRun.moved front.length (by omega)
    rw [Nat.add_comm] at behind
    simpa using frontRun.append behind
  · intro insn member uses
    rcases Array.mem_append.mp member with inFront | inBack
    · exact (frontFinds insn inFront uses).mono fun other listed => by simp [listed]
    · obtain ⟨source, listed, rfl⟩ := Array.mem_map.mp inBack
      have finds := (backFinds source listed uses).moved front.length
      exact finds.mono fun other listed => by simp [listed]

/-- Three instructions in front of their tables, and behind them an instruction that points back. -/
theorem decode_append_switches :
    ∃ frontInsns backInsns,
      (switchSample ++ strayedSample.take 7).length < 2 ^ 31 ∧
      decode 35 (Pools.resolve {}) switchSample = .ok frontInsns ∧
      decode 35 (Pools.resolve {}) (strayedSample.take 7) = .ok backInsns ∧
      decode 35 (Pools.resolve {}) (switchSample ++ strayedSample.take 7) =
        .ok (frontInsns ++ backInsns.map (moved 56)) ∧
      backInsns.toList.map (fun insn => (insn.offset, insn.operands)) =
        [(0, []), (8, [.register 0, .target (-4)])] := by
  have short : (switchSample ++ strayedSample.take 7).length < 2 ^ 31 := by decide
  have frontAccepted : (decode 35 (Pools.resolve {}) switchSample).toOption.isSome := by
    decide +kernel
  have listing : (decode 35 (Pools.resolve {}) (strayedSample.take 7)).toOption.map
      (fun insns => insns.toList.map fun insn => (insn.offset, insn.operands)) =
      some [(0, []), (8, [.register 0, .target (-4)])] := by
    decide +kernel
  cases front : decode 35 (Pools.resolve {}) switchSample with
  | error error =>
    rw [front] at frontAccepted
    cases frontAccepted
  | ok frontInsns =>
    cases back : decode 35 (Pools.resolve {}) (strayedSample.take 7) with
    | error error =>
      rw [back] at listing
      cases listing
    | ok backInsns =>
      rw [back] at listing
      exact ⟨frontInsns, backInsns, short, rfl, rfl, decode_append short front back,
        Option.some.inj listing⟩

end DexAtlas.Instruction
