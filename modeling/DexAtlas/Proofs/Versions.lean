import DexAtlas.Proofs.Operands
import DexAtlas.Proofs.Tiling
import Std.Data.HashMap

/-!
# Newer versions of the instruction set

A row of the instruction set has one value, from its first version on and for good. So a version has
all rows of the versions before it, under the same values, and code that an older version decodes is
decoded by a newer one into the same instructions. Nothing but the row of an instruction depends on
the version.
-/
namespace DexAtlas

/-! ### Rows from version to version -/

namespace InstructionSet

/-- No row loses its value or takes another. -/
theorem open_ended : ∀ row ∈ all, ∃ span, row.spans = [span] ∧ span.high = 0xFFFFFFFF := by
  have single : ∀ row ∈ all, row.spans.length = 1 ∧ ∀ span ∈ row.spans, span.high = 0xFFFFFFFF := by
    decide +kernel
  intro row member
  obtain ⟨one, high⟩ := single row member
  obtain ⟨span, spans⟩ := List.length_eq_one_iff.mp one
  exact ⟨span, spans, high span (by simp [spans])⟩

variable {version older newer value : Nat} {row : Opcode}

theorem valueAt?_newer (member : row ∈ all) (le : older ≤ newer) (fits : newer < UInt32.size)
    (found : row.valueAt? older = some value) : row.valueAt? newer = some value := by
  obtain ⟨span, spans, high⟩ := open_ended row member
  simp only [Opcode.valueAt?, VersionSpan.valueAt?, spans, List.foldl_cons, List.foldl_nil]
    at found ⊢
  split at found
  next inside =>
    -- the span has begun by the older version, and no version is beyond its end
    have still : span.low ≤ newer ∧ newer ≤ span.high := by
      rw [high]
      rw [UInt32.size] at fits
      omega
    rw [if_pos still, found]
  next => cases found

theorem lookup?_eq_some_iff :
    lookup? version value = some row ↔ row ∈ all ∧ row.valueAt? version = some value := by
  constructor
  · intro found
    exact ⟨List.mem_of_find?_eq_some found, by simpa using List.find?_some found⟩
  · rintro ⟨member, found⟩
    exact lookup?_of_mem member found

theorem lookup?_newer (le : older ≤ newer) (fits : newer < UInt32.size)
    (found : lookup? older value = some row) : lookup? newer value = some row := by
  obtain ⟨member, valued⟩ := lookup?_eq_some_iff.mp found
  exact lookup?_of_mem member (valueAt?_newer member le fits valued)

/-! ### Rows by their values -/

/-- Enters a row under the value it has in a version, if it has one there. -/
def enter (version : Nat) (table : Std.HashMap Nat Opcode) (row : Opcode) :
    Std.HashMap Nat Opcode :=
  match row.valueAt? version with
  | some value => table.insert value row
  | none => table

/-- The rows of a version, entered in their order: of two rows with one value the later would
stay. -/
def table (version : Nat) : Std.HashMap Nat Opcode :=
  all.foldl (enter version) ∅

theorem getElem?_foldl_enter (rows : List Opcode) :
    (rows.foldl (enter version) ∅)[value]? =
      rows.reverse.find? fun row => row.valueAt? version == some value := by
  -- from the last row on, since that is the one that counts
  induction rows using List.reverseRecOn with
  | nil => simp
  | append_singleton before last ih =>
    rw [List.foldl_append, List.foldl_cons, List.foldl_nil, List.reverse_append,
      List.reverse_singleton, List.singleton_append, enter]
    cases own : last.valueAt? version with
    | none => rw [List.find?_cons_of_neg (by simp [own]), ih]
    | some other =>
      dsimp only
      rw [Std.HashMap.getElem?_insert]
      by_cases same : other = value
      · rw [List.find?_cons_of_pos (by simp [own, same]), if_pos (by simpa using same)]
      · rw [List.find?_cons_of_neg (by simp [own, same]), if_neg (by simpa using same), ih]

/-- No value is taken twice, so the first row of a value is the last one as well. -/
theorem getElem?_table : (table version)[value]? = lookup? version value := by
  rw [table, getElem?_foldl_enter]
  cases found : all.reverse.find? fun row => row.valueAt? version == some value with
  | some row =>
    have member : row ∈ all := by simpa using List.mem_of_find?_eq_some found
    exact (lookup?_of_mem member (by simpa using List.find?_some found)).symm
  | none =>
    rw [lookup?, eq_comm, List.find?_eq_none]
    simpa [List.find?_eq_none] using found

end InstructionSet

/-! ### Decoding -/

namespace Instruction

variable {older newer pc : Nat} {resolve : Resolver} {first : UInt16} {units : List UInt16}

theorem opcodeAt_newer {opcode : Opcode} (le : older ≤ newer) (fits : newer < UInt32.size)
    (found : opcodeAt older pc first = .ok opcode) : opcodeAt newer pc first = .ok opcode :=
  opcodeAt_ok_iff.mpr (InstructionSet.lookup?_newer le fits (opcodeAt_ok_iff.mp found))

theorem decodeAt_newer {rest : List UInt16} {found : Instruction × Nat} (le : older ≤ newer)
    (fits : newer < UInt32.size) (decoded : decodeAt older resolve pc first rest = .ok found) :
    decodeAt newer resolve pc first rest = .ok found := by
  -- once the row is found, the version is not asked again
  obtain ⟨opcode, row, decoded⟩ := except_bind_ok decoded
  rw [decodeAt, opcodeAt_newer le fits row]
  exact decoded

/-- Every round of an older version is one of a newer version too. -/
theorem Sweeps.mono_version {list : List Instruction} (run : Sweeps older resolve pc units list)
    (le : older ≤ newer) (fits : newer < UInt32.size) : Sweeps newer resolve pc units list := by
  induction run with
  | done pc => exact .done pc
  | step decoded _ ih => exact .step (decodeAt_newer le fits decoded) ih

/-- Newer versions only add instructions. The rows of a version stay under their values in all later
ones, and what is decoded in a version is decoded in every later one, into the same instructions. -/
theorem decode_newer {older newer : UInt32} (le : older ≤ newer) :
    (∀ (value : Nat) (row : Opcode), (InstructionSet.table older.toNat)[value]? = some row →
      (InstructionSet.table newer.toNat)[value]? = some row) ∧
    ∀ (resolve : Resolver) (code : List UInt16) (insns : Array Instruction),
      decode older.toNat resolve code = .ok insns →
        decode newer.toNat resolve code = .ok insns := by
  have fits : newer.toNat < UInt32.size := newer.toNat_lt
  have before : older.toNat ≤ newer.toNat := UInt32.le_iff_toNat_le.mp le
  constructor
  · intro value row
    rw [InstructionSet.getElem?_table, InstructionSet.getElem?_table]
    exact InstructionSet.lookup?_newer before fits
  · intro resolve code insns decoded
    -- the check of the tables looks at the instructions alone
    obtain ⟨run, settled⟩ := decode_ok decoded
    exact decode_of_sweeps (run.mono_version before fits) settled

/-- Switches with their tables, and behind them a call through a call site, which came with
version 38. -/
def callSiteSample : List UInt16 :=
  switchSample ++ [0x00fc, 3, 0]

theorem decode_newer_callSite :
    (38 : UInt32) ≤ 41 ∧
    (InstructionSet.table 41)[0xfc]?.map Opcode.name = some "invoke-custom" ∧
    (∃ insns, decode 38 (Pools.resolve {}) callSiteSample = .ok insns ∧
      decode 41 (Pools.resolve {}) callSiteSample = .ok insns ∧
      insns.toList.map (fun insn => (insn.offset, insn.references)) =
        [(0, []), (6, []), (12, []), (18, []), (20, []), (32, []), (44, []), (56, [.callSite 3])]) ∧
    decode 37 (Pools.resolve {}) callSiteSample = .error (.of (.unknownOpcode 0xfc 28 37)) := by
  have le : (38 : UInt32) ≤ 41 := by decide
  have listing : (decode 38 (Pools.resolve {}) callSiteSample).toOption.map
      (fun insns => insns.toList.map fun insn => (insn.offset, insn.references)) =
      some [(0, []), (6, []), (12, []), (18, []), (20, []), (32, []), (44, []),
        (56, [.callSite 3])] := by
    decide +kernel
  have named : (InstructionSet.lookup? 38 0xfc).map Opcode.name = some "invoke-custom" := by
    decide +kernel
  refine ⟨le, ?_, ?_, by rfl⟩
  · obtain ⟨row, found, name⟩ := Option.map_eq_some_iff.mp named
    rw [← InstructionSet.getElem?_table] at found
    have kept : (InstructionSet.table 41)[0xfc]? = some row := (decode_newer le).1 0xfc row found
    rw [kept, Option.map_some, name]
  · cases decoded : decode 38 (Pools.resolve {}) callSiteSample with
    | error e =>
      rw [decoded] at listing
      cases listing
    | ok insns =>
      rw [decoded] at listing
      exact ⟨insns, rfl, (decode_newer le).2 _ _ insns decoded, Option.some.inj listing⟩

end Instruction

end DexAtlas
