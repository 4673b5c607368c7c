import DexAtlas.Proofs.Operands
import DexAtlas.Proofs.Tiling

/-!
# Tables that instructions point at

A switch or array instruction says how far away its table is. The check adds this distance in 32
bits and looks the sum up by halving. Decoded instructions stand in the order of their addresses,
and no address reaches `2 ^ 31`; so the search finds whatever is at an address, and a sum that is
wrapped around is never an address. What is accepted is exactly what points at a table in whole
numbers.
-/
namespace DexAtlas

theorem InstructionSet.table_names : ∀ row ∈ InstructionSet.all, row.format = .f31t →
    row.name ∈ ["packed-switch", "sparse-switch", "fill-array-data"] := by
  decide +kernel

namespace Instruction

variable {version pc stop : Nat} {resolve : Resolver} {code : List UInt16}
  {insn : Instruction} {insns : Array Instruction} {list : List Instruction}

/-! ### Addresses in order -/

/-- Instructions that stand in the order of their addresses. -/
def Ordered (list : List Instruction) : Prop :=
  list.Pairwise fun a b => a.address < b.address

namespace Tiles

theorem start_le (tiles : Tiles pc list stop) : pc ≤ stop := by
  induction tiles with
  | nil => exact Nat.le_refl _
  | cons _ _ ih => omega

/-- Each instruction starts inside the part that is tiled. -/
theorem address_within (tiles : Tiles pc list stop) (wide : ∀ insn ∈ list, 1 ≤ insn.length) :
    ∀ insn ∈ list, pc ≤ insn.address ∧ insn.address < stop := by
  induction tiles with
  | nil => simp
  | @cons pc stop head rest starts others ih =>
    have ends := others.start_le
    have some := wide head (by simp)
    intro insn member
    rcases List.mem_cons.mp member with rfl | later
    · simp only [address, starts]
      omega
    · have inside := ih (fun other listed => wide other (by simp [listed])) insn later
      omega

theorem ordered (tiles : Tiles pc list stop) (wide : ∀ insn ∈ list, 1 ≤ insn.length) :
    Ordered list := by
  induction tiles with
  | nil => exact .nil
  | @cons pc stop head rest starts others ih =>
    have restWide : ∀ insn ∈ rest, 1 ≤ insn.length := fun insn later => wide insn (by simp [later])
    have some := wide head (by simp)
    refine .cons ?_ (ih restWide)
    -- all others start behind the units of the first
    intro insn later
    have inside := others.address_within restWide insn later
    simp only [address, starts] at inside ⊢
    omega

end Tiles

theorem Sweeps.wide (run : Sweeps version resolve pc code list)
    (short : pc + code.length ≤ 2 ^ 31) : ∀ insn ∈ list, 1 ≤ insn.length :=
  fun insn member => (run.sized short insn member).pos

theorem Sweeps.ordered (run : Sweeps version resolve pc code list)
    (short : pc + code.length ≤ 2 ^ 31) : Ordered list :=
  (run.tiles short).ordered (run.wide short)

theorem Sweeps.address_lt (run : Sweeps version resolve pc code list)
    (short : pc + code.length ≤ 2 ^ 31) : ∀ insn ∈ list, insn.address < pc + code.length :=
  fun insn member => ((run.tiles short).address_within (run.wide short) insn member).2

/-! ### Search by halving -/

theorem Ordered.getElem? (ordered : Ordered insns.toList) {i j : Nat} {a b : Instruction}
    (before : i < j) (here : insns[i]? = some a) (there : insns[j]? = some b) :
    a.address < b.address := by
  obtain ⟨iInside, rfl⟩ := Array.getElem?_eq_some_iff.mp here
  obtain ⟨jInside, rfl⟩ := Array.getElem?_eq_some_iff.mp there
  exact List.pairwise_iff_getElem.mp ordered i j iInside jInside before

/-- An instruction in the range is never ruled out, so it is the one that is left. -/
theorem narrow_eq (ordered : Ordered insns.toList) {place base size : Nat}
    (found : insns[place]? = some insn) (least : base ≤ place) (most : place < base + size)
    (inside : base + size ≤ insns.size) : narrow insns insn.address base size = place := by
  have middle_found {middle : Nat} (inRange : middle < insns.size) :
      ∃ other, insns[middle]? = some other := ⟨_, Array.getElem?_eq_getElem inRange⟩
  fun_induction narrow insns insn.address base size with
  | case1 base size several middle beyond ih =>
    obtain ⟨other, there⟩ := middle_found (show middle < insns.size by omega)
    have less : insn.address < other.address := by simpa [there] using beyond
    -- what is at or behind the middle has at least the address of the middle
    have before : place < middle := by
      by_contra behind
      rcases Nat.lt_or_eq_of_le (Nat.not_lt.mp behind) with after | same
      · have := ordered.getElem? after there found
        omega
      · rw [same, found] at there
        obtain rfl := Option.some.inj there
        omega
    exact ih least (by omega) (by omega)
  | case2 base size several middle notBeyond ih =>
    obtain ⟨other, there⟩ := middle_found (show middle < insns.size by omega)
    have least : middle ≤ place := by
      by_contra before
      have less := ordered.getElem? (Nat.not_le.mp before) found there
      simp [there, less] at notBeyond
    exact ih least (by omega) (by omega)
  | case3 base size few => omega

/-- In ordered instructions the search finds what is at an address, and nothing else. -/
theorem atAddress?_eq_some_iff (ordered : Ordered insns.toList) {place : Nat} :
    atAddress? insns place = some insn ↔ insn ∈ insns ∧ insn.address = place := by
  constructor
  · intro found
    obtain ⟨there, same⟩ := Option.filter_eq_some_iff.mp found
    exact ⟨Array.mem_of_getElem? there, eq_of_beq same⟩
  · rintro ⟨member, rfl⟩
    obtain ⟨index, there⟩ := Array.mem_iff_getElem?.mp member
    obtain ⟨inside, -⟩ := Array.getElem?_eq_some_iff.mp there
    have left : narrow insns insn.address 0 insns.size = index :=
      narrow_eq ordered there (Nat.zero_le _) (by omega) (by omega)
    simp [atAddress?, left, there]

/-! ### Instructions that use a table -/

/-- The format of the table that an instruction of this name uses. -/
inductive TableKind : String → Format → Prop
  | packed : TableKind "packed-switch" .packedSwitchPayload
  | sparse : TableKind "sparse-switch" .sparseSwitchPayload
  | array : TableKind "fill-array-data" .arrayPayload

/-- There is a table of the instruction's kind at the sum of its address and its distance, counted
in whole numbers. -/
def FindsTable (insns : Array Instruction) (insn : Instruction) : Prop :=
  ∃ distance : Int, .target distance ∈ insn.operands ∧ ∃ other ∈ insns,
    (other.address : Int) = insn.address + distance ∧ TableKind insn.name other.format

theorem tableKind_iff {name : String} {format : Format}
    (known : name ∈ ["packed-switch", "sparse-switch", "fill-array-data"]) :
    TableKind name format ↔ format = tableFormat name := by
  constructor
  · intro kind
    cases kind <;> decide
  · rintro rfl
    simp only [List.mem_cons, List.not_mem_nil, or_false] at known
    rcases known with rfl | rfl | rfl
    · exact .packed
    · exact .sparse
    · exact .array

theorem signed_signed32 (low high : UInt16) : Signed 32 (signed32 low high) := by
  have least := @Int.le_bmod (unitsValue [low, high]) (2 ^ 32) (by decide)
  have most := @Int.bmod_lt (unitsValue [low, high]) (2 ^ 32) (by decide)
  rw [signed32, signExtend, Nat.shiftLeft_eq, Nat.one_mul, Signed]
  omega

/-- What decoding settles about an instruction that uses a table: its operands and its name. -/
structure UsesTable (insn : Instruction) : Prop where
  operands : ∃ register distance, insn.operands = [.register register, .target distance] ∧
    Signed 32 distance
  named : insn.name ∈ ["packed-switch", "sparse-switch", "fill-array-data"]

theorem operandsOf_31t {opcode : Opcode} {units : List UInt16} {operands : List Operand}
    (uses : opcode.format = .f31t) (read : operandsOf resolve opcode units = .ok operands) :
    ∃ register distance, operands = [.register register, .target distance] ∧
      Signed 32 distance := by
  obtain ⟨name, format, reference, reference2, effects, spans⟩ := opcode
  obtain rfl : format = .f31t := uses
  rcases units with _ | ⟨u, _ | ⟨v, _ | ⟨w, rest⟩⟩⟩
  -- fewer units than the format has are no operands of it
  case cons.cons.cons =>
    obtain rfl := Except.ok.inj read
    exact ⟨_, _, rfl, signed_signed32 v w⟩
  all_goals cases read

theorem decodeAt_usesTable {width : Nat} {first : UInt16} {rest : List UInt16}
    (decoded : decodeAt version resolve pc first rest = .ok (insn, width))
    (uses : insn.format = .f31t) : UsesTable insn := by
  obtain ⟨opcode, row, decoded⟩ := except_bind_ok decoded
  obtain ⟨⟨operands, payload, width⟩, body, built⟩ := except_bind_ok decoded
  cases built
  have fixed : opcode.format.width? = some 3 := by
    rw [show opcode.format = .f31t from uses]
    rfl
  rw [bodyAt_fixed fixed] at body
  obtain ⟨-, -, body⟩ := except_bind_ok body
  split at body
  next read =>
    cases body
    exact ⟨operandsOf_31t uses read, InstructionSet.table_names opcode (opcodeAt_mem row) uses⟩
  next => cases body

theorem Sweeps.usesTable (run : Sweeps version resolve pc code list) :
    ∀ insn ∈ list, insn.format = .f31t → UsesTable insn :=
  run.each decodeAt_usesTable

/-! ### The check of targets -/

/-- Below `2 ^ 31` a sum that wraps around in 32 bits is no address. -/
theorem wrapped_eq_iff {a b : Nat} {distance : Int} (aSmall : a < 2 ^ 31) (bSmall : b < 2 ^ 31)
    (signed : Signed 32 distance) :
    ((a + distance) % UInt32.size).toNat = b ↔ (b : Int) = a + distance := by
  obtain ⟨least, most⟩ := signed
  rw [UInt32.size]
  omega

theorem pointsAtTable_iff (ordered : Ordered insns.toList)
    (small : ∀ other ∈ insns, other.address < 2 ^ 31) (member : insn ∈ insns)
    (uses : UsesTable insn) : pointsAtTable insns insn = true ↔ FindsTable insns insn := by
  obtain ⟨⟨register, distance, operands, signed⟩, named⟩ := uses
  have target : insn.targetAddress? =
      some ((insn.address + distance) % UInt32.size).toNat := by
    simp [targetAddress?, operands]
  simp only [pointsAtTable, target, Option.any_eq_true, atAddress?_eq_some_iff ordered, beq_iff_eq]
  constructor
  · rintro ⟨other, ⟨listed, same⟩, format⟩
    have place := (wrapped_eq_iff (small insn member) (small other listed) signed).mp same.symm
    exact ⟨distance, by simp [operands], other, listed, place, (tableKind_iff named).mpr format⟩
  · rintro ⟨_, only, other, listed, place, kind⟩
    obtain rfl : _ = distance := by simpa [operands] using only
    have same := (wrapped_eq_iff (small insn member) (small other listed) signed).mpr place
    exact ⟨other, ⟨listed, same.symm⟩, (tableKind_iff named).mp kind⟩

/-- Decoding accepts the instructions of a run if those that use a table find it, and no others. -/
theorem decode_ok_iff (short : code.length < 2 ^ 31) :
    decode version resolve code = .ok insns ↔
      Sweeps version resolve 0 code insns.toList ∧
        ∀ insn ∈ insns, insn.format = .f31t → FindsTable insns insn := by
  have settled (run : Sweeps version resolve 0 code insns.toList) : strayTarget? insns = none ↔
      ∀ insn ∈ insns, insn.format = .f31t → FindsTable insns insn := by
    have ordered := run.ordered (by omega)
    have small : ∀ other ∈ insns, other.address < 2 ^ 31 := by
      intro other listed
      have below := run.address_lt (by omega) other (Array.mem_toList_iff.mpr listed)
      omega
    rw [strayTarget?, Array.find?_eq_none]
    apply forall₂_congr
    intro insn member
    simp only [Bool.and_eq_true, beq_iff_eq, Bool.not_eq_true', not_and, Bool.not_eq_false]
    apply forall_congr'
    intro uses
    exact pointsAtTable_iff ordered small member
      (run.usesTable insn (Array.mem_toList_iff.mpr member) uses)
  constructor
  · intro decoded
    obtain ⟨run, none⟩ := decode_ok decoded
    exact ⟨run, (settled run).mp none⟩
  · rintro ⟨run, finds⟩
    simpa using decode_of_sweeps run (by simpa using (settled run).mpr finds)

/-- What is settled about the targets of the instructions that a sweep over `code` ends with. -/
structure TargetsChecked (code : List UInt16) (insns : Array Instruction)
    (outcome : Except Error (Array Instruction)) : Prop where
  /-- An instruction that uses a table has one target, which 32 bits hold with its sign. -/
  operands : ∀ insn ∈ insns, insn.format = .f31t → ∃ register distance,
    insn.operands = [.register register, .target distance] ∧ Signed 32 distance
  accepted : (∃ out, outcome = .ok out) ↔
    ∀ insn ∈ insns, insn.format = .f31t → FindsTable insns insn
  unchanged : ∀ out, outcome = .ok out → out = insns
  /-- A target before the first unit or behind the last is refused. -/
  outside : ∀ insn ∈ insns, insn.format = .f31t → ∀ distance : Int,
    .target distance ∈ insn.operands →
      insn.address + distance < 0 ∨ code.length ≤ insn.address + distance →
        ∃ error, outcome = .error error

/-- Targets are checked exactly: if the sweep comes to the end of the code, decoding succeeds just if
every instruction that uses a table has it at the sum of its address and its distance. Counting in
32 bits lets no target through that lies outside the code. -/
theorem decode_checks_targets (short : code.length < 2 ^ 31)
    (swept : sweep version resolve 0 0 code #[] = .ok insns) :
    TargetsChecked code insns (decode version resolve code) := by
  obtain ⟨list, same, run⟩ := sweeps_of_sweep swept
  obtain rfl : insns = list.toArray := by simpa using same
  have uses := run.usesTable
  have unchanged : ∀ out, decode version resolve code = .ok out → out = list.toArray := by
    intro out decoded
    have again := sweep_of_sweeps (decode_ok decoded).1 #[]
    rw [swept] at again
    simpa using (Except.ok.inj again).symm
  have accepted : (∃ out, decode version resolve code = .ok out) ↔
      ∀ insn ∈ list.toArray, insn.format = .f31t → FindsTable list.toArray insn := by
    constructor
    · rintro ⟨out, decoded⟩
      obtain rfl := unchanged out decoded
      exact ((decode_ok_iff short).mp decoded).2
    · intro finds
      exact ⟨_, (decode_ok_iff short).mpr ⟨run, finds⟩⟩
  refine ⟨?_, accepted, unchanged, ?_⟩
  · intro insn member format
    exact (uses insn (by simpa using member) format).operands
  · intro insn member format distance target outside
    cases outcome : decode version resolve code with
    | error error => exact ⟨error, rfl⟩
    | ok out =>
      -- the table would be an instruction of the run, and those lie inside the code
      obtain ⟨distance', target', other, listed, place, -⟩ :=
        accepted.mp ⟨out, outcome⟩ insn member format
      obtain ⟨register, only, operands, -⟩ := (uses insn (by simpa using member) format).operands
      have below := run.address_lt (by omega) other (by simpa using listed)
      simp only [operands, List.mem_cons, reduceCtorEq, Operand.target.injEq, List.not_mem_nil,
        or_false, false_or] at target target'
      omega

/-- A table, an instruction that points back at it, and one that points before the first unit. -/
def strayedSample : List UInt16 :=
  [0x0100, 0, 0, 0, 0x002b, 0xfffc, 0xffff, 0x002c, 0xfff8, 0xffff]

theorem decode_checks_targets_strayed :
    ∃ insns, strayedSample.length < 2 ^ 31 ∧
      sweep 35 (Pools.resolve {}) 0 0 strayedSample #[] = .ok insns ∧
      insns.toList.map (fun insn => (insn.address, insn.format, insn.operands)) =
        [(0, .packedSwitchPayload, []), (4, .f31t, [.register 0, .target (-4)]),
          (7, .f31t, [.register 0, .target (-8)])] ∧
      TargetsChecked strayedSample insns (decode 35 (Pools.resolve {}) strayedSample) ∧
      ∃ error, decode 35 (Pools.resolve {}) strayedSample = .error error := by
  have short : strayedSample.length < 2 ^ 31 := by decide
  have listing : (sweep 35 (Pools.resolve {}) 0 0 strayedSample #[]).toOption.map
      (fun insns => insns.toList.map fun insn => (insn.address, insn.format, insn.operands)) =
      some [(0, .packedSwitchPayload, []), (4, .f31t, [.register 0, .target (-4)]),
        (7, .f31t, [.register 0, .target (-8)])] := by
    decide +kernel
  cases swept : sweep 35 (Pools.resolve {}) 0 0 strayedSample #[] with
  | error error =>
    rw [swept] at listing
    cases listing
  | ok insns =>
    rw [swept] at listing
    have listing : insns.toList.map (fun insn => (insn.address, insn.format, insn.operands)) = _ :=
      Option.some.inj listing
    have checked := decode_checks_targets short swept
    obtain ⟨insn, member, fields⟩ : ∃ insn ∈ insns.toList,
        (insn.address, insn.format, insn.operands) =
          (7, .f31t, [.register 0, .target (-8)]) := by
      rw [← List.mem_map, listing]
      simp
    simp only [Prod.mk.injEq] at fields
    obtain ⟨place, format, operands⟩ := fields
    have refused := checked.outside insn (by simpa using member) format (-8) (by simp [operands])
      (.inl (by rw [place]; decide))
    exact ⟨insns, short, rfl, listing, checked, refused⟩

end Instruction

end DexAtlas
