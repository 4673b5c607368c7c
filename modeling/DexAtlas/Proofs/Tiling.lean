import DexAtlas.Proofs.Sweep

/-!
# Decoded instructions tile the code

The first instruction starts at the first unit, each further one where the one before it ends, and
the last ends with the code. The second part reaches every unit by its index, as a program over an
array would: an index outside the code has no unit there, and the rounds are counted. That decoder
always has an answer, and it is the answer of the sweep.
-/
namespace DexAtlas.Instruction

variable {version pc stop : Nat} {resolve : Resolver} {opcode : Opcode} {code : List UInt16}

/-! ### Tiling -/

/-- Instructions that follow one another from address `pc` on and end before address `stop`. -/
inductive Tiles : Nat → List Instruction → Nat → Prop where
  | nil (pc : Nat) : Tiles pc [] pc
  | cons {pc stop : Nat} {insn : Instruction} {rest : List Instruction}
      (starts : insn.offset = 2 * pc) (others : Tiles (pc + insn.length) rest stop) :
      Tiles pc (insn :: rest) stop

namespace Tiles

variable {list : List Instruction}

theorem first (tiles : Tiles pc list stop) {insn : Instruction} (found : list[0]? = some insn) :
    insn.offset = 2 * pc := by
  cases tiles with
  | nil => cases found
  | cons starts _ =>
    obtain rfl := Option.some.inj found
    exact starts

theorem next (tiles : Tiles pc list stop) {i : Nat} {a b : Instruction} (found : list[i]? = some a)
    (follows : list[i + 1]? = some b) : b.offset = a.offset + 2 * a.length := by
  induction tiles generalizing i with
  | nil => cases found
  | cons starts others ih =>
    cases i with
    | zero =>
      obtain rfl := Option.some.inj found
      rw [others.first (by simpa using follows), starts]
      omega
    | succ i => exact ih (by simpa using found) (by simpa using follows)

theorem last (tiles : Tiles pc list stop) {insn : Instruction} (found : list.getLast? = some insn) :
    insn.offset + 2 * insn.length = 2 * stop := by
  induction tiles with
  | nil => cases found
  | @cons pc stop head rest starts others ih =>
    cases rest with
    | nil =>
      obtain rfl : head = insn := by simpa using found
      cases others
      omega
    | cons second rest => exact ih (by simpa using found)

end Tiles

/-- In less than `2 ^ 31` units a width is what 32 bits keep of it. -/
theorem Placed.length_eq {left width : Nat} {insn : Instruction} (placed : Placed pc left insn width)
    (short : left ≤ 2 ^ 31) : insn.length = width := by
  have within := placed.within
  rw [placed.length, Nat.mod_eq_of_lt]
  rw [UInt32.size]
  omega

/-- Units below `2 ^ 31` have an offset in bytes that 32 bits hold. -/
theorem Sweeps.tiles {units : List UInt16} {list : List Instruction}
    (run : Sweeps version resolve pc units list) (short : pc + units.length ≤ 2 ^ 31) :
    Tiles pc list (pc + units.length) := by
  induction run with
  | done pc => exact .nil pc
  | @step pc width first rest insn insns decoded _ ih =>
    have placed := decodeAt_ok decoded
    have within := placed.within
    have left : ((first :: rest).drop width).length = (first :: rest).length - width :=
      List.length_drop
    have below : pc * 2 < UInt32.size := by
      rw [List.length_cons] at short
      rw [UInt32.size]
      omega
    have others := ih (by omega)
    rw [show pc + width + ((first :: rest).drop width).length = pc + (first :: rest).length by omega,
      ← placed.length_eq (by omega)] at others
    refine .cons ?_ others
    rw [placed.offset, Nat.mod_eq_of_lt below, Nat.mul_comm]

theorem Sweeps.sized {units : List UInt16} {list : List Instruction}
    (run : Sweeps version resolve pc units list) (short : pc + units.length ≤ 2 ^ 31) :
    ∀ insn ∈ list, Sized insn.format insn.payload insn.length := by
  induction run with
  | done pc => simp
  | @step pc width first rest insn insns decoded _ ih =>
    have placed := decodeAt_ok decoded
    have within := placed.within
    have left : ((first :: rest).drop width).length = (first :: rest).length - width :=
      List.length_drop
    intro other member
    rcases List.mem_cons.mp member with rfl | later
    · rw [placed.length_eq (by omega)]
      exact placed.sized
    · exact ih (by omega) other later

/-- The instructions lie in the code one behind the other, from its first unit to its last, and each
is as wide as its format or table is. -/
structure Tiled (code : List UInt16) (insns : Array Instruction) : Prop where
  first : ∀ insn, insns[0]? = some insn → insn.offset = 0
  next : ∀ i a b, insns[i]? = some a → insns[i + 1]? = some b → b.offset = a.offset + 2 * a.length
  last : ∀ insn, insns.back? = some insn → insn.offset + 2 * insn.length = 2 * code.length
  covers : insns = #[] → code = []
  widths : ∀ insn ∈ insns, 1 ≤ insn.length ∧ Sized insn.format insn.payload insn.length

theorem Sweeps.tiled {list : List Instruction} (run : Sweeps version resolve 0 code list)
    (short : code.length ≤ 2 ^ 31) : Tiled code list.toArray := by
  have tiles := run.tiles (by omega)
  rw [Nat.zero_add] at tiles
  constructor
  · intro insn found
    exact tiles.first (by simpa using found)
  · intro i a b found follows
    exact tiles.next (by simpa using found) (by simpa using follows)
  · intro insn found
    exact tiles.last (by simpa [List.getLast?_eq_getElem?] using found)
  · intro none
    have none : list = [] := by simpa using none
    subst none
    cases run
    rfl
  · intro insn member
    have sized := run.sized (by omega) insn (by simpa using member)
    exact ⟨sized.pos, sized⟩

/-! ### Units by their index -/

namespace Indexed

/-- An answer, or none where an index lies outside the code or the rounds run out. -/
abbrev Run := ExceptT Error Option

def fault {α : Type} : Run α := ExceptT.mk none

def settle {α : Type} (outcome : Except Error α) : Run α := ExceptT.mk (some outcome)

def unit (code : List UInt16) (pc : Nat) : Run UInt16 :=
  match code[pc]? with
  | some unit => settle (.ok unit)
  | none => fault

/-- The units from `pc` on, one by one. -/
def units (code : List UInt16) (pc count : Nat) : Run (List UInt16) :=
  (List.range count).mapM fun k => unit code (pc + k)

/-- Compares the end of what is needed with the end of the code. -/
def need (what : String) (pc count : Nat) (code : List UInt16) : Run Unit :=
  if pc + count ≤ code.length then settle (.ok ())
  else settle (.error (.of (.truncatedCode what pc count (code.length - pc))))

def packedSwitch (code : List UInt16) (pc : Nat) : Run (Payload × Nat) := do
  need "packed-switch header" pc 4 code
  let size := unitsValue (← units code (pc + 1) 1)
  need "packed-switch targets" (pc + 4) (size * 2) code
  let firstKey := signExtend 32 (unitsValue (← units code (pc + 2) 2))
  let targets := integersOf (← units code (pc + 4) (size * 2))
  return (.packedSwitch firstKey targets, 4 + size * 2)

def sparseSwitch (code : List UInt16) (pc : Nat) : Run (Payload × Nat) := do
  need "sparse-switch header" pc 2 code
  let size := unitsValue (← units code (pc + 1) 1)
  need "sparse-switch entries" (pc + 2) (size * 4) code
  let keys := integersOf (← units code (pc + 2) (size * 2))
  let targets := integersOf (← units code (pc + 2 + size * 2) (size * 2))
  return (.sparseSwitch keys targets, 2 + size * 4)

def arrayData (code : List UInt16) (pc : Nat) : Run (Payload × Nat) := do
  need "array-data header" pc 4 code
  let width := unitsValue (← units code (pc + 1) 1)
  let count := unitsValue (← units code (pc + 2) 2)
  if width ∈ [1, 2, 4, 8] then
    let dataUnits := (width * count + 1) / 2
    need "array-data elements" (pc + 4) dataUnits code
    let data := (bytesOf (← units code (pc + 4) dataUnits)).take (width * count)
    return (.arrayData width count data, 4 + dataUnits)
  else settle (.error (.of (.elementWidth width)))

/-- The operands of a fixed format see the units of its width and no others. -/
def fixed (resolve : Resolver) (opcode : Opcode) (code : List UInt16) (pc : Nat) :
    Run (List Operand × Nat) := do
  let width := opcode.format.width?.getD 0
  need opcode.name pc width code
  match operandsOf resolve opcode (← units code pc width) with
  | .ok operands => return (operands, width)
  | .error e => settle (.error (e.within (.instruction opcode.name pc)))

def body (resolve : Resolver) (opcode : Opcode) (code : List UInt16) (pc : Nat) :
    Run (List Operand × Option Payload × Nat) :=
  match opcode.format with
  | .packedSwitchPayload => do
    let (table, width) ← packedSwitch code pc
    return ([], some table, width)
  | .sparseSwitchPayload => do
    let (table, width) ← sparseSwitch code pc
    return ([], some table, width)
  | .arrayPayload => do
    let (table, width) ← arrayData code pc
    return ([], some table, width)
  | _ => do
    let (operands, width) ← fixed resolve opcode code pc
    return (operands, none, width)

/-- At most so many rounds, each of which takes the instruction at `pc` and moves behind it. -/
def rounds (version : Nat) (resolve : Resolver) (code : List UInt16) :
    Nat → Nat → Array Instruction → Run (Array Instruction)
  | 0, pc, done => if pc < code.length then fault else return done
  | left + 1, pc, done =>
    if pc < code.length then do
      let first ← unit code pc
      let opcode ← settle (opcodeAt version pc first)
      let (operands, payload, width) ← body resolve opcode code pc
      rounds version resolve code left (pc + width) (done.push
        { offset := pc * 2 % UInt32.size, code := lowByte first, opcode,
          length := width % UInt32.size, operands, payload })
    else return done

/-- Decodes with as many rounds as there are units. -/
def decode (version : Nat) (resolve : Resolver) (code : List UInt16) : Run (Array Instruction) := do
  let insns ← rounds version resolve code code.length 0 #[]
  match strayTarget? insns with
  | none => return insns
  | some insn =>
    settle (.error (.of (.payloadTarget insn.name insn.offset (tableFormat insn.name).label)))

/-! ### No index outside the code -/

theorem settle_ok_bind {α β : Type} (a : α) (next : α → Run β) :
    settle (.ok a) >>= next = next a := rfl

theorem unit_of_lt (inside : pc < code.length) : unit code pc = settle (.ok code[pc]) := by
  rw [unit, List.getElem?_eq_getElem inside]

theorem units_of_le {count : Nat} (inside : pc + count ≤ code.length) :
    units code pc count = settle (.ok ((code.drop pc).take count)) := by
  induction count with
  | zero => rfl
  | succ count ih =>
    have last : pc + count < code.length := by omega
    have before : (List.range count).mapM (fun k => unit code (pc + k)) =
        settle (.ok ((code.drop pc).take count)) := ih (by omega)
    rw [units, List.range_succ, List.mapM_append, before, settle_ok_bind, List.mapM_cons,
      List.mapM_nil, unit_of_lt last, List.take_add_one, List.getElem?_drop,
      List.getElem?_eq_getElem last]
    rfl

/-- After the comparison, what is needed is there. -/
theorem need_bind {α : Type} {what : String} {count : Nat} {next : Unit → Run α}
    {next' : Unit → Except Error α} (inside : pc ≤ code.length)
    (agree : pc + count ≤ code.length → next () = settle (next' ())) :
    need what pc count code >>= next =
      settle (needUnits what pc count (code.drop pc) >>= next') := by
  -- one side compares addresses, the other the length of what could be cut off
  have enough : (pc + count ≤ code.length) ↔ ((code.drop pc).take count).length = count := by
    rw [List.length_take, List.length_drop]
    omega
  rw [need, needUnits, List.length_drop]
  by_cases fits : pc + count ≤ code.length
  · rw [if_pos fits, if_pos (enough.mp fits)]
    exact agree fits
  · rw [if_neg fits, if_neg (fun full => fits (enough.mpr full))]
    rfl

theorem packedSwitch_eq (inside : pc ≤ code.length) :
    packedSwitch code pc = settle (packedSwitchAt pc (code.drop pc)) := by
  refine need_bind inside fun header => ?_
  simp only [units_of_le (show pc + 1 + 1 ≤ code.length by omega), settle_ok_bind, List.drop_drop]
  refine need_bind (by omega) fun targets => ?_
  rw [units_of_le (show pc + 2 + 2 ≤ code.length by omega), units_of_le targets]
  rfl

theorem sparseSwitch_eq (inside : pc ≤ code.length) :
    sparseSwitch code pc = settle (sparseSwitchAt pc (code.drop pc)) := by
  refine need_bind inside fun header => ?_
  simp only [units_of_le (show pc + 1 + 1 ≤ code.length by omega), settle_ok_bind, List.drop_drop]
  refine need_bind (by omega) fun entries => ?_
  rw [units_of_le (by omega), units_of_le (by omega)]
  rfl

theorem arrayData_eq (inside : pc ≤ code.length) :
    arrayData code pc = settle (arrayDataAt pc (code.drop pc)) := by
  refine need_bind inside fun header => ?_
  simp only [units_of_le (show pc + 1 + 1 ≤ code.length by omega),
    units_of_le (show pc + 2 + 2 ≤ code.length by omega), settle_ok_bind, List.drop_drop]
  split
  next =>
    refine need_bind (by omega) fun elements => ?_
    rw [units_of_le elements]
    rfl
  next => rfl

theorem fixed_eq (inside : pc ≤ code.length) {width : Nat}
    (sized : opcode.format.width? = some width) :
    fixed resolve opcode code pc = settle (do
      needUnits opcode.name pc width (code.drop pc)
      match operandsOf resolve opcode (code.drop pc) with
      | .ok operands => return (operands, width)
      | .error e => throw (e.within (.instruction opcode.name pc))) := by
  rw [fixed, sized, Option.getD_some]
  refine need_bind inside fun enough => ?_
  have full : ((code.drop pc).take width).length = width := by
    rw [List.length_take, List.length_drop]
    omega
  -- the sweep hands over all units that are left; those beyond the width do not matter
  have cut : operandsOf resolve opcode (code.drop pc) =
      operandsOf resolve opcode ((code.drop pc).take width) := by
    have sized : opcode.format.width? = some ((code.drop pc).take width).length := by
      rw [full, sized]
    rw [← operandsOf_append ((code.drop pc).drop width) sized, List.take_append_drop]
  rw [units_of_le enough, settle_ok_bind, cut]
  cases operandsOf resolve opcode ((code.drop pc).take width) <;> rfl

theorem body_eq (inside : pc ≤ code.length) :
    body resolve opcode code pc = settle (bodyAt resolve opcode pc (code.drop pc)) := by
  unfold body
  split
  next format =>
    rw [packedSwitch_eq inside, bodyAt, format]
    cases packedSwitchAt pc (code.drop pc) <;> rfl
  next format =>
    rw [sparseSwitch_eq inside, bodyAt, format]
    cases sparseSwitchAt pc (code.drop pc) <;> rfl
  next format =>
    rw [arrayData_eq inside, bodyAt, format]
    cases arrayDataAt pc (code.drop pc) <;> rfl
  next notPacked notSparse notArray =>
    obtain ⟨width, sized⟩ := width?_of_fixed notPacked notSparse notArray
    rw [fixed_eq inside sized, bodyAt_fixed sized]
    cases needUnits opcode.name pc width (code.drop pc) with
    | error e => rfl
    | ok => cases operandsOf resolve opcode (code.drop pc) <;> rfl

/-- As many rounds as units are left are enough, and in none of them an index is outside. -/
theorem rounds_eq (left : Nat) (enough : code.length ≤ pc + left) (inside : pc ≤ code.length)
    (done : Array Instruction) :
    rounds version resolve code left pc done =
      settle (sweep version resolve pc 0 (code.drop pc) done) := by
  induction left generalizing pc done with
  | zero =>
    have ended : ¬pc < code.length := by omega
    rw [rounds, if_neg ended, List.drop_eq_nil_of_le (by omega), sweep]
    rfl
  | succ left ih =>
    rw [rounds]
    split
    next more =>
      rw [unit_of_lt more, settle_ok_bind, List.drop_eq_getElem_cons more, sweep_step, decodeAt,
        ← List.drop_eq_getElem_cons more]
      -- an error of either step is the answer of both decoders
      cases row : opcodeAt version pc code[pc] with
      | error e => rfl
      | ok opcode =>
        change (body resolve opcode code pc >>= _) =
          settle ((bodyAt resolve opcode pc (code.drop pc) >>= _).bind _)
        rw [body_eq inside]
        cases read : bodyAt resolve opcode pc (code.drop pc) with
        | error e => rfl
        | ok found =>
          obtain ⟨operands, payload, width⟩ := found
          -- the instruction ends inside the code and takes a unit at least
          obtain ⟨sized, fits⟩ := bodyAt_ok read
          have positive := sized.pos
          rw [List.length_drop] at fits
          have next := @ih (pc + width) (by omega) (by omega)
          rw [← List.drop_drop] at next
          exact next _
    next ended =>
      rw [List.drop_eq_nil_of_le (by omega), sweep]
      rfl

theorem decode_eq (version : Nat) (resolve : Resolver) (code : List UInt16) :
    decode version resolve code = settle (Instruction.decode version resolve code) := by
  rw [decode, rounds_eq code.length (by omega) (Nat.zero_le _), List.drop_zero, Instruction.decode]
  cases sweep version resolve 0 0 code #[] with
  | error e => rfl
  | ok insns =>
    change (match strayTarget? insns with | none => _ | some insn => _) =
      settle (match strayTarget? insns with | none => _ | some insn => _)
    cases strayTarget? insns <;> rfl

end Indexed

/-- Decoded instructions tile the code. The same answer, whichever it is, is found by reaching every
unit through its index: no index lies outside the code, and there are no more rounds than units. -/
theorem decode_tiles (version : Nat) (resolve : Resolver) (code : List UInt16) :
    (code.length < 2 ^ 31 → ∀ insns, decode version resolve code = .ok insns → Tiled code insns) ∧
      (Indexed.decode version resolve code).run = some (decode version resolve code) := by
  constructor
  · intro short insns decoded
    have tiled := (decode_ok decoded).1.tiled (Nat.le_of_lt short)
    simpa using tiled
  · exact Indexed.decode_eq version resolve code

/-- A method with one instruction for each kind of table, and the three tables behind it. -/
def switchSample : List UInt16 :=
  [0x002b, 10, 0, 0x002c, 13, 0, 0x0026, 16, 0, 0x000e, 0x0100, 1, 5, 0, 9, 0, 0x0200, 1, 7, 0, 9,
    0, 0x0300, 1, 3, 0, 0x0201, 0x0003]

theorem decode_tiles_switches :
    ∃ insns, switchSample.length < 2 ^ 31 ∧
      decode 35 (Pools.resolve {}) switchSample = .ok insns ∧ Tiled switchSample insns ∧
      insns.toList.map (fun insn => (insn.offset, insn.length)) =
        [(0, 3), (6, 3), (12, 3), (18, 1), (20, 6), (32, 6), (44, 6)] := by
  have short : switchSample.length < 2 ^ 31 := by decide
  have places : (decode 35 (Pools.resolve {}) switchSample).toOption.map
      (fun insns => insns.toList.map fun insn => (insn.offset, insn.length)) =
      some [(0, 3), (6, 3), (12, 3), (18, 1), (20, 6), (32, 6), (44, 6)] := by
    decide +kernel
  cases decoded : decode 35 (Pools.resolve {}) switchSample with
  | error e =>
    rw [decoded] at places
    cases places
  | ok insns =>
    rw [decoded] at places
    exact ⟨insns, short, rfl, (decode_tiles 35 (Pools.resolve {}) switchSample).1 short insns decoded,
      Option.some.inj places⟩

end DexAtlas.Instruction
