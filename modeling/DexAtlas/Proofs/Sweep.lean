import DexAtlas.Proofs.References
import Mathlib.Algebra.GroupWithZero.Nat

/-!
# The sweep over code units

The sweep takes one instruction after another, each as wide as its format or its table calls for.
A run of it is a derivation of `Sweeps`, and what holds of every instruction or of their order is
shown along such a run.
-/
namespace DexAtlas

namespace Instruction

variable {version pc : Nat} {resolve : Resolver} {opcode : Opcode} {units : List UInt16}

/-! ### Widths -/

theorem needUnits_ok {what : String} {need : Nat} (enough : needUnits what pc need units = .ok ()) :
    need ≤ units.length := by
  unfold needUnits at enough
  split at enough
  next full =>
    rw [List.length_take] at full
    omega
  next => cases enough

theorem needUnits_of_le {what : String} {need : Nat} (enough : need ≤ units.length) :
    needUnits what pc need units = .ok () := by
  rw [needUnits, if_pos (List.length_take_of_le enough)]

theorem length_integersOf (units : List UInt16) : (integersOf units).length = units.length / 2 := by
  fun_induction integersOf units with
  | case1 low high rest ih =>
    simp only [List.length_cons, ih]
    omega
  | case2 units short =>
    match units, short with
    | [], _ => rfl
    | [_], _ => simp
    | low :: high :: rest, short => exact absurd rfl (short low high rest)

theorem length_bytesOf (units : List UInt16) : (bytesOf units).length = 2 * units.length := by
  induction units with
  | nil => rfl
  | cons unit rest ih =>
    rw [bytesOf, List.flatMap_cons, List.length_append, Bytes.length_toLittleEndian,
      List.length_cons, ← bytesOf, ih]
    omega

/-- The width that a format calls for, or the table that stands in its place. -/
def Sized (format : Format) (payload : Option Payload) (width : Nat) : Prop :=
  match payload with
  | none => format.width? = some width
  | some (.packedSwitch _ targets) =>
    format = .packedSwitchPayload ∧ width = 4 + 2 * targets.length
  | some (.sparseSwitch keys targets) =>
    format = .sparseSwitchPayload ∧ keys.length = targets.length ∧ width = 2 + 4 * keys.length
  | some (.arrayData element count data) =>
    format = .arrayPayload ∧ data.length = element * count ∧
      width = 4 + (element * count + 1) / 2

theorem width?_of_fixed {format : Format} (notPacked : format ≠ .packedSwitchPayload)
    (notSparse : format ≠ .sparseSwitchPayload) (notArray : format ≠ .arrayPayload) :
    ∃ width, format.width? = some width := by
  cases format <;> first | contradiction | exact ⟨_, rfl⟩

theorem Sized.pos {format : Format} {payload : Option Payload} {width : Nat}
    (sized : Sized format payload width) : 1 ≤ width := by
  unfold Sized at sized
  split at sized
  · cases format <;> simp only [Format.width?, Option.some.injEq, reduceCtorEq] at sized <;> omega
  · omega
  · omega
  · omega

theorem packedSwitchAt_ok {table : Payload} {width : Nat}
    (read : packedSwitchAt pc units = .ok (table, width)) :
    Sized .packedSwitchPayload (some table) width ∧ width ≤ units.length := by
  obtain ⟨⟨⟩, header, read⟩ := except_bind_ok read
  obtain ⟨⟨⟩, targets, read⟩ := except_bind_ok read
  cases read
  have fourLeft := needUnits_ok header
  have restLeft := needUnits_ok targets
  rw [List.length_drop] at restLeft
  refine ⟨⟨rfl, ?_⟩, by omega⟩
  rw [length_integersOf, List.length_take, List.length_drop]
  omega

theorem sparseSwitchAt_ok {table : Payload} {width : Nat}
    (read : sparseSwitchAt pc units = .ok (table, width)) :
    Sized .sparseSwitchPayload (some table) width ∧ width ≤ units.length := by
  obtain ⟨⟨⟩, header, read⟩ := except_bind_ok read
  obtain ⟨⟨⟩, entries, read⟩ := except_bind_ok read
  cases read
  have twoLeft := needUnits_ok header
  have restLeft := needUnits_ok entries
  rw [List.length_drop] at restLeft
  refine ⟨⟨rfl, ?_, ?_⟩, by omega⟩ <;>
  · simp only [length_integersOf, List.length_take, List.length_drop]
    omega

theorem arrayDataAt_ok {table : Payload} {width : Nat}
    (read : arrayDataAt pc units = .ok (table, width)) :
    Sized .arrayPayload (some table) width ∧ width ≤ units.length := by
  obtain ⟨⟨⟩, header, read⟩ := except_bind_ok read
  dsimp only at read
  split at read
  next =>
    obtain ⟨⟨⟩, elements, read⟩ := except_bind_ok read
    cases read
    have fourLeft := needUnits_ok header
    have restLeft := needUnits_ok elements
    rw [List.length_drop] at restLeft
    refine ⟨⟨rfl, ?_, rfl⟩, by omega⟩
    simp only [List.length_take, length_bytesOf, List.length_drop]
    omega
  next => cases read

theorem bodyAt_ok {operands : List Operand} {payload : Option Payload} {width : Nat}
    (read : bodyAt resolve opcode pc units = .ok (operands, payload, width)) :
    Sized opcode.format payload width ∧ width ≤ units.length := by
  unfold bodyAt at read
  split at read
  next format =>
    obtain ⟨⟨table, _⟩, parsed, built⟩ := except_bind_ok read
    cases built
    exact format ▸ packedSwitchAt_ok parsed
  next format =>
    obtain ⟨⟨table, _⟩, parsed, built⟩ := except_bind_ok read
    cases built
    exact format ▸ sparseSwitchAt_ok parsed
  next format =>
    obtain ⟨⟨table, _⟩, parsed, built⟩ := except_bind_ok read
    cases built
    exact format ▸ arrayDataAt_ok parsed
  next notPacked notSparse notArray =>
    obtain ⟨⟨⟩, enough, read⟩ := except_bind_ok read
    split at read
    next =>
      cases read
      obtain ⟨width, sized⟩ := width?_of_fixed notPacked notSparse notArray
      rw [sized, Option.getD_some] at enough ⊢
      exact ⟨sized, needUnits_ok enough⟩
    next => cases read

/-- A fixed format reads no unit beyond its width. -/
theorem operandsOf_append {front : List UInt16} (rest : List UInt16)
    (fixed : opcode.format.width? = some front.length) :
    operandsOf resolve opcode (front ++ rest) = operandsOf resolve opcode front := by
  obtain ⟨name, format, reference, reference2, effects, spans⟩ := opcode
  -- as many units are taken apart as the widest format has; the others are too many or too few
  cases format <;> rcases front with _ | ⟨a, _ | ⟨b, _ | ⟨c, _ | ⟨d, _ | ⟨e, front⟩⟩⟩⟩⟩
  all_goals first | rfl | simp [Format.width?] at fixed

theorem opcodeAt_ok_iff {first : UInt16} :
    opcodeAt version pc first = .ok opcode ↔
      InstructionSet.lookup? version (keyOf first) = some opcode := by
  cases looked : InstructionSet.lookup? version (keyOf first) with
  | some row => simp [opcodeAt, looked]
  | none =>
    simp only [opcodeAt, looked]
    split <;> simp

/-- An instruction that takes `width` units from address `pc` on, of which `left` are left. -/
structure Placed (pc left : Nat) (insn : Instruction) (width : Nat) : Prop where
  offset : insn.offset = pc * 2 % UInt32.size
  length : insn.length = width % UInt32.size
  sized : Sized insn.format insn.payload width
  within : width ≤ left

/-- All that decoding one instruction settles about its place and width. -/
theorem decodeAt_ok {first : UInt16} {rest : List UInt16} {insn : Instruction} {width : Nat}
    (decoded : decodeAt version resolve pc first rest = .ok (insn, width)) :
    Placed pc (first :: rest).length insn width := by
  obtain ⟨opcode, -, decoded⟩ := except_bind_ok decoded
  obtain ⟨⟨operands, payload, width⟩, body, built⟩ := except_bind_ok decoded
  cases built
  obtain ⟨sized, within⟩ := bodyAt_ok body
  exact ⟨rfl, rfl, sized, within⟩

/-! ### Runs of the sweep -/

theorem sweep_skip {skip : Nat} (enough : skip ≤ units.length) (done : Array Instruction) :
    sweep version resolve pc skip units done =
      sweep version resolve (pc + skip) 0 (units.drop skip) done := by
  induction units generalizing pc skip with
  | nil =>
    obtain rfl : skip = 0 := by simpa using enough
    rfl
  | cons unit rest ih =>
    cases skip with
    | zero => rfl
    | succ skip =>
      rw [sweep, ih (by simpa using enough), List.drop_succ_cons, Nat.add_assoc, Nat.add_comm 1]

/-- One round of the sweep: an instruction, and then what stands behind it. -/
theorem sweep_step (version : Nat) (resolve : Resolver) (pc : Nat) (first : UInt16)
    (rest : List UInt16) (done : Array Instruction) :
    sweep version resolve pc 0 (first :: rest) done =
      (decodeAt version resolve pc first rest).bind fun found =>
        sweep version resolve (pc + found.2) 0 ((first :: rest).drop found.2)
          (done.push found.1) := by
  rw [sweep]
  split
  next insn width decoded =>
    have placed := decodeAt_ok decoded
    have within := placed.within
    obtain ⟨more, rfl⟩ := Nat.exists_eq_add_one_of_ne_zero (Nat.ne_of_gt placed.sized.pos)
    have enough : more ≤ rest.length := by simpa using within
    rw [decoded, Except.bind, Nat.add_sub_cancel, sweep_skip enough, List.drop_succ_cons,
      Nat.add_assoc, Nat.add_comm 1]
  next e failed => rw [failed, Except.bind]

/-- Instructions that are taken one after another from the units at address `pc`, up to the last
of them. -/
inductive Sweeps (version : Nat) (resolve : Resolver) :
    Nat → List UInt16 → List Instruction → Prop where
  | done (pc : Nat) : Sweeps version resolve pc [] []
  | step {pc width : Nat} {first : UInt16} {rest : List UInt16} {insn : Instruction}
      {insns : List Instruction}
      (decoded : decodeAt version resolve pc first rest = .ok (insn, width))
      (others : Sweeps version resolve (pc + width) ((first :: rest).drop width) insns) :
      Sweeps version resolve pc (first :: rest) (insn :: insns)

theorem sweeps_of_sweep {done insns : Array Instruction}
    (swept : sweep version resolve pc 0 units done = .ok insns) :
    ∃ list : List Instruction, insns = done ++ list ∧ Sweeps version resolve pc units list := by
  -- every instruction takes a unit at least, so what is left gets shorter
  induction length : units.length using Nat.strongRecOn generalizing pc units done with
  | ind n ih =>
    subst length
    cases units with
    | nil =>
      obtain rfl : done = insns := by simpa [sweep] using swept
      exact ⟨[], by simp, .done pc⟩
    | cons first rest =>
      rw [sweep_step] at swept
      obtain ⟨⟨insn, width⟩, decoded, swept⟩ := except_bind_ok swept
      have positive := (decodeAt_ok decoded).sized.pos
      have shorter : ((first :: rest).drop width).length < (first :: rest).length := by
        rw [List.length_drop, List.length_cons]
        omega
      obtain ⟨list, same, others⟩ := ih _ shorter swept rfl
      exact ⟨insn :: list, by simp [same], .step decoded others⟩

/-- What holds of every instruction that is decoded holds all along a run. -/
theorem Sweeps.each {list : List Instruction} {holds : Instruction → Prop}
    (run : Sweeps version resolve pc units list)
    (one : ∀ {pc width : Nat} {first : UInt16} {rest : List UInt16} {insn : Instruction},
      decodeAt version resolve pc first rest = .ok (insn, width) → holds insn) :
    ∀ insn ∈ list, holds insn := by
  induction run with
  | done => simp
  | step decoded _ ih =>
    intro other member
    rcases List.mem_cons.mp member with rfl | later
    · exact one decoded
    · exact ih other later

theorem sweep_of_sweeps {list : List Instruction} (run : Sweeps version resolve pc units list)
    (done : Array Instruction) :
    sweep version resolve pc 0 units done = .ok (done ++ list) := by
  induction run generalizing done with
  | done pc => simp [sweep]
  | step decoded _ ih =>
    rw [sweep_step, decoded, Except.bind, ih]
    simp

theorem decode_ok {code : List UInt16} {insns : Array Instruction}
    (decoded : decode version resolve code = .ok insns) :
    Sweeps version resolve 0 code insns.toList ∧ strayTarget? insns = none := by
  obtain ⟨swept, run, decoded⟩ := except_bind_ok decoded
  split at decoded
  next settled =>
    obtain rfl := Except.ok.inj decoded
    obtain ⟨list, rfl, sweeps⟩ := sweeps_of_sweep run
    exact ⟨by simpa using sweeps, settled⟩
  next => cases decoded

theorem decode_of_sweeps {code : List UInt16} {list : List Instruction}
    (run : Sweeps version resolve 0 code list) (settled : strayTarget? list.toArray = none) :
    decode version resolve code = .ok list.toArray := by
  have swept : sweep version resolve 0 0 code #[] = .ok list.toArray := by
    simpa using sweep_of_sweeps run #[]
  simp only [decode, swept, bind, Except.bind, settled]
  rfl

end Instruction

end DexAtlas
