import DexAtlas.Instruction.Assemble
import DexAtlas.Proofs.Sweep
import Mathlib.Data.List.Chain

/-!
# Reading back the units of a fixed format

A format says in which bits of its units an instruction keeps its opcode and its operands. Operands
in the range of their fields are written without loss, and reading the units gives them back, each
pool index as what the resolver answers for it.
-/
namespace DexAtlas

/-! ### The instruction set -/

namespace VersionSpan

theorem value_of_valueAt? {spans : List VersionSpan} {version value : Nat}
    (found : valueAt? spans version = some value) : ∃ span ∈ spans, span.value = value := by
  unfold valueAt? at found
  induction spans using List.reverseRecOn with
  | nil => cases found
  | append_singleton before last ih =>
    rw [List.foldl_append] at found
    simp only [List.foldl_cons, List.foldl_nil] at found
    split at found
    · exact ⟨last, by simp, Option.some.inj found⟩
    · obtain ⟨span, member, same⟩ := ih found
      exact ⟨span, by simp [member], same⟩

end VersionSpan

namespace InstructionSet

/-- The rows stand in the order of their values. -/
theorem values_increase :
    (all.flatMap fun row => row.spans.map VersionSpan.value).IsChain (· < ·) := by
  decide +kernel

/-- The value of a table fills a unit and has no low byte; all others are a low byte. -/
theorem value_range : ∀ row ∈ all, ∀ span ∈ row.spans,
    (row.format.isPayload = true →
      span.value % 0x100 = 0 ∧ 0x100 ≤ span.value ∧ span.value < 0x10000) ∧
    (row.format.isPayload = false →
      span.value < 0x100 ∧ (span.value = 0 → row.format = .f10x)) := by
  decide +kernel

theorem lookup?_of_mem {version value : Nat} {row : Opcode} (member : row ∈ all)
    (found : row.valueAt? version = some value) : lookup? version value = some row := by
  obtain ⟨span, listed, rfl⟩ := VersionSpan.value_of_valueAt? found
  obtain ⟨before, after, split⟩ := List.append_of_mem member
  have ordered := (List.pairwise_flatMap.mp (List.isChain_iff_pairwise.mp values_increase)).2
  rw [split] at ordered
  rw [lookup?, split]
  refine List.find?_eq_some_iff_append.mpr ⟨by simp [found], before, after, rfl, ?_⟩
  intro other earlier
  -- a row before this one has a smaller value
  have smaller := (List.pairwise_append.mp ordered).2.2 other earlier row (by simp)
  simp only [Bool.not_eq_true', beq_eq_false_iff_ne]
  intro same
  obtain ⟨span', listed', equal⟩ := VersionSpan.value_of_valueAt? same
  have less := smaller _ (List.mem_map_of_mem listed') _ (List.mem_map_of_mem listed)
  omega

end InstructionSet

namespace Instruction

/-! ### Fields of code units -/

theorem toNat_ofNat16 {n : Nat} (fits : n < 0x10000) : (UInt16.ofNat n).toNat = n := by
  rw [UInt16.toNat_ofNat']
  exact Nat.mod_eq_of_lt fits

theorem toNat_bytePair {low high : Nat} (lowFits : low < 0x100) (highFits : high < 0x100) :
    (bytePair low high).toNat = low + 0x100 * high :=
  toNat_ofNat16 (by omega)

theorem lowByte_bytePair {low high : Nat} (lowFits : low < 0x100) (highFits : high < 0x100) :
    lowByte (bytePair low high) = low := by
  rw [lowByte, toNat_bytePair lowFits highFits]
  omega

theorem highByte_bytePair {low high : Nat} (lowFits : low < 0x100) (highFits : high < 0x100) :
    highByte (bytePair low high) = high := by
  rw [highByte, toNat_bytePair lowFits highFits]
  omega

theorem toNat_nibblePair {low a b : Nat} (lowFits : low < 0x100) (aFits : a < 0x10)
    (bFits : b < 0x10) : (nibblePair low a b).toNat = low + 0x100 * a + 0x1000 * b :=
  toNat_ofNat16 (by omega)

theorem lowByte_nibblePair {low a b : Nat} (lowFits : low < 0x100) (aFits : a < 0x10)
    (bFits : b < 0x10) : lowByte (nibblePair low a b) = low := by
  rw [lowByte, toNat_nibblePair lowFits aFits bFits]
  omega

theorem nibbleA_nibblePair {low a b : Nat} (lowFits : low < 0x100) (aFits : a < 0x10)
    (bFits : b < 0x10) : nibbleA (nibblePair low a b) = a := by
  rw [nibbleA, toNat_nibblePair lowFits aFits bFits]
  omega

theorem nibbleB_nibblePair {low a b : Nat} (lowFits : low < 0x100) (aFits : a < 0x10)
    (bFits : b < 0x10) : nibbleB (nibblePair low a b) = b := by
  rw [nibbleB, toNat_nibblePair lowFits aFits bFits]
  omega

theorem length_unitsOf (count n : Nat) : (unitsOf count n).length = count := by
  induction count generalizing n with
  | zero => rfl
  | succ count ih => rw [unitsOf, List.length_cons, ih]

theorem unitsValue_unitsOf {count n : Nat} (fits : n < 0x10000 ^ count) :
    unitsValue (unitsOf count n) = n := by
  induction count generalizing n with
  | zero =>
    rw [Nat.pow_zero] at fits
    rw [unitsOf, unitsValue]
    omega
  | succ count ih =>
    have rest : n / 0x10000 < 0x10000 ^ count := by
      rw [Nat.pow_succ] at fits
      omega
    rw [unitsOf, unitsValue, ih rest, UInt16.toNat_ofNat']
    omega

/-- A whole number that `bits` bits hold with its sign. -/
def Signed (bits : Nat) (i : Int) : Prop :=
  -((2 ^ (bits - 1) : Nat) : Int) ≤ i ∧ i < ((2 ^ (bits - 1) : Nat) : Int)

instance (bits : Nat) (i : Int) : Decidable (Signed bits i) :=
  inferInstanceAs (Decidable (_ ∧ _))

theorem complement_lt (bits : Nat) (i : Int) : complement bits i < 2 ^ bits := by
  have positive : (0 : Int) < (2 ^ bits : Nat) := Int.natCast_pos.mpr (Nat.two_pow_pos bits)
  rw [complement, Nat.shiftLeft_eq, Nat.one_mul]
  have below := Int.emod_lt_of_pos i positive
  omega

theorem signExtend_complement {bits : Nat} {i : Int} (signed : Signed bits i) (some : 0 < bits) :
    signExtend bits (complement bits i) = i := by
  obtain ⟨low, high⟩ := signed
  have half : (2 ^ bits : Nat) = 2 * 2 ^ (bits - 1) := by
    rw [← Nat.pow_succ']
    congr 1
    omega
  have positive : (0 : Int) < (2 ^ bits : Nat) := Int.natCast_pos.mpr (Nat.two_pow_pos bits)
  rw [signExtend, complement, Nat.shiftLeft_eq, Nat.one_mul,
    Int.toNat_of_nonneg (Int.emod_nonneg _ (by omega)), Int.emod_bmod, half]
  apply Int.bmod_eq_of_le
  · omega
  · omega

theorem signed16_complement {i : Int} (signed : Signed 16 i) :
    signed16 (UInt16.ofNat (complement 16 i)) = i := by
  rw [signed16, toNat_ofNat16 (complement_lt 16 i), signExtend_complement signed (by decide)]

theorem integersOf_integerUnits {i : Int} (signed : Signed 32 i) (rest : List UInt16) :
    integersOf (integerUnits i ++ rest) = i :: integersOf rest := by
  have value : unitsValue (integerUnits i) = complement 32 i :=
    unitsValue_unitsOf (complement_lt 32 i)
  simp only [integerUnits, unitsOf, List.cons_append, List.nil_append] at value ⊢
  rw [integersOf, signed32, value, signExtend_complement signed (by decide)]

/-! ### Operands in range -/

/-- The operands that a fixed format has, each in the range of its field. -/
inductive InFormat : Format → List Operand → Prop
  | f10x : InFormat .f10x []
  | f10t {t : Int} (t8 : Signed 8 t) : InFormat .f10t [.target t]
  | f11x {a : Nat} (a8 : a < 0x100) : InFormat .f11x [.register a]
  | f11n {a : Nat} {i : Int} (a4 : a < 0x10) (i4 : Signed 4 i) :
    InFormat .f11n [.register a, .literal i]
  | f12x {a b : Nat} (a4 : a < 0x10) (b4 : b < 0x10) : InFormat .f12x [.register a, .register b]
  | f20t {t : Int} (t16 : Signed 16 t) : InFormat .f20t [.target t]
  | f21c {a : Nat} {r : Reference} (a8 : a < 0x100) (r16 : r.index < 0x10000) :
    InFormat .f21c [.register a, .reference r]
  | f21ih {a : Nat} {i : Int} (a8 : a < 0x100) (i32 : Signed 32 i) (whole : i % 0x10000 = 0) :
    InFormat .f21ih [.register a, .literal i]
  | f21lh {a : Nat} {i : Int} (a8 : a < 0x100) (i64 : Signed 64 i)
    (whole : i % 0x1000000000000 = 0) : InFormat .f21lh [.register a, .literal i]
  | f21s {a : Nat} {i : Int} (a8 : a < 0x100) (i16 : Signed 16 i) :
    InFormat .f21s [.register a, .literal i]
  | f21t {a : Nat} {t : Int} (a8 : a < 0x100) (t16 : Signed 16 t) :
    InFormat .f21t [.register a, .target t]
  | f22b {a b : Nat} {i : Int} (a8 : a < 0x100) (b8 : b < 0x100) (i8 : Signed 8 i) :
    InFormat .f22b [.register a, .register b, .literal i]
  | f22c {a b : Nat} {r : Reference} (a4 : a < 0x10) (b4 : b < 0x10) (r16 : r.index < 0x10000) :
    InFormat .f22c [.register a, .register b, .reference r]
  | f22s {a b : Nat} {i : Int} (a4 : a < 0x10) (b4 : b < 0x10) (i16 : Signed 16 i) :
    InFormat .f22s [.register a, .register b, .literal i]
  | f22t {a b : Nat} {t : Int} (a4 : a < 0x10) (b4 : b < 0x10) (t16 : Signed 16 t) :
    InFormat .f22t [.register a, .register b, .target t]
  | f22x {a b : Nat} (a8 : a < 0x100) (b16 : b < 0x10000) :
    InFormat .f22x [.register a, .register b]
  | f23x {a b c : Nat} (a8 : a < 0x100) (b8 : b < 0x100) (c8 : c < 0x100) :
    InFormat .f23x [.register a, .register b, .register c]
  | f30t {t : Int} (t32 : Signed 32 t) : InFormat .f30t [.target t]
  | f31c {a : Nat} {r : Reference} (a8 : a < 0x100) (r32 : r.index < 0x100000000) :
    InFormat .f31c [.register a, .reference r]
  | f31i {a : Nat} {i : Int} (a8 : a < 0x100) (i32 : Signed 32 i) :
    InFormat .f31i [.register a, .literal i]
  | f31t {a : Nat} {t : Int} (a8 : a < 0x100) (t32 : Signed 32 t) :
    InFormat .f31t [.register a, .target t]
  | f32x {a b : Nat} (a16 : a < 0x10000) (b16 : b < 0x10000) :
    InFormat .f32x [.register a, .register b]
  | f35c {list : List Nat} {r : Reference} (few : list.length ≤ 5) (each4 : ∀ a ∈ list, a < 0x10)
    (r16 : r.index < 0x10000) : InFormat .f35c [.registers list, .reference r]
  | f3rc {start count : Nat} {r : Reference} (start16 : start < 0x10000) (count8 : count < 0x100)
    (r16 : r.index < 0x10000) : InFormat .f3rc [.registerRange start count, .reference r]
  | f45cc {list : List Nat} {r proto : Reference} (few : list.length ≤ 5)
    (each4 : ∀ a ∈ list, a < 0x10) (r16 : r.index < 0x10000) (proto16 : proto.index < 0x10000) :
    InFormat .f45cc [.registers list, .reference r, .reference proto]
  | f4rcc {start count : Nat} {r proto : Reference} (start16 : start < 0x10000)
    (count8 : count < 0x100) (r16 : r.index < 0x10000) (proto16 : proto.index < 0x10000) :
    InFormat .f4rcc [.registerRange start count, .reference r, .reference proto]
  | f51l {a : Nat} {i : Int} (a8 : a < 0x100) (i64 : Signed 64 i) :
    InFormat .f51l [.register a, .literal i]

/-- The pools that the indexes of an instruction point into, in their order. -/
def pools (opcode : Opcode) : List PoolKind :=
  match opcode.reference with
  | some kind => [kind, opcode.reference2.getD .proto]
  | none => []

/-- The resolver has an answer to every index among the operands. -/
def Accepted (resolve : Resolver) : List Operand → List PoolKind → Prop
  | [], _ => True
  | .reference r :: rest, kind :: kinds =>
    (∃ answer, resolve kind r.index = .ok answer) ∧ Accepted resolve rest kinds
  | .reference _ :: _, [] => False
  | _ :: rest, kinds => Accepted resolve rest kinds

/-- The operands with the resolver's answer in the place of every index. -/
def answered (resolve : Resolver) : List Operand → List PoolKind → List Operand
  | [], _ => []
  | .reference r :: rest, kind :: kinds =>
    .reference ((resolve kind r.index).toOption.getD r) :: answered resolve rest kinds
  | .reference r :: rest, [] => .reference r :: answered resolve rest []
  | operand :: rest, kinds => operand :: answered resolve rest kinds

variable {resolve : Resolver} {opcode : Opcode}

theorem listUnits_read {value : Nat} {list : List Nat} (small : value < 0x100)
    (few : list.length ≤ 5) (each4 : ∀ a ∈ list, a < 0x10) :
    lowByte (listUnits value list).1 = value ∧
      listedRegisters (listUnits value list).1 (listUnits value list).2 = .ok (.registers list) := by
  have each : ∀ i : Nat, list[i]?.getD 0 < 0x10 := by
    intro i
    cases found : list[i]? with
    | none => decide
    | some a => exact each4 a (List.mem_of_getElem? found)
  have count4 : list.length < 0x10 := by omega
  refine ⟨lowByte_nibblePair small (each 4) count4, ?_⟩
  have first := each 0
  have second := each 1
  have third := each 2
  have fourth := each 3
  have word : (listUnits value list).2.toNat = list[0]?.getD 0 + 0x10 * list[1]?.getD 0 +
      0x100 * list[2]?.getD 0 + 0x1000 * list[3]?.getD 0 := by
    apply toNat_ofNat16
    dsimp only
    omega
  have count : nibbleB (listUnits value list).1 = list.length :=
    nibbleB_nibblePair small (each 4) count4
  have fifth : nibbleA (listUnits value list).1 = list[4]?.getD 0 :=
    nibbleA_nibblePair small (each 4) count4
  rw [listedRegisters, count, fifth, if_neg (by omega)]
  -- the five fields of the two units are the entries of the list and zeros after its end
  have fields : [(listUnits value list).2.toNat % 0x10,
      (listUnits value list).2.toNat / 0x10 % 0x10,
      (listUnits value list).2.toNat / 0x100 % 0x10,
      (listUnits value list).2.toNat / 0x1000, list[4]?.getD 0] =
      [list[0]?.getD 0, list[1]?.getD 0, list[2]?.getD 0, list[3]?.getD 0, list[4]?.getD 0] := by
    rw [word]
    congr 1
    · omega
    congr 1
    · omega
    congr 1
    · omega
    congr 1
    omega
  dsimp only
  rw [fields]
  congr 2
  -- what remains is to cut five entries down to as many as there are
  rcases list with _ | ⟨a, _ | ⟨b, _ | ⟨c, _ | ⟨d, _ | ⟨e, _ | ⟨f, rest⟩⟩⟩⟩⟩⟩
  case cons.cons.cons.cons.cons.cons =>
    simp only [List.length_cons] at few
    omega
  all_goals rfl

theorem Signed.div {bits : Nat} {i : Int} (signed : Signed bits i) (count : Nat)
    (fewer : count < bits) : Signed (bits - count) (i / ((2 ^ count : Nat) : Int)) := by
  obtain ⟨low, high⟩ := signed
  have split : 2 ^ (bits - 1) = 2 ^ (bits - count - 1) * 2 ^ count := by
    rw [← Nat.pow_add]
    congr 1
    omega
  have positive : (0 : Int) < (2 ^ count : Nat) := Int.natCast_pos.mpr (Nat.two_pow_pos count)
  rw [split, Int.natCast_mul] at low high
  constructor
  · apply Int.le_ediv_of_mul_le positive
    rwa [Int.neg_mul]
  · exact Int.ediv_lt_of_lt_mul positive high

theorem signExtend_integerUnits {i : Int} (i32 : Signed 32 i) :
    signExtend 32 (unitsValue (integerUnits i)) = i := by
  rw [integerUnits, unitsValue_unitsOf (complement_lt 32 i),
    signExtend_complement i32 (by decide)]

theorem orElse_some {α : Type} (a : Option α) (b : α) : (a <|> some b) = some (a.getD b) := by
  cases a <;> rfl

theorem resolveIndex_accepted {kind : PoolKind} {kinds : List PoolKind} {r : Reference}
    {rest : List Operand} (accepted : Accepted resolve (.reference r :: rest) (kind :: kinds)) :
    ∃ answer, resolveIndex resolve (some kind) r.index = .ok (.reference answer) ∧
      Accepted resolve rest kinds ∧
      answered resolve (.reference r :: rest) (kind :: kinds) =
        .reference answer :: answered resolve rest kinds := by
  obtain ⟨⟨answer, answers⟩, others⟩ := accepted
  refine ⟨answer, ?_, others, ?_⟩
  · rw [resolveIndex, answers]
    rfl
  · rw [answered, answers]
    rfl

theorem resolveIndex_pools {r : Reference} {rest : List Operand}
    (accepted : Accepted resolve (.reference r :: rest) (pools opcode)) :
    ∃ answer, resolveIndex resolve opcode.reference r.index = .ok (.reference answer) ∧
      Accepted resolve rest [opcode.reference2.getD .proto] ∧
      answered resolve (.reference r :: rest) (pools opcode) =
        .reference answer :: answered resolve rest [opcode.reference2.getD .proto] := by
  unfold pools at accepted ⊢
  cases kind : opcode.reference with
  | none =>
    rw [kind] at accepted
    exact accepted.elim
  | some _ =>
    rw [kind] at accepted
    exact resolveIndex_accepted accepted

theorem fixedUnits_inFormat {value : Nat} {operands : List Operand} (small : value < 0x100)
    (fits : InFormat opcode.format operands) (accepted : Accepted resolve operands (pools opcode)) :
    ∃ first rest, fixedUnits value opcode.format operands = some (first :: rest) ∧
      opcode.format.width? = some (first :: rest).length ∧ lowByte first = value ∧
      (opcode.format = .f10x → highByte first = 0) ∧
      operandsOf resolve opcode (first :: rest) = .ok (answered resolve operands (pools opcode)) := by
  obtain ⟨name, format, reference, reference2, effects, spans⟩ := opcode
  -- in every case the goal is turned into the operands as read from the units that were written,
  -- and then field after field is the value that was put into it
  cases fits with
  | f10x =>
    exact ⟨_, _, rfl, rfl, lowByte_bytePair small (by decide),
      fun _ => highByte_bytePair small (by decide), rfl⟩
  | f10t t8 =>
    refine ⟨_, _, rfl, rfl, lowByte_bytePair small (complement_lt 8 _), nofun, ?_⟩
    show Except.ok [Operand.target (signExtend 8 (highByte _))] = _
    rw [highByte_bytePair small (complement_lt 8 _), signExtend_complement t8 (by decide)]
    rfl
  | f11x a8 =>
    refine ⟨_, _, rfl, rfl, lowByte_bytePair small a8, nofun, ?_⟩
    show Except.ok [Operand.register (highByte _)] = _
    rw [highByte_bytePair small a8]
    rfl
  | f11n a4 i4 =>
    refine ⟨_, _, rfl, rfl, lowByte_nibblePair small a4 (complement_lt 4 _), nofun, ?_⟩
    show Except.ok [Operand.register (nibbleA _), .literal (signExtend 4 (nibbleB _))] = _
    rw [nibbleA_nibblePair small a4 (complement_lt 4 _),
      nibbleB_nibblePair small a4 (complement_lt 4 _), signExtend_complement i4 (by decide)]
    rfl
  | f12x a4 b4 =>
    refine ⟨_, _, rfl, rfl, lowByte_nibblePair small a4 b4, nofun, ?_⟩
    show Except.ok [Operand.register (nibbleA _), .register (nibbleB _)] = _
    rw [nibbleA_nibblePair small a4 b4, nibbleB_nibblePair small a4 b4]
    rfl
  | f20t t16 =>
    refine ⟨_, _, rfl, rfl, lowByte_bytePair small (by decide), nofun, ?_⟩
    show Except.ok [Operand.target (signed16 _)] = _
    rw [signed16_complement t16]
    rfl
  | @f21c a r a8 r16 =>
    obtain ⟨answer, index, -, equal⟩ :=
      resolveIndex_pools (accepted : Accepted resolve [.reference r] _)
    refine ⟨_, _, rfl, rfl, lowByte_bytePair small a8, nofun, ?_⟩
    show (do return [Operand.register (highByte _), ← resolveIndex resolve reference _]) = _
    rw [highByte_bytePair small a8, toNat_ofNat16 r16, index]
    exact congrArg (fun operands => Except.ok (.register a :: operands)) equal.symm
  | f21ih a8 i32 whole =>
    refine ⟨_, _, rfl, rfl, lowByte_bytePair small a8, nofun, ?_⟩
    show Except.ok [Operand.register (highByte _), .literal (signed16 _ * 0x10000)] = _
    have high : Signed 16 (_ / 0x10000) := i32.div 16 (by decide)
    rw [highByte_bytePair small a8, signed16_complement high,
      Int.ediv_mul_cancel (Int.dvd_of_emod_eq_zero whole)]
    rfl
  | f21lh a8 i64 whole =>
    refine ⟨_, _, rfl, rfl, lowByte_bytePair small a8, nofun, ?_⟩
    show Except.ok [Operand.register (highByte _), .literal (signed16 _ * 0x1000000000000)] = _
    have high : Signed 16 (_ / 0x1000000000000) := i64.div 48 (by decide)
    rw [highByte_bytePair small a8, signed16_complement high,
      Int.ediv_mul_cancel (Int.dvd_of_emod_eq_zero whole)]
    rfl
  | f21s a8 i16 =>
    refine ⟨_, _, rfl, rfl, lowByte_bytePair small a8, nofun, ?_⟩
    show Except.ok [Operand.register (highByte _), .literal (signed16 _)] = _
    rw [highByte_bytePair small a8, signed16_complement i16]
    rfl
  | f21t a8 t16 =>
    refine ⟨_, _, rfl, rfl, lowByte_bytePair small a8, nofun, ?_⟩
    show Except.ok [Operand.register (highByte _), .target (signed16 _)] = _
    rw [highByte_bytePair small a8, signed16_complement t16]
    rfl
  | f22b a8 b8 i8 =>
    refine ⟨_, _, rfl, rfl, lowByte_bytePair small a8, nofun, ?_⟩
    show Except.ok [Operand.register (highByte _), .register (lowByte _),
      .literal (signExtend 8 (highByte (bytePair _ (complement 8 _))))] = _
    rw [highByte_bytePair small a8, lowByte_bytePair b8 (complement_lt 8 _),
      highByte_bytePair b8 (complement_lt 8 _), signExtend_complement i8 (by decide)]
    rfl
  | @f22c a b r a4 b4 r16 =>
    obtain ⟨answer, index, -, equal⟩ :=
      resolveIndex_pools (accepted : Accepted resolve [.reference r] _)
    refine ⟨_, _, rfl, rfl, lowByte_nibblePair small a4 b4, nofun, ?_⟩
    show (do return [Operand.register (nibbleA _), .register (nibbleB _),
      ← resolveIndex resolve reference _]) = _
    rw [nibbleA_nibblePair small a4 b4, nibbleB_nibblePair small a4 b4, toNat_ofNat16 r16, index]
    exact congrArg (fun operands => Except.ok (.register a :: .register b :: operands)) equal.symm
  | f22s a4 b4 i16 =>
    refine ⟨_, _, rfl, rfl, lowByte_nibblePair small a4 b4, nofun, ?_⟩
    show Except.ok [Operand.register (nibbleA _), .register (nibbleB _),
      .literal (signed16 _)] = _
    rw [nibbleA_nibblePair small a4 b4, nibbleB_nibblePair small a4 b4, signed16_complement i16]
    rfl
  | f22t a4 b4 t16 =>
    refine ⟨_, _, rfl, rfl, lowByte_nibblePair small a4 b4, nofun, ?_⟩
    show Except.ok [Operand.register (nibbleA _), .register (nibbleB _),
      .target (signed16 _)] = _
    rw [nibbleA_nibblePair small a4 b4, nibbleB_nibblePair small a4 b4, signed16_complement t16]
    rfl
  | f22x a8 b16 =>
    refine ⟨_, _, rfl, rfl, lowByte_bytePair small a8, nofun, ?_⟩
    show Except.ok [Operand.register (highByte _), .register (UInt16.ofNat _).toNat] = _
    rw [highByte_bytePair small a8, toNat_ofNat16 b16]
    rfl
  | f23x a8 b8 c8 =>
    refine ⟨_, _, rfl, rfl, lowByte_bytePair small a8, nofun, ?_⟩
    show Except.ok [Operand.register (highByte _), .register (lowByte _),
      .register (highByte (bytePair _ _))] = _
    rw [highByte_bytePair small a8, lowByte_bytePair b8 c8, highByte_bytePair b8 c8]
    rfl
  | f30t t32 =>
    refine ⟨_, _, rfl, rfl, lowByte_bytePair small (by decide), nofun, ?_⟩
    show Except.ok [Operand.target (signExtend 32 (unitsValue (integerUnits _)))] = _
    rw [signExtend_integerUnits t32]
    rfl
  | @f31c a r a8 r32 =>
    obtain ⟨answer, index, -, equal⟩ :=
      resolveIndex_pools (accepted : Accepted resolve [.reference r] _)
    refine ⟨_, _, rfl, rfl, lowByte_bytePair small a8, nofun, ?_⟩
    show (do return [Operand.register (highByte _),
      ← resolveIndex resolve reference (unitsValue (unitsOf 2 _))]) = _
    rw [highByte_bytePair small a8, unitsValue_unitsOf r32, index]
    exact congrArg (fun operands => Except.ok (.register a :: operands)) equal.symm
  | f31i a8 i32 =>
    refine ⟨_, _, rfl, rfl, lowByte_bytePair small a8, nofun, ?_⟩
    show Except.ok [Operand.register (highByte _),
      .literal (signExtend 32 (unitsValue (integerUnits _)))] = _
    rw [highByte_bytePair small a8, signExtend_integerUnits i32]
    rfl
  | f31t a8 t32 =>
    refine ⟨_, _, rfl, rfl, lowByte_bytePair small a8, nofun, ?_⟩
    show Except.ok [Operand.register (highByte _),
      .target (signExtend 32 (unitsValue (integerUnits _)))] = _
    rw [highByte_bytePair small a8, signExtend_integerUnits t32]
    rfl
  | f32x a16 b16 =>
    refine ⟨_, _, rfl, rfl, lowByte_bytePair small (by decide), nofun, ?_⟩
    show Except.ok [Operand.register (UInt16.ofNat _).toNat,
      .register (UInt16.ofNat _).toNat] = _
    rw [toNat_ofNat16 a16, toNat_ofNat16 b16]
    rfl
  | @f35c list r few each4 r16 =>
    obtain ⟨answer, index, -, equal⟩ :=
      resolveIndex_pools (accepted : Accepted resolve [.reference r] _)
    obtain ⟨low, listed⟩ := listUnits_read small few each4
    refine ⟨_, _, rfl, rfl, low, nofun, ?_⟩
    show (do return [← listedRegisters (listUnits value list).1 (listUnits value list).2,
      ← resolveIndex resolve reference (UInt16.ofNat r.index).toNat]) = _
    rw [listed, toNat_ofNat16 r16, index]
    exact congrArg (fun operands => Except.ok (.registers list :: operands)) equal.symm
  | @f3rc start count r start16 count8 r16 =>
    obtain ⟨answer, index, -, equal⟩ :=
      resolveIndex_pools (accepted : Accepted resolve [.reference r] _)
    refine ⟨_, _, rfl, rfl, lowByte_bytePair small count8, nofun, ?_⟩
    show (do return [Operand.registerRange (UInt16.ofNat start).toNat (highByte _),
      ← resolveIndex resolve reference (UInt16.ofNat r.index).toNat]) = _
    rw [toNat_ofNat16 start16, highByte_bytePair small count8, toNat_ofNat16 r16, index]
    exact congrArg (fun operands => Except.ok (.registerRange start count :: operands)) equal.symm
  | @f45cc list r proto few each4 r16 proto16 =>
    obtain ⟨answer, index, others, equal⟩ :=
      resolveIndex_pools (accepted : Accepted resolve [.reference r, .reference proto] _)
    obtain ⟨answer', index', -, equal'⟩ := resolveIndex_accepted others
    obtain ⟨low, listed⟩ := listUnits_read small few each4
    refine ⟨_, _, rfl, rfl, low, nofun, ?_⟩
    show (do return [← listedRegisters (listUnits value list).1 (listUnits value list).2,
      ← resolveIndex resolve reference (UInt16.ofNat r.index).toNat,
      ← resolveIndex resolve (reference2 <|> some PoolKind.proto) (UInt16.ofNat proto.index).toNat]) = _
    rw [listed, toNat_ofNat16 r16, index, toNat_ofNat16 proto16, orElse_some, index']
    exact congrArg (fun operands => Except.ok (.registers list :: operands))
      (equal.trans (congrArg _ equal')).symm
  | @f4rcc start count r proto start16 count8 r16 proto16 =>
    obtain ⟨answer, index, others, equal⟩ :=
      resolveIndex_pools (accepted : Accepted resolve [.reference r, .reference proto] _)
    obtain ⟨answer', index', -, equal'⟩ := resolveIndex_accepted others
    refine ⟨_, _, rfl, rfl, lowByte_bytePair small count8, nofun, ?_⟩
    show (do return [Operand.registerRange (UInt16.ofNat start).toNat (highByte _),
      ← resolveIndex resolve reference (UInt16.ofNat r.index).toNat,
      ← resolveIndex resolve (reference2 <|> some PoolKind.proto) (UInt16.ofNat proto.index).toNat]) = _
    rw [toNat_ofNat16 start16, highByte_bytePair small count8, toNat_ofNat16 r16, index,
      toNat_ofNat16 proto16, orElse_some, index']
    exact congrArg (fun operands => Except.ok (.registerRange start count :: operands))
      (equal.trans (congrArg _ equal')).symm
  | f51l a8 i64 =>
    refine ⟨_, _, rfl, rfl, lowByte_bytePair small a8, nofun, ?_⟩
    show Except.ok [Operand.register (highByte _),
      .literal (signExtend 64 (unitsValue (unitsOf 4 _)))] = _
    rw [highByte_bytePair small a8, unitsValue_unitsOf (complement_lt 64 _),
      signExtend_complement i64 (by decide)]
    rfl

end Instruction

end DexAtlas
