import DexAtlas.Graph.Entity
import DexAtlas.Instruction.Decode

/-!
# References in decoded code

Every reference in a decoded instruction is the resolver's answer to an index of a pool that the
opcode points into. For the pools of an image it follows that a reference spells out the very entry
it stands for, and that a type is referred to only by instructions that use it as a class.
-/
namespace DexAtlas

/-- Whether an index operand of the opcode points into the pool. -/
def Opcode.RefersTo (opcode : Opcode) (kind : PoolKind) : Prop :=
  opcode.reference = some kind ∨ (opcode.reference2 <|> some .proto) = some kind

instance (opcode : Opcode) (kind : PoolKind) : Decidable (opcode.RefersTo kind) :=
  inferInstanceAs (Decidable (_ ∨ _))

namespace Instruction

variable {version pc : Nat} {resolve : Resolver} {opcode : Opcode}

theorem except_bind_ok {ε α β : Type} {step : Except ε α} {next : α → Except ε β} {b : β}
    (ended : step >>= next = .ok b) : ∃ a, step = .ok a ∧ next a = .ok b := by
  cases step with
  | error e => cases ended
  | ok a => exact ⟨a, rfl, ended⟩

theorem resolveIndex_ok {kind : Option PoolKind} {index : Nat} {operand : Operand}
    (resolved : resolveIndex resolve kind index = .ok operand) :
    ∃ pool reference, kind = some pool ∧ resolve pool index = .ok reference ∧
      operand = .reference reference := by
  unfold resolveIndex at resolved
  split at resolved
  · cases resolved
  next pool =>
    cases answer : resolve pool index with
    | error e => simp [answer, Except.map] at resolved
    | ok reference =>
      simp only [answer, Except.map, Except.ok.injEq] at resolved
      exact ⟨pool, reference, rfl, answer, resolved.symm⟩

theorem listedRegisters_ok {first registers : UInt16} {operand : Operand}
    (listed : listedRegisters first registers = .ok operand) :
    ∃ numbers, operand = .registers numbers := by
  simp only [listedRegisters] at listed
  split at listed
  · cases listed
  · exact ⟨_, (Except.ok.inj listed).symm⟩

/-- An operand that is a reference only if it is the answer to an index of the opcode. -/
def Resolved (resolve : Resolver) (opcode : Opcode) (operand : Operand) : Prop :=
  ∀ reference, operand = .reference reference →
    ∃ kind index, opcode.RefersTo kind ∧ resolve kind index = .ok reference

theorem resolved_index {index : Nat} {operand : Operand}
    (read : resolveIndex resolve opcode.reference index = .ok operand) :
    Resolved resolve opcode operand := by
  obtain ⟨pool, reference, points, answer, rfl⟩ := resolveIndex_ok read
  rintro _ ⟨⟩
  exact ⟨pool, index, .inl points, answer⟩

theorem resolved_second {index : Nat} {operand : Operand}
    (read : resolveIndex resolve (opcode.reference2 <|> some .proto) index = .ok operand) :
    Resolved resolve opcode operand := by
  obtain ⟨pool, reference, points, answer, rfl⟩ := resolveIndex_ok read
  rintro _ ⟨⟩
  exact ⟨pool, index, .inr points, answer⟩

theorem resolved_listed {first registers : UInt16} {operand : Operand}
    (listed : listedRegisters first registers = .ok operand) :
    Resolved resolve opcode operand := by
  obtain ⟨numbers, rfl⟩ := listedRegisters_ok listed
  rintro _ ⟨⟩

theorem operandsOf_resolved {units : List UInt16} {operands : List Operand}
    (read : operandsOf resolve opcode units = .ok operands) :
    ∀ operand ∈ operands, Resolved resolve opcode operand := by
  obtain ⟨name, format, reference, reference2, effects, spans⟩ := opcode
  -- in each case the units are taken apart as far as the format reads them; fewer are refused
  cases format
  case f10x | f10t | f11x | f11n | f12x =>
    rcases units with _ | ⟨u, rest⟩
    case cons =>
      cases read
      simp [Resolved]
    all_goals cases read
  case f20t | f21ih | f21lh | f21s | f21t | f22b | f22s | f22t | f22x | f23x =>
    rcases units with _ | ⟨u, _ | ⟨v, rest⟩⟩
    case cons.cons =>
      cases read
      simp [Resolved]
    all_goals cases read
  case f30t | f31i | f31t | f32x =>
    rcases units with _ | ⟨u, _ | ⟨v, _ | ⟨w, rest⟩⟩⟩
    case cons.cons.cons =>
      cases read
      simp [Resolved]
    all_goals cases read
  case f51l =>
    rcases units with _ | ⟨u, _ | ⟨v, _ | ⟨w, _ | ⟨x, _ | ⟨y, rest⟩⟩⟩⟩⟩
    case cons.cons.cons.cons.cons =>
      cases read
      simp [Resolved]
    all_goals cases read
  -- one index, behind registers
  case f21c | f22c =>
    rcases units with _ | ⟨u, _ | ⟨v, rest⟩⟩
    case cons.cons =>
      obtain ⟨index, found, built⟩ := except_bind_ok read
      cases built
      simpa [Resolved] using resolved_index found
    all_goals cases read
  case f31c | f3rc =>
    rcases units with _ | ⟨u, _ | ⟨v, _ | ⟨w, rest⟩⟩⟩
    case cons.cons.cons =>
      obtain ⟨index, found, built⟩ := except_bind_ok read
      cases built
      simpa [Resolved] using resolved_index found
    all_goals cases read
  case f35c =>
    rcases units with _ | ⟨u, _ | ⟨v, _ | ⟨w, rest⟩⟩⟩
    case cons.cons.cons =>
      obtain ⟨listed, registers, read⟩ := except_bind_ok read
      obtain ⟨index, found, built⟩ := except_bind_ok read
      cases built
      simpa using And.intro (resolved_listed registers) (resolved_index found)
    all_goals cases read
  -- two indexes
  case f45cc =>
    rcases units with _ | ⟨u, _ | ⟨v, _ | ⟨w, _ | ⟨x, rest⟩⟩⟩⟩
    case cons.cons.cons.cons =>
      obtain ⟨listed, registers, read⟩ := except_bind_ok read
      obtain ⟨index, found, read⟩ := except_bind_ok read
      obtain ⟨second, alsoFound, built⟩ := except_bind_ok read
      cases built
      simpa using And.intro (resolved_listed registers)
        (And.intro (resolved_index found) (resolved_second alsoFound))
    all_goals cases read
  case f4rcc =>
    rcases units with _ | ⟨u, _ | ⟨v, _ | ⟨w, _ | ⟨x, rest⟩⟩⟩⟩
    case cons.cons.cons.cons =>
      obtain ⟨index, found, read⟩ := except_bind_ok read
      obtain ⟨second, alsoFound, built⟩ := except_bind_ok read
      cases built
      simpa [Resolved] using And.intro (resolved_index found) (resolved_second alsoFound)
    all_goals cases read
  case packedSwitchPayload | sparseSwitchPayload | arrayPayload => cases read

/-- The formats of tables, which have no operands. -/
theorem width?_eq_none_iff {format : Format} : format.width? = none ↔
    format = .packedSwitchPayload ∨ format = .sparseSwitchPayload ∨ format = .arrayPayload := by
  cases format <;> simp [Format.width?]

theorem bodyAt_fixed {units : List UInt16} {width : Nat}
    (fixed : opcode.format.width? = some width) :
    bodyAt resolve opcode pc units = (do
      needUnits opcode.name pc width units
      match operandsOf resolve opcode units with
      | .ok operands => return (operands, none, width)
      | .error e => throw (e.within (.instruction opcode.name pc))) := by
  have hasWidth : opcode.format.width? ≠ none := by simp [fixed]
  obtain ⟨notPacked, notSparse, notArray⟩ : opcode.format ≠ .packedSwitchPayload ∧
      opcode.format ≠ .sparseSwitchPayload ∧ opcode.format ≠ .arrayPayload := by
    simpa only [ne_eq, width?_eq_none_iff, not_or] using hasWidth
  obtain rfl : opcode.format.width?.getD 0 = width := by rw [fixed, Option.getD_some]
  unfold bodyAt
  split
  next packed => exact absurd packed notPacked
  next sparse => exact absurd sparse notSparse
  next array => exact absurd array notArray
  next => rfl

theorem bodyAt_resolved {units : List UInt16} {operands : List Operand} {payload : Option Payload}
    {width : Nat} (read : bodyAt resolve opcode pc units = .ok (operands, payload, width)) :
    ∀ operand ∈ operands, Resolved resolve opcode operand := by
  cases fixed : opcode.format.width? with
  | none =>
    rcases width?_eq_none_iff.mp fixed with format | format | format <;>
    · simp only [bodyAt, format] at read
      obtain ⟨⟨table, width⟩, -, built⟩ := except_bind_ok read
      cases built
      simp
  | some width =>
    rw [bodyAt_fixed fixed] at read
    obtain ⟨-, -, read⟩ := except_bind_ok read
    split at read
    next found =>
      cases read
      exact operandsOf_resolved found
    next => cases read

/-- An instruction whose row is in the table and whose operands are resolved. -/
def Derived (resolve : Resolver) (insn : Instruction) : Prop :=
  insn.opcode ∈ InstructionSet.all ∧ ∀ operand ∈ insn.operands, Resolved resolve insn.opcode operand

theorem opcodeAt_mem {first : UInt16} (found : opcodeAt version pc first = .ok opcode) :
    opcode ∈ InstructionSet.all := by
  simp only [opcodeAt] at found
  split at found
  next row looked =>
    obtain rfl := Except.ok.inj found
    exact List.mem_of_find?_eq_some looked
  next => split at found <;> cases found

theorem decodeAt_derived {first : UInt16} {rest : List UInt16} {insn : Instruction} {width : Nat}
    (decoded : decodeAt version resolve pc first rest = .ok (insn, width)) :
    Derived resolve insn := by
  obtain ⟨opcode, row, decoded⟩ := except_bind_ok decoded
  obtain ⟨⟨operands, payload, width⟩, body, built⟩ := except_bind_ok decoded
  cases built
  exact ⟨opcodeAt_mem row, bodyAt_resolved body⟩

theorem sweep_derived {skip : Nat} {units : List UInt16} {done insns : Array Instruction}
    (swept : sweep version resolve pc skip units done = .ok insns)
    (before : ∀ insn ∈ done, Derived resolve insn) : ∀ insn ∈ insns, Derived resolve insn := by
  induction units generalizing pc skip done with
  | nil =>
    obtain rfl : done = insns := by simpa [sweep] using swept
    exact before
  | cons first rest ih =>
    cases skip with
    | succ skip => exact ih swept before
    | zero =>
      simp only [sweep] at swept
      split at swept
      next insn width decoded =>
        refine ih swept fun other member => ?_
        rcases Array.mem_push.mp member with old | rfl
        · exact before other old
        · exact decodeAt_derived decoded
      next => cases swept

theorem decode_derived {code : List UInt16} {insns : Array Instruction}
    (decoded : decode version resolve code = .ok insns) : ∀ insn ∈ insns, Derived resolve insn := by
  obtain ⟨swept, run, decoded⟩ := except_bind_ok decoded
  split at decoded
  next =>
    obtain rfl := Except.ok.inj decoded
    exact sweep_derived run (by simp)
  next => cases decoded

theorem mem_references {insn : Instruction} {reference : Reference} :
    reference ∈ insn.references ↔ .reference reference ∈ insn.operands := by
  simp only [references, List.mem_filterMap]
  constructor
  · rintro ⟨operand, member, same⟩
    split at same
    · rwa [← Option.some.inj same]
    · cases same
  · exact fun member => ⟨.reference reference, member, rfl⟩

end Instruction

/-! ### References of an image -/

namespace Pools

/-- A reference says what stands in the pools under its index. -/
def Spells (pools : Pools) : Reference → Prop
  | .string index value => pools.string? index = some value
  | .type index descriptor => pools.typeDescriptor? index = some descriptor
  | .field index member => pools.field? index = some member
  | .method index member => pools.method? index = some member
  | .proto index descriptor => pools.protoDescriptor? index = some descriptor
  | .callSite _ | .methodHandle _ => True

private theorem found_ok {α : Type} {pool : String} {index : Nat} {entry : Option α}
    {make : α → Reference} {reference : Reference}
    (resolved : resolve.found pool index entry make = .ok reference) :
    ∃ value, entry = some value ∧ reference = make value := by
  unfold resolve.found at resolved
  split at resolved
  next value => exact ⟨value, rfl, (Except.ok.inj resolved).symm⟩
  next => cases resolved

theorem resolve_spells {pools : Pools} {kind : PoolKind} {index : Nat} {reference : Reference}
    (resolved : pools.resolve kind index = .ok reference) : pools.Spells reference := by
  cases kind with
  | callSite => cases resolved; trivial
  | methodHandle => cases resolved; trivial
  | string | type | field | method | proto =>
    obtain ⟨value, entry, rfl⟩ := found_ok resolved
    exact entry

/-- Only an index into the types resolves to a type. -/
theorem kind_of_resolve_type {pools : Pools} {kind : PoolKind} {index id : Nat}
    {descriptor : String} (resolved : pools.resolve kind index = .ok (.type id descriptor)) :
    kind = .type := by
  cases kind with
  | type => rfl
  | callSite | methodHandle => cases resolved
  | string | field | method | proto =>
    obtain ⟨value, -, made⟩ := found_ok resolved
    cases made

end Pools

/-- Every row that points into the types makes a use of the class behind the type. -/
theorem InstructionSet.classUse_of_type :
    ∀ opcode ∈ InstructionSet.all, opcode.RefersTo .type →
      (ClassUse.ofMnemonic? opcode.name).isSome = true := by
  decide +kernel

namespace Instruction

variable {version : Nat} {pools : Pools} {code : List UInt16} {insns : Array Instruction}

theorem decode_spells (decoded : decode version pools.resolve code = .ok insns)
    {insn : Instruction} (member : insn ∈ insns) {reference : Reference}
    (refers : reference ∈ insn.references) : pools.Spells reference := by
  obtain ⟨kind, index, -, answer⟩ :=
    (decode_derived decoded insn member).2 _ (mem_references.mp refers) reference rfl
  exact Pools.resolve_spells answer

/-- An instruction with a type operand uses it in one of the known ways. -/
theorem decode_classUse (decoded : decode version pools.resolve code = .ok insns)
    {insn : Instruction} (member : insn ∈ insns) {index : Nat} {descriptor : String}
    (refers : .type index descriptor ∈ insn.references) :
    ∃ use, ClassUse.ofMnemonic? insn.name = some use := by
  obtain ⟨row, resolved⟩ := decode_derived decoded insn member
  obtain ⟨kind, id, points, answer⟩ := resolved _ (mem_references.mp refers) _ rfl
  obtain rfl := Pools.kind_of_resolve_type answer
  exact Option.isSome_iff_exists.mp (InstructionSet.classUse_of_type _ row points)

end Instruction

end DexAtlas
