import DexAtlas.Proofs.StringItems

/-!
# Code items

A code item without debug information is read back as it was written, wherever it stands. What makes
this more than a list of numbers is the guarded code: the unit of padding is there only if try blocks
follow an odd number of code units, a handler tells by the sign of its size whether an address for
all other exceptions follows, and a try block names its handler by the distance from the start of the
list, which depends on how many bytes the handlers before it take. The offsets of the handlers of an
item therefore have to be the distances at which they are written.
-/
namespace DexAtlas

open Bytes (toLittleEndian)
open Reader

/-! ### Signed variable-length numbers -/

namespace Leb128

/-- In `room + 1` bytes there is place for four bits, the sign among them, and seven more for each
byte but the last. -/
theorem signedFrom_encodeSigned {room : Nat} {i : Int}
    (low : -((1 <<< (7 * room + 3) : Nat) : Int) ≤ i)
    (high : i < ((1 <<< (7 * room + 3) : Nat) : Int)) (rest : List UInt8) :
    signedFrom (room + 1) (encodeSigned i ++ rest) = .ok (i, (encodeSigned i).length) ∧
      (encodeSigned i).length ≤ room + 1 := by
  induction room generalizing i with
  | zero =>
    have small : -8 ≤ i ∧ i < 8 := ⟨low, high⟩
    -- the sign is the fourth bit here
    have value : Int.bmod ((i % 128).toNat % 128 : Nat) 16 = i := by
      rw [Int.bmod]
      omega
    rw [encodeSigned, if_pos (by omega), List.singleton_append, signedFrom,
      Bytes.toNat_byte (by omega), if_pos (by omega), if_pos rfl, value]
    exact ⟨rfl, Nat.le_refl 1⟩
  | succ room ih =>
    rw [encodeSigned]
    split
    next small =>
      have value : Int.bmod ((i % 128).toNat % 128 : Nat) 128 = i := by
        rw [Int.bmod]
        omega
      rw [List.singleton_append, signedFrom, Bytes.toNat_byte (by omega), if_pos (by omega),
        if_neg (by omega), value]
      exact ⟨rfl, by simp⟩
    next large =>
      -- the low seven bits come first, and the rest has one byte less
      have wider : 1 <<< (7 * (room + 1) + 3) = 128 * 1 <<< (7 * room + 3) := by
        rw [Nat.shiftLeft_eq, Nat.shiftLeft_eq, Nat.mul_succ, Nat.add_right_comm, Nat.pow_add]
        omega
      obtain ⟨others, shorter⟩ := @ih (i / 128) (by omega) (by omega)
      rw [List.cons_append, signedFrom, Bytes.toNat_byte (by omega), if_neg (by omega), others,
        List.length_cons]
      have value : (((i % 128).toNat + 128) % 128 : Nat) + 128 * (i / 128) = i := by
        omega
      dsimp only
      rw [value]
      exact ⟨rfl, by omega⟩

theorem length_encode_pos (n : Nat) : 0 < (encode n).length := by
  rw [encode]
  split <;> simp

theorem length_encodeSigned_pos (i : Int) : 0 < (encodeSigned i).length := by
  rw [encodeSigned]
  split <;> simp

end Leb128

namespace Reader.Takes

variable {α β : Type} {bytes : Bytes}

theorem sleb128 {i : Int} (low : -0x80000000 ≤ i) (high : i < 0x80000000) :
    Takes bytes Reader.sleb128 (Leb128.encodeSigned i) i :=
  leb (@Leb128.signedFrom_encodeSigned 4 i low high []).2
    fun rest => (@Leb128.signedFrom_encodeSigned 4 i low high rest).1

theorem map {reader : Reader α} {chunk : List UInt8} {a : α} (f : α → β)
    (inner : Takes bytes reader chunk a) : Takes bytes (f <$> reader) chunk (f a) := by
  rw [map_eq_pure_bind]
  exact inner.finish (pure (f a))

/-- What is taken may depend on the chunk being there. -/
theorem standing {reader : Reader α} {chunk : List UInt8} {a : α}
    (takes : ∀ pos, bytes.Holds pos chunk → Takes bytes reader chunk a) :
    Takes bytes reader chunk a :=
  fun pos holds notices => takes pos holds holds notices

end Reader.Takes

theorem Reader.size_raw {count : Nat} {bytes chunk : Bytes} {cursor after : Cursor}
    (ran : raw count bytes cursor = .ok chunk after) : chunk.size = count := by
  unfold raw take at ran
  dsimp only at ran
  split at ran
  next inside =>
    cases ran
    rw [Array.size_extract]
    omega
  next => cases ran

/-! ### Code units -/

namespace Bytes

def codeBytes (code : List UInt16) : List UInt8 :=
  code.flatMap fun unit => toLittleEndian 2 unit.toNat

theorem length_codeBytes (code : List UInt16) : (codeBytes code).length = code.length * 2 := by
  have numbers := length_flatMap_toLittleEndian 2 (code.map UInt16.toNat)
  rwa [List.flatMap_map, List.length_map] at numbers

theorem length_units (list : List UInt8) : (units list).length = list.length / 2 := by
  fun_induction units list with
  | case1 low high rest ih =>
    rw [List.length_cons, ih, List.length_cons, List.length_cons]
    omega
  | case2 list short =>
    match list with
    | [] => rfl
    | [byte] => simp
    | low :: high :: rest => exact absurd rfl (short low high rest)

theorem units_codeBytes (code : List UInt16) : units (codeBytes code) = code := by
  induction code with
  | nil => rfl
  | cons unit rest ih =>
    have bound := unit.toNat_lt
    have value : (UInt8.ofNat unit.toNat).toNat + 256 * (UInt8.ofNat (unit.toNat / 256)).toNat =
        unit.toNat := by
      rw [UInt8.toNat_ofNat', UInt8.toNat_ofNat']
      omega
    rw [codeBytes, List.flatMap_cons, ← codeBytes]
    simp only [toLittleEndian, List.cons_append, List.nil_append]
    rw [units, value, UInt16.ofNat_toNat, ih]

end Bytes

/-! ### Handlers -/

namespace CatchHandler

variable {bytes : Bytes} {types : Nat} {handler : CatchHandler}

/-- What a handler must be for its bytes to be read back: numbers that fit their places, and either
a type or all other exceptions for it to handle. -/
structure Writable (types : Nat) (handler : CatchHandler) : Prop where
  offset : handler.offset < UInt32.size
  size : -0x80000000 ≤ handler.size ∧ handler.size < 0x80000000
  handlers : ∀ typed ∈ handler.handlers, typed.type < types ∧ typed.type < UInt32.size ∧
    typed.address < UInt32.size
  catchAll : ∀ address ∈ handler.catchAll, address < UInt32.size
  handles : handler.handlers ≠ [] ∨ handler.catchAll.isSome

theorem natAbs_size (handler : CatchHandler) : handler.size.natAbs = handler.handlers.length := by
  rw [size]
  split
  · rw [Int.natAbs_neg, Int.natAbs_natCast]
  · exact Int.natAbs_natCast _

/-- The size is positive just if nothing follows the entries. -/
theorem Writable.size_le_iff (writable : handler.Writable types) :
    handler.size ≤ 0 ↔ handler.catchAll.isSome := by
  have handles := writable.handles
  rw [CatchHandler.size]
  split
  next all => simp [all]
  next none =>
    rcases handles with entries | all
    · have positive := List.length_pos_iff.mpr entries
      constructor
      · omega
      · exact fun all => absurd all none
    · exact absurd all none

theorem length_le_entries (entries : List TypedHandler) :
    entries.length ≤ (entries.flatMap TypedHandler.bytes).length := by
  refine Bytes.length_le_flatMap fun entry _ => ?_
  rw [TypedHandler.bytes, List.length_append]
  exact Nat.add_pos_left (Leb128.length_encode_pos _) _

theorem takes_typedHandler {typed : TypedHandler} (inside : typed.type < types)
    (small : typed.type < UInt32.size) (address : typed.address < UInt32.size) :
    Takes bytes (typedHandler types) typed.bytes typed :=
  .bind (.uleb128 small) (.after (.ensure inside _) (.finish (.uleb128 address) (.pure typed)))

theorem takes_read (writable : handler.Writable types) :
    Takes bytes (read types handler.offset) handler.bytes handler := by
  have entries : Takes bytes (Reader.collect handler.handlers.length fun _ => typedHandler types)
      (handler.handlers.flatMap TypedHandler.bytes) handler.handlers.toArray := by
    have counted : handler.handlers.toArray.size = handler.handlers.length := by simp
    refine .collect_flatMap counted fun typed member => ?_
    obtain ⟨inside, small, address⟩ := writable.handlers typed (by simpa using member)
    exact takes_typedHandler inside small address
  refine .standing fun pos stands => ?_
  -- every entry takes a byte at least, so that no more are declared than there are bytes
  have few : handler.handlers.length ≤ bytes.size := by
    have room := stands.le
    have counted := length_le_entries handler.handlers
    simp only [CatchHandler.bytes, List.length_append] at room
    omega
  rw [CatchHandler.bytes, List.append_assoc]
  refine .bind (.sleb128 writable.size.1 writable.size.2) ?_
  dsimp only
  rw [natAbs_size]
  refine .after .bufferSize (.after (.ensure few _) (.bind entries ?_))
  obtain ⟨offset, handlers, catchAll⟩ := handler
  cases catchAll with
  | some address =>
    rw [if_pos (writable.size_le_iff.mpr rfl)]
    exact .finish (.map some (.uleb128 (writable.catchAll address rfl))) (.pure _)
  | none =>
    have positive : ¬ size ⟨offset, handlers, none⟩ ≤ 0 := by simp [writable.size_le_iff]
    rw [if_neg positive]
    exact .finish (.pure none) (.pure _)

/-! ### Handler lists -/

/-- The handlers are where their offsets say, if the first one is at the given distance. -/
def Laid : Nat → List CatchHandler → Prop
  | _, [] => True
  | distance, handler :: rest =>
    handler.offset = distance ∧ Laid (distance + handler.bytes.length) rest

instance decidableLaid : (distance : Nat) → (handlers : List CatchHandler) →
    Decidable (Laid distance handlers)
  | _, [] => inferInstanceAs (Decidable True)
  | distance, handler :: rest =>
    have := decidableLaid (distance + handler.bytes.length) rest
    inferInstanceAs (Decidable (handler.offset = distance ∧ _))

/-- The handlers know what 32 bits keep of the distances at which they are written, if the first one is
at the given distance. -/
def Counted : Nat → List CatchHandler → Prop
  | _, [] => True
  | distance, handler :: rest =>
    handler.offset = distance % UInt32.size ∧ Counted (distance + handler.bytes.length) rest

/-- Distances that fit 32 bits are kept whole. -/
theorem Laid.counted {distance : Nat} {handlers : List CatchHandler} (laid : Laid distance handlers)
    (small : ∀ handler ∈ handlers, handler.offset < UInt32.size) : Counted distance handlers := by
  induction handlers generalizing distance with
  | nil => trivial
  | cons handler rest ih =>
    obtain ⟨here, behind⟩ := laid
    obtain ⟨fits, others⟩ := List.forall_mem_cons.mp small
    exact ⟨by rw [← here, Nat.mod_eq_of_lt fits], ih behind others⟩

theorem length_bytes_pos (handler : CatchHandler) : 0 < handler.bytes.length := by
  have positive := Leb128.length_encodeSigned_pos handler.size
  simp only [bytes, List.length_append]
  omega

end CatchHandler

namespace CodeItem

variable {bytes : Bytes} {types : Nat}

/-- Each handler is read where the one before it ends, and told the distance from the start. -/
theorem reads_nextHandler {item start count place distance : Nat} {handlers : List CatchHandler}
    (writable : ∀ handler ∈ handlers, handler.Writable types)
    (counted : CatchHandler.Counted distance handlers)
    (holds : bytes.Holds (start + distance) (handlers.flatMap CatchHandler.bytes))
    (notices : Array Notice) :
    Reads (nextHandler item types start count) bytes place ⟨start + distance, notices⟩ handlers
      ⟨start + distance + (handlers.flatMap CatchHandler.bytes).length, notices⟩ := by
  induction handlers generalizing place distance with
  | nil => exact .nil _ _
  | cons handler rest ih =>
    obtain ⟨here, behind⟩ := counted
    obtain ⟨first, others⟩ := List.forall_mem_cons.mp writable
    rw [List.flatMap_cons] at holds ⊢
    have read : nextHandler item types start count place bytes ⟨start + distance, notices⟩ =
        .ok handler ⟨start + distance + handler.bytes.length, notices⟩ := by
      rw [nextHandler, position_bind, Nat.add_sub_cancel_left, ← here]
      exact (CatchHandler.takes_read first).within _ holds.left notices
    refine .cons read ?_
    rw [List.length_append, ← Nat.add_assoc, Nat.add_assoc start]
    exact ih others behind (by rw [← Nat.add_assoc]; exact holds.right)

theorem takes_handlerList {handlers : List CatchHandler} (few : handlers.length < UInt32.size)
    (writable : ∀ handler ∈ handlers, handler.Writable types)
    (counted : CatchHandler.Counted (Leb128.encode handlers.length).length handlers) (item : Nat) :
    Takes bytes (handlerList item types) (CatchHandler.listBytes handlers) handlers := by
  refine .standing fun pos stands => ?_
  have enough : handlers.length ≤ bytes.size := by
    have room := stands.le
    have positive := Bytes.length_le_flatMap fun handler (_ : handler ∈ handlers) =>
      handler.length_bytes_pos
    rw [CatchHandler.listBytes, List.length_append] at room
    omega
  rw [CatchHandler.listBytes]
  intro start holds notices
  have all : Reader.collect handlers.length (nextHandler item types start handlers.length) bytes
      ⟨start + (Leb128.encode handlers.length).length, notices⟩ = .ok handlers.toArray _ :=
    collect_ok_iff.mpr ⟨List.size_toArray, reads_nextHandler writable counted holds.right notices⟩
  rw [handlerList, position_bind, bind_of_ok (Takes.uleb128 few holds.left notices),
    bufferSize_bind, ensure_bind enough, bind_of_ok all, List.length_append, Nat.add_assoc]
  rfl

/-! ### Try blocks -/

theorem takes_tryBlock {block : TryBlock} {units : Nat} (small : units < UInt32.size)
    (inside : block.start + block.count ≤ units) (count : block.count < UInt16.size)
    (handlerOffset : block.handlerOffset < UInt16.size) (item : Nat) :
    Takes bytes (tryBlock item units) block.bytes block := by
  have start : block.start < UInt32.size := by omega
  have fields : Takes bytes TryBlock.read block.bytes block := by
    rw [TryBlock.bytes, List.append_assoc]
    exact .bind (.u4 start) (.bind (.u2 count) (.finish (.u2 handlerOffset) (.pure _)))
  exact fields.finish (.after (.ensure inside _) (.pure block))

/-- The padding is written as zero, so that nothing is noticed. -/
theorem takes_padding (units : Nat) :
    Takes bytes (padding units) (if units % 2 = 1 then [0, 0] else []) () := by
  unfold padding
  split
  next odd =>
    have zero : Takes bytes Reader.u2 [0, 0] 0 := .u2 (by decide)
    exact .position fun here stands => zero.finish (.pure ())
  next even => exact .pure ()

theorem stray?_eq_none {tries : List TryBlock} {handlers : List CatchHandler}
    (targets : ∀ block ∈ tries, ∃ handler ∈ handlers, handler.offset = block.handlerOffset) :
    stray? tries handlers = none := by
  rw [stray?, List.find?_eq_none]
  intro block member
  obtain ⟨handler, listed, target⟩ := targets block member
  have found : (handlers.any fun handler => handler.offset == block.handlerOffset) = true :=
    List.any_eq_true.mpr ⟨handler, listed, by simpa using target⟩
  simp [found]

/-! ### Whole items -/

/-- An item has 32 bits of its position, and its try blocks and handlers are read with the number of
its code units. -/
theorem read_ok {strings : Nat} {cursor after : Cursor} {item : CodeItem}
    (ran : read strings types bytes cursor = .ok item after) :
    item.offset = cursor.pos % UInt32.size ∧
      ∃ count middle, guards cursor.pos types item.code.length count bytes middle =
        .ok (item.tries, item.handlers) after := by
  obtain ⟨start, _, position, ran⟩ := bind_ok ran
  obtain ⟨rfl, rfl⟩ := EStateM.Result.ok.inj position
  obtain ⟨registers, _, -, ran⟩ := bind_ok ran
  obtain ⟨ins, _, -, ran⟩ := bind_ok ran
  obtain ⟨outs, _, -, ran⟩ := bind_ok ran
  obtain ⟨count, _, -, ran⟩ := bind_ok ran
  obtain ⟨-, _, -, ran⟩ := bind_ok ran
  obtain ⟨debugOffset, _, -, ran⟩ := bind_ok ran
  obtain ⟨debugInfo, _, -, ran⟩ := bind_ok ran
  obtain ⟨units, _, -, ran⟩ := bind_ok ran
  obtain ⟨raw, middle, taken, ran⟩ := bind_ok ran
  obtain ⟨⟨tries, handlers⟩, _, guarded, ran⟩ := bind_ok ran
  cases ran
  refine ⟨rfl, count, middle, ?_⟩
  have length : (Bytes.units raw.toList).length = units := by
    rw [Bytes.length_units, Array.length_toList, Reader.size_raw taken]
    omega
  dsimp only
  rwa [length]

/-- What a code item must be for its bytes to be read back, up to the offsets of its handlers. It has no
debug information, its numbers fit their places, its try blocks lie in the code, and there are handlers
just if there are try blocks, each of which names one of them. -/
structure Encodable (types : Nat) (item : CodeItem) : Prop where
  offset : item.offset < UInt32.size
  bare : item.debugInfo = none
  registers : item.registers < UInt16.size
  ins : item.ins ≤ item.registers
  outs : item.outs < UInt16.size
  code : item.code.length < UInt32.size
  tryCount : item.tries.length < UInt16.size
  tries : ∀ block ∈ item.tries, block.start + block.count ≤ item.code.length ∧
    block.count < UInt16.size ∧ block.handlerOffset < UInt16.size
  guarded : item.tries = [] ↔ item.handlers = []
  handlerCount : item.handlers.length < UInt32.size
  handlers : ∀ handler ∈ item.handlers, handler.Writable types
  targets : ∀ block ∈ item.tries, ∃ handler ∈ item.handlers, handler.offset = block.handlerOffset

/-- What a code item must be for its bytes to be read back: each of its handlers is written at its
offset, and all else is as it must be. -/
structure Writable (types : Nat) (item : CodeItem) : Prop extends Encodable types item where
  laid : CatchHandler.Laid (Leb128.encode item.handlers.length).length item.handlers

variable {item : CodeItem}

theorem Writable.counted (writable : item.Writable types) :
    CatchHandler.Counted (Leb128.encode item.handlers.length).length item.handlers :=
  writable.laid.counted fun handler member => (writable.handlers handler member).offset

theorem Encodable.takes_guards (encodable : item.Encodable types)
    (counted : CatchHandler.Counted (Leb128.encode item.handlers.length).length item.handlers) :
    Takes bytes (guards item.offset types item.code.length item.tries.length) item.guardBytes
      (item.tries, item.handlers) := by
  rw [guardBytes]
  by_cases none : item.tries = []
  · rw [none, encodable.guarded.mp none]
    exact .pure _
  · have some : ¬ item.tries.length = 0 := by simpa using none
    have blocks : Takes bytes (Reader.collect item.tries.length fun _ =>
        tryBlock item.offset item.code.length) (item.tries.flatMap TryBlock.bytes)
        item.tries.toArray := by
      refine .collect_flatMap List.size_toArray fun block member => ?_
      obtain ⟨inside, count, offset⟩ := encodable.tries block (by simpa using member)
      exact takes_tryBlock encodable.code inside count offset _
    have list := @takes_handlerList bytes types _ encodable.handlerCount encodable.handlers
      counted item.offset
    rw [if_neg (by simpa using none), List.append_assoc, guards, if_neg some]
    refine .bind (takes_padding _) (.bind blocks (.finish list ?_))
    rw [List.toList_toArray, stray?_eq_none encodable.targets]
    exact .pure _

/-- An item is read back at its own offset, if its handlers know their distances. -/
theorem Encodable.read_of_holds (encodable : item.Encodable types)
    (counted : CatchHandler.Counted (Leb128.encode item.handlers.length).length item.handlers)
    (strings : Nat) (holds : bytes.Holds item.offset item.bytes) (notices : Array Notice) :
    CodeItem.read strings types bytes ⟨item.offset, notices⟩ =
      .ok item ⟨item.offset + item.bytes.length, notices⟩ := by
  have raw : Takes bytes (Reader.raw (item.code.length * 2)) (Bytes.codeBytes item.code)
      (Bytes.codeBytes item.code).toArray := by
    have size : (Bytes.codeBytes item.code).toArray.size = item.code.length * 2 := by
      rw [List.size_toArray, Bytes.length_codeBytes]
    exact .raw size
  have written : item.bytes = toLittleEndian 2 item.registers ++ (toLittleEndian 2 item.ins ++
      (toLittleEndian 2 item.outs ++ (toLittleEndian 2 item.tries.length ++ (toLittleEndian 4 0 ++
      (toLittleEndian 4 item.code.length ++ (Bytes.codeBytes item.code ++ item.guardBytes)))))) := by
    simp only [CodeItem.bytes, Bytes.codeBytes, List.append_assoc]
  have value : Bytes.units (Bytes.codeBytes item.code).toArray.toList = item.code := by
    rw [List.toList_toArray, Bytes.units_codeBytes]
  have ins : item.ins < UInt16.size := Nat.lt_of_le_of_lt encodable.ins encodable.registers
  rw [written] at holds ⊢
  rw [CodeItem.read, position_bind]
  refine Takes.bind (.u2 encodable.registers) (.bind (.u2 ins) (.bind (.u2 encodable.outs)
    (.bind (.u2 encodable.tryCount) (.after (.ensure encodable.ins _) ?_)))) holds notices
  refine .bind (.u4 (by decide)) (.after (.pure none) (.bind (.u4 encodable.code) ?_))
  refine .bind raw (.finish (encodable.takes_guards counted) ?_)
  dsimp only
  rw [value, ← encodable.bare, Nat.mod_eq_of_lt encodable.offset]
  exact .pure item

theorem Writable.read_of_holds (writable : item.Writable types) (strings : Nat)
    (holds : bytes.Holds item.offset item.bytes) (notices : Array Notice) :
    CodeItem.read strings types bytes ⟨item.offset, notices⟩ =
      .ok item ⟨item.offset + item.bytes.length, notices⟩ :=
  writable.toEncodable.read_of_holds writable.counted strings holds notices

/-- A code item that was written at its offset, in front of and behind anything, is read back
unchanged: its code, its try blocks and its handlers with their offsets and the addresses for all
other exceptions. The cursor stops behind it, and nothing is noticed. -/
theorem read_written (strings types : Nat) (item : CodeItem) (writable : item.Writable types)
    (before after : List UInt8) (placed : before.length = item.offset) (notices : Array Notice) :
    CodeItem.read strings types (before ++ item.bytes ++ after).toArray ⟨before.length, notices⟩ =
      .ok item ⟨before.length + item.bytes.length, notices⟩ := by
  rw [placed]
  refine writable.read_of_holds strings ⟨before, after, ?_, placed⟩ notices
  rw [List.toList_toArray, List.append_assoc]

/-- An odd number of units and two try blocks. Of the three handlers the first is for one type only,
the second for all exceptions alike, and the third for two types and all others. -/
def guardedSample : CodeItem where
  offset := 3
  registers := 2
  ins := 1
  outs := 0
  debugInfo := none
  code := [0x0000, 0x0000, 0x000E]
  tries := [⟨0, 1, 7⟩, ⟨1, 2, 5⟩]
  handlers := [⟨1, [⟨0, 300⟩], none⟩, ⟨5, [], some 2⟩, ⟨7, [⟨1, 0⟩, ⟨0, 1⟩], some 0⟩]

def guardedBytes : List UInt8 :=
  -- the numbers at the head, no debug information, and three units of code
  [2, 0, 1, 0, 0, 0, 2, 0] ++ [0, 0, 0, 0] ++ [3, 0, 0, 0] ++ [0, 0, 0, 0, 0x0E, 0] ++
    -- the padding and the try blocks
    [0, 0] ++ [0, 0, 0, 0, 1, 0, 7, 0] ++ [1, 0, 0, 0, 2, 0, 5, 0] ++
    -- the handlers behind their number
    [3] ++ [1, 0, 0xAC, 2] ++ [0, 2] ++ [0x7E, 1, 0, 0, 1, 0]

theorem guardedSample_writable : guardedSample.Writable 2 where
  offset := by decide
  bare := rfl
  registers := by decide
  ins := by decide
  outs := by decide
  code := by decide
  tryCount := by decide
  tries := by decide
  guarded := by decide
  handlerCount := by decide
  handlers := by
    intro handler member
    simp only [guardedSample, List.mem_cons, List.not_mem_nil, or_false] at member
    rcases member with rfl | rfl | rfl <;>
      exact ⟨by decide, by decide, by decide, by decide, by decide⟩
  laid := by decide +kernel
  targets := by decide

theorem read_written_guarded :
    guardedSample.Writable 2 ∧ guardedSample.bytes = guardedBytes ∧
      CodeItem.read 0 2 ([9, 9, 9] ++ guardedBytes ++ [9]).toArray ⟨3, #[]⟩ =
        .ok guardedSample ⟨56, #[]⟩ := by
  have written : guardedSample.bytes = guardedBytes := by decide +kernel
  have read := read_written 0 2 guardedSample guardedSample_writable [9, 9, 9] [9] rfl #[]
  rw [written] at read
  exact ⟨guardedSample_writable, written, read⟩

end CodeItem

end DexAtlas
