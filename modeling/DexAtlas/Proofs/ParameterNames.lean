import DexAtlas.Proofs.Frames

/-!
# Names of parameters

Debug information stores the name of each parameter one higher than it is, so that zero stands for a
parameter without a name. What is read is the map of the stored numbers, each decreased by one as a
signed number of 32 bits. A number above `2 ^ 31` becomes negative in this way and is taken for a
missing name, like zero; every other one is checked against the strings. So the names are what they
are documented to be just if no stored number is that large.
-/
namespace DexAtlas

/-! ### Stored numbers -/

namespace Leb128

/-- Five bytes are enough to see a number. -/
theorem unsigned_take {list : List UInt8} {v n : Nat} :
    unsigned (list.take maxBytes) = .ok (v, n) ↔ unsigned list = .ok (v, n) := by
  have same {n : Nat} (short : n ≤ 5) : (list.take maxBytes).take n = list.take n := by
    rw [List.take_take, maxBytes, Nat.min_eq_left short]
  constructor
  · intro read
    obtain ⟨-, short, -⟩ := unsigned_ok_iff.mp read
    exact (heads_unsigned read).2.2 list (same short).symm
  · intro read
    obtain ⟨-, short, -⟩ := unsigned_ok_iff.mp read
    exact (heads_unsigned read).2.2 (list.take maxBytes) (same short)

end Leb128

namespace Bytes

/-- The numbers stand in the buffer one after another, from `pos` up to `stop`. -/
inductive Stored (bytes : Bytes) : Nat → List Nat → Nat → Prop
  | nil (pos : Nat) : Stored bytes pos [] pos
  | cons {pos stop n used : Nat} {numbers : List Nat}
      (number : Leb128.unsigned (bytes.toList.drop pos) = .ok (n, used))
      (others : Stored bytes (pos + used) numbers stop) : Stored bytes pos (n :: numbers) stop

/-- Each number takes a byte. -/
theorem Stored.length_le {bytes : Bytes} {pos stop : Nat} {numbers : List Nat}
    (stored : Stored bytes pos numbers stop) (inside : pos ≤ bytes.size) :
    pos + numbers.length ≤ stop ∧ stop ≤ bytes.size := by
  induction stored with
  | nil pos => exact ⟨Nat.le_refl pos, inside⟩
  | cons number others ih =>
    obtain ⟨some, fits, -⟩ := Leb128.heads_unsigned number
    rw [List.length_drop, Array.length_toList] at fits
    have behind := ih (by omega)
    rw [List.length_cons]
    omega

/-- The bytes tell which numbers they are. -/
theorem Stored.unique {bytes : Bytes} {pos stop stopToo : Nat} {numbers others : List Nat}
    (stored : Stored bytes pos numbers stop) (storedToo : Stored bytes pos others stopToo)
    (sizes : numbers.length = others.length) : numbers = others := by
  induction stored generalizing others with
  | nil pos => exact (List.length_eq_zero_iff.mp sizes.symm).symm
  | cons number rest ih =>
    cases storedToo with
    | nil => cases sizes
    | cons numberToo restToo =>
      rw [number] at numberToo
      cases numberToo
      rw [ih restToo (Nat.succ.inj sizes)]

end Bytes

namespace Reader

variable {bytes : Bytes} {cursor after : Cursor}

theorem uleb128_ok_iff {v : Nat} : uleb128 bytes cursor = .ok v after ↔
    ∃ used, Leb128.unsigned (bytes.toList.drop cursor.pos) = .ok (v, used) ∧
      after = { cursor with pos := cursor.pos + used } := by
  constructor
  · intro ran
    unfold uleb128 leb at ran
    split at ran
    next value used decoded =>
      cases ran
      rw [Bytes.window_eq] at decoded
      exact ⟨used, Leb128.unsigned_take.mp decoded, rfl⟩
    next => cases ran
  · rintro ⟨used, number, rfl⟩
    have decoded := Leb128.unsigned_take.mpr number
    rw [← Bytes.window_eq] at decoded
    rw [uleb128, leb, decoded]

theorem uleb128_lt {v : Nat} (ran : uleb128 bytes cursor = .ok v after) : v < 0x100000000 := by
  obtain ⟨used, number, -⟩ := uleb128_ok_iff.mp ran
  exact (Leb128.unsigned_ok_iff.mp number).2.2.2

/-- The number is stored one higher than it is. -/
theorem uleb128p1_ok_iff {i : Int} : uleb128p1 bytes cursor = .ok i after ↔
    ∃ raw, uleb128 bytes cursor = .ok raw after ∧ i = Int.bmod (raw - 1) 0x100000000 := by
  unfold uleb128p1 uleb128 leb Leb128.lessOne
  cases Leb128.unsigned (bytes.window cursor.pos Leb128.maxBytes) with
  | error cause => simp
  | ok result =>
    obtain ⟨raw, used⟩ := result
    constructor
    · rintro ⟨⟩
      exact ⟨raw, rfl, rfl⟩
    · rintro ⟨_, ⟨⟩, rfl⟩
      rfl

end Reader

open Reader

namespace DebugInfo

variable {strings : Nat} {bytes : Bytes} {cursor after : Cursor}

/-! ### What a stored number stands for -/

/-- The string that a stored number names. Zero names none, and neither does a number that is
negative as a signed one after it is decreased. -/
def nameOf (raw : Nat) : Option Nat :=
  if raw = 0 ∨ 0x80000000 < raw then none else some (raw - 1)

/-- The sign of the decreased number tells whether there is a name, and its value which. -/
theorem nameOf_eq {raw : Nat} (bound : raw < 0x100000000) {i : Int}
    (decreased : i = Int.bmod (raw - 1) 0x100000000) :
    nameOf raw = if i < 0 then none else some i.toNat := by
  rw [Int.bmod] at decreased
  unfold nameOf
  split
  next missing => rw [if_pos (by omega)]
  next named =>
    have value : i.toNat = raw - 1 := by omega
    rw [if_neg (by omega), value]

theorem parameterName_ok_iff {name : Option Nat} :
    parameterName strings bytes cursor = .ok name after ↔
      ∃ raw, uleb128 bytes cursor = .ok raw after ∧ name = nameOf raw ∧
        ∀ id ∈ nameOf raw, id < strings := by
  constructor
  · intro ran
    obtain ⟨i, middle, read, ran⟩ := bind_ok ran
    obtain ⟨raw, number, decreased⟩ := uleb128p1_ok_iff.mp read
    have meaning := nameOf_eq (uleb128_lt number) decreased
    split at ran
    next negative =>
      rw [if_pos negative] at meaning
      cases ran
      exact ⟨raw, number, meaning.symm, by simp [meaning]⟩
    next positive =>
      rw [if_neg positive] at meaning
      by_cases inside : i.toNat < strings
      · rw [Tables.checkId, ensure_bind inside] at ran
        cases ran
        exact ⟨raw, number, meaning.symm, by simpa [meaning] using inside⟩
      · rw [Tables.checkId, ensure_refuses inside] at ran
        cases ran
  · rintro ⟨raw, number, rfl, inside⟩
    have read := uleb128p1_ok_iff.mpr ⟨raw, number, rfl⟩
    have meaning := nameOf_eq (uleb128_lt number) rfl
    rw [parameterName, bind_of_ok read]
    split
    next negative =>
      rw [if_pos negative] at meaning
      rw [meaning]
      rfl
    next positive =>
      rw [if_neg positive] at meaning
      rw [meaning] at inside ⊢
      rw [Tables.checkId, ensure_bind (inside _ rfl)]
      rfl

/-! ### All parameters -/

theorem reads_parameterName_iff {place : Nat} {names : List (Option Nat)} :
    Reads (fun _ => parameterName strings) bytes place cursor names after ↔
      ∃ raws stop, names = raws.map nameOf ∧ bytes.Stored cursor.pos raws stop ∧
        after = { cursor with pos := stop } ∧ ∀ raw ∈ raws, ∀ id ∈ nameOf raw, id < strings := by
  constructor
  · intro run
    induction run with
    | nil place cursor => exact ⟨[], cursor.pos, rfl, .nil _, rfl, by simp⟩
    | @cons place cursor middle after name rest first others ih =>
      obtain ⟨raw, number, rfl, inside⟩ := parameterName_ok_iff.mp first
      obtain ⟨used, decoded, rfl⟩ := uleb128_ok_iff.mp number
      obtain ⟨raws, stop, rfl, stored, rfl, behind⟩ := ih
      exact ⟨raw :: raws, stop, rfl, .cons decoded stored, rfl,
        List.forall_mem_cons.mpr ⟨inside, behind⟩⟩
  · rintro ⟨raws, stop, rfl, stored, rfl, inside⟩
    induction raws generalizing place cursor with
    | nil =>
      cases stored
      exact .nil _ _
    | cons raw raws ih =>
      cases stored with | cons decoded stored =>
      obtain ⟨first, others⟩ := List.forall_mem_cons.mp inside
      have number := uleb128_ok_iff.mpr ⟨_, decoded, rfl⟩
      exact .cons (parameterName_ok_iff.mpr ⟨raw, number, rfl, first⟩) (ih stored others)

/-- Debug information is read just if the line, the number of parameters and as many stored numbers
as that stand in the buffer, and none of them names a string that is not there. -/
theorem read_ok_iff {info : DebugInfo} : read strings bytes cursor = .ok info after ↔
    ∃ raws stop, bytes.Stored cursor.pos (info.lineStart :: raws.length :: raws) stop ∧
      after = { cursor with pos := stop } ∧ info.parameterNames = raws.map nameOf ∧
      ∀ raw ∈ raws, ∀ id ∈ nameOf raw, id < strings := by
  constructor
  · intro ran
    obtain ⟨line, first, lineRead, ran⟩ := bind_ok ran
    obtain ⟨count, second, countRead, ran⟩ := bind_ok ran
    obtain ⟨lineUsed, lineStored, rfl⟩ := uleb128_ok_iff.mp lineRead
    obtain ⟨countUsed, countStored, rfl⟩ := uleb128_ok_iff.mp countRead
    rw [bufferSize_bind] at ran
    by_cases few : count ≤ bytes.size
    · rw [ensure_bind few] at ran
      obtain ⟨names, third, collected, ended⟩ := bind_ok ran
      obtain ⟨rfl, run⟩ := collect_ok_iff.mp collected
      obtain ⟨raws, stop, named, stored, rfl, inside⟩ := reads_parameterName_iff.mp run
      cases ended
      have counted : names.size = raws.length := by simpa using congrArg List.length named
      rw [counted] at countStored
      exact ⟨raws, stop, .cons lineStored (.cons countStored stored), rfl, named, inside⟩
    · rw [ensure_refuses few] at ran
      cases ran
  · rintro ⟨raws, stop, stored, rfl, names, inside⟩
    cases stored with | @cons _ _ _ lineUsed _ lineStored stored =>
    cases stored with | @cons _ _ _ countUsed _ countStored stored =>
    have lineRead := uleb128_ok_iff.mpr ⟨lineUsed, lineStored, rfl⟩
    have countRead : uleb128 bytes ⟨cursor.pos + lineUsed, cursor.notices⟩ = _ :=
      uleb128_ok_iff.mpr ⟨countUsed, countStored, rfl⟩
    -- there are no more numbers than bytes, so the number of parameters is never refused
    have few : raws.length ≤ bytes.size := by
      have behind := (Framed.uleb128.moves countRead).2.1
      have counted := stored.length_le behind
      omega
    have collected : Reader.collect raws.length (fun _ => parameterName strings) bytes
        ⟨cursor.pos + lineUsed + countUsed, cursor.notices⟩ =
          .ok (raws.map nameOf).toArray ⟨stop, cursor.notices⟩ :=
      collect_ok_iff.mpr ⟨by simp, reads_parameterName_iff.mpr
        ⟨raws, stop, rfl, stored, rfl, inside⟩⟩
    rw [read, bind_of_ok lineRead, bind_of_ok countRead, bufferSize_bind, ensure_bind few,
      bind_of_ok collected]
    obtain ⟨line, parameterNames⟩ := info
    cases names
    rfl

/-- What the stored numbers are documented to stand for: zero for a parameter without a name, and any
other for the string one below it, which is there. -/
structure Documented (strings : Nat) (raws : List Nat) (names : List (Option Nat)) : Prop where
  length : names.length = raws.length
  absent : ∀ (i : Nat) (raw : Nat), raws[i]? = some raw → (names[i]? = some none ↔ raw = 0)
  present : ∀ (i : Nat) (raw : Nat), raws[i]? = some raw → raw ≠ 0 →
    names[i]? = some (some (raw - 1)) ∧ raw - 1 < strings

theorem documented_iff {raws : List Nat}
    (inside : ∀ raw ∈ raws, ∀ id ∈ nameOf raw, id < strings) :
    Documented strings raws (raws.map nameOf) ↔ ∀ raw ∈ raws, raw ≤ 0x80000000 := by
  have entry {i raw : Nat} (listed : raws[i]? = some raw) :
      (raws.map nameOf)[i]? = some (nameOf raw) := by
    rw [List.getElem?_map, listed, Option.map_some]
  constructor
  · intro documented raw member
    obtain ⟨i, listed⟩ := List.mem_iff_getElem?.mp member
    rcases Nat.lt_or_ge 0x80000000 raw with large | small
    · -- a number that large has no name, and only zero may have none
      have missing : nameOf raw = none := if_pos (.inr large)
      have zero := (documented.absent i raw listed).mp (by rw [entry listed, missing])
      omega
    · exact small
  · intro small
    refine ⟨List.length_map nameOf, fun i raw listed => ?_, fun i raw listed positive => ?_⟩
    · have bound := small raw (List.mem_of_getElem? listed)
      rw [entry listed, Option.some.injEq]
      unfold nameOf
      split
      next missing => simpa using (by omega : raw = 0)
      next named => simpa using (by omega : raw ≠ 0)
    · have member := List.mem_of_getElem? listed
      have bound := small raw member
      have named : nameOf raw = some (raw - 1) := if_neg (by omega)
      exact ⟨by rw [entry listed, named], inside raw member _ (by rw [named]; rfl)⟩

/-- The bytes tell what is read: numbers that stand behind a number of parameters are all that can be
read for it. -/
theorem raws_unique {pos stop stopToo line lineToo : Nat} {raws rawsToo : List Nat}
    (stored : bytes.Stored pos (line :: raws.length :: raws) stop)
    (storedToo : bytes.Stored pos (lineToo :: rawsToo.length :: rawsToo) stopToo) :
    raws = rawsToo := by
  cases stored with | cons lineStored stored =>
  cases stored with | cons countStored stored =>
  cases storedToo with | cons lineStoredToo storedToo =>
  rw [lineStored] at lineStoredToo
  cases lineStoredToo
  cases storedToo with | cons countStoredToo storedToo =>
  rw [countStored, Except.ok.injEq, Prod.mk.injEq] at countStoredToo
  obtain ⟨counts, rfl⟩ := countStoredToo
  exact stored.unique storedToo counts

/-- Parameters are named by the stored numbers, each decreased by one as a signed number of 32 bits:
one that is negative then gives no name, and any other names a string that is there. This is the
documented meaning just if no number is above `2 ^ 31`. Numbers up to there that name no string make
the reading fail. -/
theorem parameterNames_decreased (strings : Nat) (bytes : Bytes) (cursor : Cursor) :
    (∀ info after, read strings bytes cursor = .ok info after →
      ∃ raws, bytes.Stored cursor.pos (info.lineStart :: raws.length :: raws) after.pos ∧
        info.parameterNames = raws.map nameOf ∧
        (∀ raw ∈ raws, ∀ id ∈ nameOf raw, id < strings) ∧
        (Documented strings raws info.parameterNames ↔ ∀ raw ∈ raws, raw ≤ 0x80000000)) ∧
    ∀ line raws stop, bytes.Stored cursor.pos (line :: raws.length :: raws) stop →
      (∃ raw ∈ raws, strings < raw ∧ raw ≤ 0x80000000) →
      ∃ e after, read strings bytes cursor = .error e after := by
  constructor
  · intro info after ran
    obtain ⟨raws, stop, stored, rfl, names, inside⟩ := read_ok_iff.mp ran
    exact ⟨raws, stored, names, inside, by rw [names]; exact documented_iff inside⟩
  · rintro line raws stop stored ⟨raw, member, beyond, small⟩
    cases ran : read strings bytes cursor with
    | error e after => exact ⟨e, after, rfl⟩
    | ok info after =>
      obtain ⟨rawsToo, _, storedToo, -, -, inside⟩ := read_ok_iff.mp ran
      obtain rfl := raws_unique stored storedToo
      have named : nameOf raw = some (raw - 1) := if_neg (by omega)
      have there := inside raw member (raw - 1) (by rw [named]; rfl)
      omega

/-- Two parameters, of which the first has a name. -/
theorem parameterNames_decreased_sample :
    ∃ raws, Bytes.Stored #[1, 2, 6, 0] 0 (1 :: raws.length :: raws) 4 ∧
      raws.map nameOf = [some 5, none] ∧ Documented 6 raws [some 5, none] := by
  have ran : read 6 #[1, 2, 6, 0] ⟨0, #[]⟩ = .ok ⟨1, [some 5, none]⟩ ⟨4, #[]⟩ := by rfl
  obtain ⟨raws, stored, names, -, documented⟩ :=
    (parameterNames_decreased 6 #[1, 2, 6, 0] ⟨0, #[]⟩).1 _ _ ran
  have again : Bytes.Stored #[1, 2, 6, 0] 0 (1 :: [6, 0].length :: [6, 0]) 4 :=
    .cons rfl (.cons rfl (.cons rfl (.cons rfl (.nil 4))))
  obtain rfl := raws_unique again stored
  exact ⟨_, stored, names.symm, documented.mpr (by decide)⟩

/-- One parameter, whose stored number is `2 ^ 31 + 1`. -/
def wrappedSample : Bytes := #[1, 1, 0x81, 0x80, 0x80, 0x80, 0x08]

/-- The number names a string far beyond the only one that is there. Still it is read, as if the
parameter had no name. -/
theorem parameterNames_wrapped :
    read 1 wrappedSample ⟨0, #[]⟩ = .ok ⟨1, [none]⟩ ⟨7, #[]⟩ ∧
      wrappedSample.Stored 0 [1, 1, 0x80000001] 7 ∧ ¬Documented 1 [0x80000001] [none] := by
  refine ⟨by rfl, ?_, fun documented => ?_⟩
  · exact .cons rfl (.cons rfl (.cons rfl (.nil 7)))
  · exact absurd ((documented.absent 0 0x80000001 rfl).mp rfl) (by decide)

end DebugInfo

end DexAtlas
