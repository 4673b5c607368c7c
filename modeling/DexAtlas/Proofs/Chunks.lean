import DexAtlas.Container.Layout
import DexAtlas.Proofs.Ranges

/-!
# Chunks

What a writer puts down, a reader takes up again. A chunk stands at a position of a buffer whatever
is around it, and a reader takes a chunk if it reads the same value wherever the chunk stands and
stops right behind it. Readers put together from several take the chunks one behind the other.
-/
namespace DexAtlas

open Bytes (toLittleEndian)

namespace Bytes

theorem toNat_byte {n : Nat} (small : n < 0x100) : (UInt8.ofNat n).toNat = n :=
  UInt8.toNat_ofNat_of_lt' small

/-- The chunk stands in the buffer from `pos` on. -/
def Holds (bytes : Bytes) (pos : Nat) (chunk : List UInt8) : Prop :=
  ∃ before after, bytes.toList = before ++ (chunk ++ after) ∧ before.length = pos

theorem window_eq (bytes : Bytes) (start count : Nat) :
    bytes.window start count = (bytes.toList.drop start).take count := by
  rw [window, Array.toList_extract, List.extract_eq_take_drop]
  congr 1
  omega

theorem holds_nil {bytes : Bytes} {pos : Nat} (inside : pos ≤ bytes.size) : bytes.Holds pos [] :=
  ⟨bytes.toList.take pos, bytes.toList.drop pos, by simp, by
    rw [List.length_take, Array.length_toList, Nat.min_eq_left inside]⟩

theorem length_flatMap_toLittleEndian (width : Nat) (numbers : List Nat) :
    (numbers.flatMap (toLittleEndian width)).length = numbers.length * width := by
  induction numbers with
  | nil => simp
  | cons n rest ih =>
    rw [List.flatMap_cons, List.length_append, length_toLittleEndian, ih, List.length_cons,
      Nat.succ_mul, Nat.add_comm]

/-- There are no more items than bytes if every item takes one. -/
theorem length_le_flatMap {α : Type} {items : List α} {write : α → List UInt8}
    (each : ∀ item ∈ items, 0 < (write item).length) :
    items.length ≤ (items.flatMap write).length := by
  induction items with
  | nil => exact Nat.le_refl 0
  | cons item rest ih =>
    have first := each item (by simp)
    have others := ih fun other member => each other (by simp [member])
    rw [List.flatMap_cons, List.length_append, List.length_cons]
    omega

namespace Holds

variable {bytes : Bytes} {pos : Nat} {chunk first second : List UInt8}

theorem left (holds : bytes.Holds pos (first ++ second)) : bytes.Holds pos first := by
  obtain ⟨before, after, whole, rfl⟩ := holds
  exact ⟨before, second ++ after, by simpa using whole, rfl⟩

theorem right (holds : bytes.Holds pos (first ++ second)) :
    bytes.Holds (pos + first.length) second := by
  obtain ⟨before, after, whole, rfl⟩ := holds
  exact ⟨before ++ first, after, by simpa using whole, by simp⟩

theorem le (holds : bytes.Holds pos chunk) : pos + chunk.length ≤ bytes.size := by
  obtain ⟨before, after, whole, rfl⟩ := holds
  rw [← Array.length_toList, whole]
  simp

theorem drop (holds : bytes.Holds pos chunk) : ∃ after, bytes.toList.drop pos = chunk ++ after := by
  obtain ⟨before, after, whole, rfl⟩ := holds
  exact ⟨after, by rw [whole, List.drop_left]⟩

theorem window (holds : bytes.Holds pos chunk) : bytes.window pos chunk.length = chunk := by
  obtain ⟨after, rest⟩ := holds.drop
  rw [window_eq, rest, List.take_left]

theorem extract (holds : bytes.Holds pos chunk) :
    bytes.extract pos (pos + chunk.length) = chunk.toArray :=
  Array.toList_inj.mp holds.window

end Holds

end Bytes

namespace Reader

variable {α β : Type} {bytes : Bytes}

/-! ### Single steps -/

section Steps

variable {cursor : Cursor}

theorem position_bind {next : Nat → Reader β} :
    (position >>= next) bytes cursor = next cursor.pos bytes cursor := rfl

theorem seek_bind {next : Unit → Reader β} {pos : Nat} :
    (seek pos >>= next) bytes cursor = next () bytes { cursor with pos } := rfl

theorem bufferSize_bind {next : Nat → Reader β} :
    (bufferSize >>= next) bytes cursor = next bytes.size bytes cursor := rfl

theorem buffer_bind {next : Bytes → Reader β} :
    (read >>= next) bytes cursor = next bytes bytes cursor := rfl

theorem ensure_bind {condition : Prop} [Decidable condition] {cause : Cause}
    {next : Unit → Reader β} (holds : condition) :
    (ensure condition cause >>= next) bytes cursor = next () bytes cursor := by
  rw [ensure, if_pos holds]
  rfl

end Steps

/-- Wherever the chunk stands in the buffer, the reader takes it for `a` and stops behind it. -/
def Takes (bytes : Bytes) (reader : Reader α) (chunk : List UInt8) (a : α) : Prop :=
  ∀ ⦃pos⦄, bytes.Holds pos chunk → ∀ notices,
    reader bytes ⟨pos, notices⟩ = .ok a ⟨pos + chunk.length, notices⟩

namespace Takes

/-! ### Control -/

theorem pure (a : α) : Takes bytes (Pure.pure a : Reader α) [] a := fun _ _ _ => rfl

theorem bind {reader : Reader α} {next : α → Reader β} {first second : List UInt8} {a : α} {b : β}
    (head : Takes bytes reader first a) (tail : Takes bytes (next a) second b) :
    Takes bytes (reader >>= next) (first ++ second) b := by
  intro pos holds notices
  rw [bind_of_ok (head holds.left notices), tail holds.right notices, List.length_append,
    Nat.add_assoc]

/-- A reader that takes nothing stands before one that takes the chunk. -/
theorem after {reader : Reader α} {next : α → Reader β} {chunk : List UInt8} {a : α} {b : β}
    (head : Takes bytes reader [] a) (tail : Takes bytes (next a) chunk b) :
    Takes bytes (reader >>= next) chunk b :=
  bind head tail

/-- A reader that takes nothing stands behind one that takes the chunk. -/
theorem finish {reader : Reader α} {next : α → Reader β} {chunk : List UInt8} {a : α} {b : β}
    (head : Takes bytes reader chunk a) (tail : Takes bytes (next a) [] b) :
    Takes bytes (reader >>= next) chunk b := by
  have both := bind head tail
  rwa [List.append_nil] at both

theorem ensure {condition : Prop} [Decidable condition] (holds : condition) (cause : Cause) :
    Takes bytes (Reader.ensure condition cause) [] () := by
  rw [Reader.ensure, if_pos holds]
  exact pure ()

theorem within {reader : Reader α} {chunk : List UInt8} {a : α} (context : Context)
    (inner : Takes bytes reader chunk a) : Takes bytes (Reader.within context reader) chunk a := by
  intro pos holds notices
  exact within_ok_iff.mpr (inner holds notices)

theorem elsewhere {reader : Reader α} {chunk : List UInt8} {a : α} {pos : Nat}
    (inner : Takes bytes reader chunk a) (stands : bytes.Holds pos chunk) :
    Takes bytes (Reader.elsewhere pos reader) [] a := by
  intro here _ notices
  exact elsewhere_ok_iff.mpr ⟨_, inner stands notices, rfl⟩

theorem bufferSize : Takes bytes Reader.bufferSize [] bytes.size := fun _ _ _ => rfl

/-- What follows may depend on where the chunk stands. -/
theorem position {next : Nat → Reader β} {chunk : List UInt8} {b : β}
    (tail : ∀ pos, bytes.Holds pos chunk → Takes bytes (next pos) chunk b) :
    Takes bytes (Reader.position >>= next) chunk b :=
  fun pos holds notices => tail pos holds holds notices

/-- Items that take a chunk each, from a place in the list on, are read one behind the other. -/
theorem reads {item : Nat → Reader α} {items : List α} {chunks : List (List UInt8)}
    {place pos : Nat} (sizes : chunks.length = items.length)
    (each : ∀ i a chunk, items[i]? = some a → chunks[i]? = some chunk →
      Takes bytes (item (place + i)) chunk a)
    (holds : bytes.Holds pos chunks.flatten) (notices : Array Notice) :
    Reads item bytes place ⟨pos, notices⟩ items ⟨pos + chunks.flatten.length, notices⟩ := by
  induction items generalizing chunks place pos with
  | nil =>
    obtain rfl := List.length_eq_zero_iff.mp sizes
    exact .nil _ _
  | cons a rest ih =>
    obtain ⟨chunk, chunks, rfl⟩ := List.exists_cons_of_length_eq_add_one sizes
    rw [List.flatten_cons] at holds ⊢
    rw [List.length_append, ← Nat.add_assoc]
    refine .cons (each 0 a chunk rfl rfl holds.left notices)
      (ih (Nat.succ.inj sizes) ?_ holds.right)
    intro i other piece listed written
    have next := each (i + 1) other piece listed written
    rwa [Nat.add_assoc, Nat.add_comm 1 i]

/-- As many items as there are chunks, each taking its own. -/
theorem collect {count : Nat} {item : Nat → Reader α} {items : Array α}
    {chunks : List (List UInt8)} (counted : items.size = count) (sizes : chunks.length = count)
    (each : ∀ i a chunk, items[i]? = some a → chunks[i]? = some chunk →
      Takes bytes (item i) chunk a) :
    Takes bytes (Reader.collect count item) chunks.flatten items := by
  intro pos holds notices
  refine collect_ok_iff.mpr ⟨counted, reads (by simp [sizes, counted]) ?_ holds notices⟩
  intro i a chunk listed written
  rw [Array.getElem?_toList] at listed
  rw [Nat.zero_add]
  exact each i a chunk listed written

/-- Items that are written and read without regard to their place in the list. -/
theorem collect_flatMap {count : Nat} {item : Reader α} {write : α → List UInt8} {items : Array α}
    (counted : items.size = count) (each : ∀ a ∈ items, Takes bytes item (write a) a) :
    Takes bytes (Reader.collect count fun _ => item) (items.toList.flatMap write) items := by
  rw [List.flatMap_def]
  refine collect counted (by simpa using counted) fun i a chunk listed written => ?_
  rw [List.getElem?_map, Array.getElem?_toList, listed] at written
  cases written
  exact each a (Array.mem_of_getElem? listed)

/-! ### Numbers -/

theorem take (what : String) (chunk : List UInt8) :
    Takes bytes (Reader.take what chunk.length) chunk chunk.toArray := by
  intro pos holds notices
  simp only [Reader.take]
  rw [if_pos holds.le, holds.extract]

theorem uint {what : String} {width n : Nat} (small : n < 1 <<< (8 * width)) :
    Takes bytes (Reader.uint what width) (toLittleEndian width n) n := by
  have raw : Takes bytes _ _ _ := take what (toLittleEndian width n)
  rw [Bytes.length_toLittleEndian] at raw
  refine raw.finish ?_
  have value : Bytes.ofLittleEndian (toLittleEndian width n) = n := by
    rw [Bytes.ofLittleEndian_toLittleEndian, Nat.mod_eq_of_lt small]
  rw [List.toList_toArray, value]
  exact pure n

theorem u2 {n : Nat} (small : n < UInt16.size) :
    Takes bytes Reader.u2 (toLittleEndian 2 n) n :=
  uint small

theorem u4 {n : Nat} (small : n < UInt32.size) :
    Takes bytes Reader.u4 (toLittleEndian 4 n) n :=
  uint small

theorem raw {chunk : Bytes} {count : Nat} (size : chunk.size = count) :
    Takes bytes (Reader.raw count) chunk.toList chunk := by
  subst size
  exact take "byte array" chunk.toList

end Takes

end Reader

end DexAtlas
