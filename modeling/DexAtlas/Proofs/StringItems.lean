import DexAtlas.Proofs.ModifiedUtf8

/-!
# String items

A string item is the number of its UTF-16 units, the units in the modified form and a zero byte. The
modified form has no zero byte of its own, so the item ends at the first one, and it is read as the
text that the units show, wherever it stands in a buffer and whatever the units are. What is written
for a text is read back as that text.
-/
namespace DexAtlas

/-! ### Variable-length numbers -/

namespace Leb128

/-- In `room + 1` bytes there is place for four bits and seven more for each byte but the last. -/
theorem unsignedFrom_encode {room n : Nat} (fits : n < 1 <<< (7 * room + 4)) (rest : List UInt8) :
    unsignedFrom (room + 1) (encode n ++ rest) = .ok (n, (encode n).length) ∧
      (encode n).length ≤ room + 1 := by
  induction room generalizing n with
  | zero =>
    -- the last byte that is allowed may have no more than four bits
    have small : n < 16 := fits
    rw [encode, if_pos (by omega), List.singleton_append, unsignedFrom, Bytes.toNat_byte (by omega),
      if_neg (by omega), if_pos (by omega), Nat.mod_eq_of_lt (by omega)]
    exact ⟨rfl, Nat.le_refl 1⟩
  | succ room ih =>
    rw [encode]
    split
    next small =>
      rw [List.singleton_append, unsignedFrom, Bytes.toNat_byte (by omega), if_neg (by omega),
        if_pos small, Nat.mod_eq_of_lt small]
      exact ⟨rfl, by simp⟩
    next large =>
      -- the low seven bits come first, and the rest has one byte less
      have wider : 1 <<< (7 * (room + 1) + 4) = 128 * 1 <<< (7 * room + 4) := by
        rw [Nat.shiftLeft_eq, Nat.shiftLeft_eq, Nat.mul_succ, Nat.add_right_comm, Nat.pow_add]
        omega
      obtain ⟨high, shorter⟩ := @ih (n / 128) (by omega)
      rw [List.cons_append, unsignedFrom, Bytes.toNat_byte (by omega), high, List.length_cons]
      dsimp only
      rw [if_neg (by omega), if_neg (by omega), Nat.add_mod_right, Nat.mod_mod, Nat.mod_add_div]
      exact ⟨rfl, by omega⟩

end Leb128

namespace Reader.Takes

variable {bytes : Bytes}

/-- A number is taken from its bytes if these are few enough and are decoded whatever follows. -/
theorem leb {α : Type} {decode : List UInt8 → Except Cause (α × Nat)} {chunk : List UInt8} {a : α}
    (short : chunk.length ≤ Leb128.maxBytes)
    (decoded : ∀ rest, decode (chunk ++ rest) = .ok (a, chunk.length)) :
    Takes bytes (Reader.leb decode) chunk a := by
  intro pos holds notices
  obtain ⟨after, rest⟩ := holds.drop
  have window : bytes.window pos Leb128.maxBytes =
      chunk ++ after.take (Leb128.maxBytes - chunk.length) := by
    rw [Bytes.window_eq, rest, List.take_append, List.take_of_length_le short]
  rw [Reader.leb, window, decoded]

theorem uleb128 {n : Nat} (small : n < UInt32.size) :
    Takes bytes Reader.uleb128 (Leb128.encode n) n :=
  leb (@Leb128.unsignedFrom_encode 4 n small []).2
    fun rest => (@Leb128.unsignedFrom_encode 4 n small rest).1

end Reader.Takes

/-! ### String items -/

namespace Bytes

variable {bytes : Bytes}

theorem Holds.getElem? {pos : Nat} {byte : UInt8} {rest : List UInt8}
    (holds : bytes.Holds pos (byte :: rest)) : bytes[pos]? = some byte := by
  obtain ⟨before, after, whole, rfl⟩ := holds
  rw [← Array.getElem?_toList, whole, List.getElem?_append_right (Nat.le_refl _), Nat.sub_self]
  rfl

theorem Holds.tail {pos : Nat} {byte : UInt8} {rest : List UInt8}
    (holds : bytes.Holds pos (byte :: rest)) : bytes.Holds (pos + 1) rest :=
  @Holds.right bytes pos [byte] rest holds

private theorem search_of_holds {chunk : List UInt8} {pos left : Nat}
    (holds : bytes.Holds pos (chunk ++ [0])) (nonzero : ∀ byte ∈ chunk, byte ≠ 0)
    (enough : chunk.length < left) :
    zeroFrom?.search bytes left pos = some (pos + chunk.length) := by
  induction chunk generalizing pos left with
  | nil =>
    obtain ⟨left, rfl⟩ := Nat.exists_eq_add_one_of_ne_zero (Nat.ne_of_gt enough)
    rw [zeroFrom?.search, if_pos holds.getElem?]
    rfl
  | cons byte rest ih =>
    obtain ⟨left, rfl⟩ := Nat.exists_eq_add_one_of_ne_zero (Nat.ne_of_gt (Nat.zero_lt_of_lt enough))
    have other : bytes[pos]? ≠ some 0 := by
      rw [Holds.getElem? holds]
      exact fun zero => nonzero byte (by simp) (Option.some.inj zero)
    rw [zeroFrom?.search, if_neg other, ih holds.tail (fun b member => nonzero b (by simp [member]))
      (Nat.lt_of_succ_lt_succ enough), List.length_cons, Nat.add_assoc, Nat.add_comm 1]

/-- The zero that ends a chunk without zeros is the first one from its start. -/
theorem Holds.zeroFrom? {chunk : List UInt8} {pos : Nat} (holds : bytes.Holds pos (chunk ++ [0]))
    (nonzero : ∀ byte ∈ chunk, byte ≠ 0) : bytes.zeroFrom? pos = some (pos + chunk.length) := by
  have room := holds.le
  rw [List.length_append, List.length_singleton] at room
  exact search_of_holds holds nonzero (by omega)

end Bytes

namespace Layout

/-- Any units as a string item. -/
def unitItem (units : List UInt16) : List UInt8 :=
  Leb128.encode units.length ++ Text.Mutf8.encode units ++ [0]

theorem length_le_stringItem (s : String) :
    Text.Utf16.length s.toList < (stringItem s).length := by
  have units := Text.Mutf8.length_le_encode (Text.Utf16.encode s.toList)
  rw [Text.Utf16.length_encode] at units
  simp only [stringItem, List.length_append, List.length_singleton]
  omega

end Layout

namespace Reader.Takes

variable {bytes : Bytes}

theorem restoring {α : Type} {reader : Reader α} {chunk : List UInt8} {a : α}
    (inner : Takes bytes reader chunk a) : Takes bytes (Reader.restoring reader) chunk a := by
  intro pos holds notices
  exact restoring_ok_iff.mpr (inner holds notices)

/-- The units of a string item are read as the text that they show. -/
theorem textOfUnits {units : List UInt16} (small : units.length < UInt32.size) :
    Takes bytes Reader.text (Layout.unitItem units) (String.ofList (Text.Utf16.decode units)) := by
  refine restoring ?_
  intro pos holds notices
  simp only [Layout.unitItem, List.append_assoc] at holds ⊢
  -- the modified form has no zeros, so the first one ends the text
  have stop := holds.right.zeroFrom? Text.Mutf8.ne_zero_of_mem_encode
  have content := holds.right.left.extract
  rw [position_bind, bind_of_ok (uleb128 small holds.left notices), position_bind, buffer_bind,
    stop]
  dsimp only
  rw [content, List.toList_toArray, Text.Mutf8.decode_encode]
  dsimp only
  rw [ensure_bind rfl, seek_bind]
  simp only [List.length_append, List.length_singleton, ← Nat.add_assoc]
  rfl

/-- A string item is read back as the string it was written for. -/
theorem text {s : String} (small : Text.Utf16.length s.toList < UInt32.size) :
    Takes bytes Reader.text (Layout.stringItem s) s := by
  rw [← Text.Utf16.length_encode] at small
  have read := @textOfUnits bytes _ small
  rwa [Text.Utf16.decode_encode, String.ofList_toList] at read

end Reader.Takes

namespace Reader

/-- Any units survive being written as a string item, at any place of a buffer: they are read as the
one text that they show, and the cursor stops behind the zero. -/
theorem text_unitItem (units : List UInt16) (small : units.length < UInt32.size)
    (before after : List UInt8) (notices : Array Notice) :
    Reader.text (before ++ Layout.unitItem units ++ after).toArray ⟨before.length, notices⟩ =
        .ok (String.ofList (Text.Utf16.decode units))
          ⟨before.length + (Layout.unitItem units).length, notices⟩ ∧
      ∀ text, Text.Utf16.Shows units text ↔ text = Text.Utf16.decode units := by
  constructor
  · exact Takes.textOfUnits small ⟨before, after, by simp, rfl⟩ notices
  · intro text
    constructor
    · exact Text.Utf16.Shows.eq_decode
    · rintro rfl
      exact Text.Utf16.shows_decode units

/-- A letter, a zero, a pair of surrogates, the halves of a pair in the wrong order, and another
pair. -/
def unitSample : List UInt16 :=
  [0x61, 0, 0xD83D, 0xDE00, 0xDC00, 0xD800, 0xD800, 0xDC01]

theorem text_unitItem_sample :
    unitSample.length < UInt32.size ∧
    Reader.text #[0xFF, 0x08, 0x61, 0xC0, 0x80, 0xED, 0xA0, 0xBD, 0xED, 0xB8, 0x80, 0xED, 0xB0,
        0x80, 0xED, 0xA0, 0x80, 0xED, 0xA0, 0x80, 0xED, 0xB0, 0x81, 0x00, 0x07] ⟨1, #[]⟩ =
      .ok (String.ofList ['a', Char.ofNat 0, Char.ofNat 0x1F600, Text.Utf16.replacement,
        Text.Utf16.replacement, Char.ofNat 0x10001]) ⟨24, #[]⟩ := by
  have small : unitSample.length < UInt32.size := by decide
  have written : Layout.unitItem unitSample = [0x08, 0x61, 0xC0, 0x80, 0xED, 0xA0, 0xBD, 0xED, 0xB8,
      0x80, 0xED, 0xB0, 0x80, 0xED, 0xA0, 0x80, 0xED, 0xA0, 0x80, 0xED, 0xB0, 0x81, 0x00] := by
    decide +kernel
  have shown : Text.Utf16.decode unitSample = ['a', Char.ofNat 0, Char.ofNat 0x1F600,
      Text.Utf16.replacement, Text.Utf16.replacement, Char.ofNat 0x10001] := by
    decide +kernel
  have read := (text_unitItem unitSample small [0xFF] [0x07] #[]).1
  rw [written, shown] at read
  exact ⟨small, read⟩

end Reader

end DexAtlas
