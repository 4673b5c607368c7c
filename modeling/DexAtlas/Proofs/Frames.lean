import DexAtlas.Proofs.Refusals
import DexAtlas.Proofs.VariableLength

/-!
# Frames of the elementary readers

One law holds for every reader that the others are built from. If it fails, the cursor is where it
was. If it returns something, the cursor has moved on, and not past the end of the buffer; and the
bytes that it has moved over are all that was looked at, so that any other buffer with these bytes
gives the same. For the numbers this is a matter of how many bytes they count. A text is the one case
where the end has to be searched for: the first zero behind its start is found again in every buffer
that has the same bytes up to it.
-/
namespace DexAtlas

/-! ### Buffers that agree on a part -/

namespace Bytes

variable {bytes other : Bytes} {start stop : Nat}

/-- The two buffers have the same bytes from `start` up to `stop`. -/
def AgreeOn (other bytes : Bytes) (start stop : Nat) : Prop :=
  ∀ i, start ≤ i → i < stop → other[i]? = bytes[i]?

theorem AgreeOn.mono {first last : Nat} (agree : AgreeOn other bytes start stop)
    (later : start ≤ first) (earlier : last ≤ stop) : AgreeOn other bytes first last :=
  fun i low high => agree i (Nat.le_trans later low) (Nat.lt_of_lt_of_le high earlier)

theorem AgreeOn.extract (agree : AgreeOn other bytes start stop) (inside : stop ≤ bytes.size)
    (insideToo : stop ≤ other.size) : other.extract start stop = bytes.extract start stop := by
  apply Array.ext_getElem?
  intro i
  rw [Array.getElem?_extract, Array.getElem?_extract, Nat.min_eq_left inside,
    Nat.min_eq_left insideToo]
  split
  next short => exact agree (start + i) (Nat.le_add_right _ _) (by omega)
  next => rfl

theorem take_window {count n : Nat} (fits : n ≤ count) :
    (bytes.window start count).take n = (bytes.extract start (start + n)).toList := by
  rw [window_eq, List.take_take, Nat.min_eq_left fits, ← window_eq, window]

private theorem search_eq_some_iff {left : Nat} :
    zeroFrom?.search bytes left start = some stop ↔
      start ≤ stop ∧ stop < start + left ∧ bytes[stop]? = some 0 ∧
        ∀ i, start ≤ i → i < stop → bytes[i]? ≠ some 0 := by
  induction left generalizing start with
  | zero =>
    refine iff_of_false (by simp [zeroFrom?.search]) ?_
    rintro ⟨ordered, inside, -⟩
    omega
  | succ left ih =>
    rw [zeroFrom?.search]
    split
    next zero =>
      -- the search ends here, and no position before it was left to look at
      rw [Option.some.injEq]
      constructor
      · rintro rfl
        exact ⟨Nat.le_refl _, by omega, zero, fun i low high => by omega⟩
      · rintro ⟨ordered, -, -, nonzero⟩
        rcases Nat.eq_or_lt_of_le ordered with same | further
        · exact same
        · exact absurd zero (nonzero start (Nat.le_refl _) further)
    next other =>
      rw [ih]
      constructor
      · rintro ⟨ordered, inside, zero, nonzero⟩
        refine ⟨by omega, by omega, zero, fun i low high => ?_⟩
        rcases Nat.eq_or_lt_of_le low with rfl | further
        · exact other
        · exact nonzero i further high
      · rintro ⟨ordered, inside, zero, nonzero⟩
        have behind : start ≠ stop := fun same => other (same ▸ zero)
        exact ⟨by omega, by omega, zero, fun i low high => nonzero i (by omega) high⟩

/-- The zero that is found is the first one. -/
theorem zeroFrom?_eq_some_iff : bytes.zeroFrom? start = some stop ↔
    start ≤ stop ∧ bytes[stop]? = some 0 ∧ ∀ i, start ≤ i → i < stop → bytes[i]? ≠ some 0 := by
  rw [zeroFrom?, search_eq_some_iff]
  constructor
  · rintro ⟨ordered, -, zero, nonzero⟩
    exact ⟨ordered, zero, nonzero⟩
  · rintro ⟨ordered, zero, nonzero⟩
    obtain ⟨inside, -⟩ := Array.getElem?_eq_some_iff.mp zero
    exact ⟨ordered, by omega, zero, nonzero⟩

theorem AgreeOn.zeroFrom? (agree : AgreeOn other bytes start (stop + 1))
    (found : bytes.zeroFrom? start = some stop) : other.zeroFrom? start = some stop := by
  rw [zeroFrom?_eq_some_iff] at found ⊢
  obtain ⟨ordered, zero, nonzero⟩ := found
  refine ⟨ordered, by rw [agree stop ordered (by omega), zero], fun i low high => ?_⟩
  rw [agree i low (by omega)]
  exact nonzero i low high

end Bytes

/-! ### The law -/

namespace Reader

variable {α β : Type} {least : Nat}

/-- How an elementary reader treats its cursor and its buffer: it does not move if it fails, and
otherwise moves by at least `least` bytes, stays in the buffer and depends only on the bytes that it
has moved over. -/
structure Framed (least : Nat) (reader : Reader α) : Prop where
  stays : ∀ ⦃bytes cursor e after⦄, reader bytes cursor = .error e after → after = cursor
  moves : ∀ ⦃bytes cursor a after⦄, reader bytes cursor = .ok a after →
    cursor.pos + least ≤ after.pos ∧ after.pos ≤ bytes.size ∧ after.notices = cursor.notices
  sees : ∀ ⦃bytes cursor a after⦄, reader bytes cursor = .ok a after →
    ∀ other : Bytes, after.pos ≤ other.size → other.AgreeOn bytes cursor.pos after.pos →
      reader other cursor = .ok a after

namespace Framed

theorem bind_pure {reader : Reader α} (framed : Framed least reader) (f : α → β) :
    Framed least (reader >>= fun a => pure (f a)) := by
  constructor
  · intro bytes cursor e after failed
    cases ran : reader bytes cursor with
    | ok a middle =>
      rw [bind_of_ok ran] at failed
      cases failed
    | error e' middle =>
      rw [bind_of_error ran] at failed
      cases failed
      exact framed.stays ran
  · intro bytes cursor b after ran
    obtain ⟨a, middle, begun, ended⟩ := bind_ok ran
    cases ended
    exact framed.moves begun
  · intro bytes cursor b after ran other inside agree
    obtain ⟨a, middle, begun, ended⟩ := bind_ok ran
    cases ended
    exact bind_of_ok (framed.sees begun other inside agree)

theorem take (what : String) (count : Nat) : Framed count (Reader.take what count) := by
  constructor
  · intro bytes cursor e after failed
    simp only [Reader.take] at failed
    split at failed
    · cases failed
    · cases failed
      rfl
  · intro bytes cursor raw after ran
    simp only [Reader.take] at ran
    split at ran
    next inside =>
      cases ran
      exact ⟨Nat.le_refl _, inside, rfl⟩
    next => cases ran
  · intro bytes cursor raw after ran other insideToo agree
    simp only [Reader.take] at ran ⊢
    split at ran
    next inside =>
      cases ran
      rw [if_pos insideToo, agree.extract inside insideToo]
    next => cases ran

theorem uint (what : String) (width : Nat) : Framed width (Reader.uint what width) :=
  bind_pure (take what width) _

/-- A number is as long as its decoder says, and that is at least one byte. -/
theorem leb {decode : List UInt8 → Except Cause (α × Nat)} (heads : Leb128.Heads decode) :
    Framed 1 (Reader.leb decode) := by
  constructor
  · intro bytes cursor e after failed
    unfold Reader.leb at failed
    split at failed
    next => cases failed
    next =>
      cases failed
      rfl
  · intro bytes cursor a after ran
    unfold Reader.leb at ran
    split at ran
    next value used decoded =>
      cases ran
      obtain ⟨some, fits, -⟩ := heads decoded
      rw [Bytes.window, Array.length_toList, Array.size_extract] at fits
      exact ⟨Nat.add_le_add_left some _, by dsimp only; omega, rfl⟩
    next => cases ran
  · intro bytes cursor a after ran other insideToo agree
    unfold Reader.leb at ran ⊢
    split at ran
    next value used decoded =>
      cases ran
      dsimp only at insideToo agree
      obtain ⟨some, fits, alike⟩ := heads decoded
      rw [Bytes.window, Array.length_toList, Array.size_extract] at fits
      -- the bytes of the number are the first that the window shows, in either buffer
      have same : (other.window cursor.pos Leb128.maxBytes).take used =
          (bytes.window cursor.pos Leb128.maxBytes).take used := by
        rw [Bytes.take_window (by omega), Bytes.take_window (by omega),
          agree.extract (by omega) insideToo]
      rw [alike _ same]
    next => cases ran

theorem uleb128 : Framed 1 Reader.uleb128 := leb Leb128.heads_unsigned

theorem uleb128p1 : Framed 1 Reader.uleb128p1 := leb Leb128.heads_lessOne

theorem sleb128 : Framed 1 Reader.sleb128 := leb Leb128.heads_signed

end Framed

/-! ### Texts -/

section Text

variable {bytes : Bytes} {cursor after : Cursor}

/-- A text is read if its length can be read, a zero follows, the bytes up to the zero are well-formed
and have as many units as the length says. -/
theorem text_ok_iff {s : String} : text bytes cursor = .ok s after ↔
    ∃ declared first stop decoded, uleb128 bytes cursor = .ok declared first ∧
      bytes.zeroFrom? first.pos = some stop ∧
      Text.Mutf8.decode (bytes.extract first.pos stop).toList = some decoded ∧
      decoded.units = declared ∧ s = String.ofList decoded.text ∧
      after = { first with pos := stop + 1 } := by
  rw [text, restoring_ok_iff, position_bind]
  constructor
  · intro ran
    obtain ⟨declared, first, length, ran⟩ := bind_ok ran
    rw [position_bind, buffer_bind] at ran
    cases found : bytes.zeroFrom? first.pos with
    | none =>
      rw [found] at ran
      cases ran
    | some stop =>
      rw [found] at ran
      dsimp only at ran
      cases content : Text.Mutf8.decode (bytes.extract first.pos stop).toList with
      | none =>
        rw [content] at ran
        cases ran
      | some decoded =>
        rw [content] at ran
        dsimp only at ran
        by_cases counted : decoded.units = declared
        · rw [ensure_bind counted, seek_bind] at ran
          cases ran
          exact ⟨declared, first, stop, decoded, length, found, content, counted, rfl, rfl⟩
        · rw [ensure_refuses counted] at ran
          cases ran
  · rintro ⟨declared, first, stop, decoded, length, found, content, counted, rfl, rfl⟩
    rw [bind_of_ok length, position_bind, buffer_bind, found]
    dsimp only
    rw [content]
    dsimp only
    rw [ensure_bind counted, seek_bind]
    rfl

theorem text_error {e : Error} (failed : text bytes cursor = .error e after) : after = cursor := by
  unfold text restoring at failed
  split at failed
  next => cases failed
  next e' left raised =>
    cases failed
    -- the position is put back, so only the notices have to be followed
    suffices quiet : left.notices = cursor.notices by rw [quiet]
    rw [position_bind] at raised
    cases length : uleb128 bytes cursor with
    | error e' first =>
      rw [bind_of_error length] at raised
      cases raised
      rw [Framed.uleb128.stays length]
    | ok declared first =>
      rw [bind_of_ok length, position_bind, buffer_bind] at raised
      have unmoved : left = first := by
        cases found : bytes.zeroFrom? first.pos with
        | none =>
          rw [found] at raised
          cases raised
          rfl
        | some stop =>
          rw [found] at raised
          dsimp only at raised
          cases content : Text.Mutf8.decode (bytes.extract first.pos stop).toList with
          | none =>
            rw [content] at raised
            cases raised
            rfl
          | some decoded =>
            rw [content] at raised
            dsimp only at raised
            by_cases counted : decoded.units = declared
            · rw [ensure_bind counted, seek_bind] at raised
              cases raised
            · rw [ensure_refuses counted] at raised
              cases raised
              rfl
      rw [unmoved]
      exact (Framed.uleb128.moves length).2.2

/-- The length takes a byte and the zero another. -/
theorem Framed.text : Framed 2 Reader.text := by
  constructor
  · intro bytes cursor e after failed
    exact text_error failed
  · intro bytes cursor s after ran
    obtain ⟨declared, first, stop, decoded, length, found, -, -, -, rfl⟩ := text_ok_iff.mp ran
    obtain ⟨moved, -, quiet⟩ := Framed.uleb128.moves length
    obtain ⟨ordered, zero, -⟩ := Bytes.zeroFrom?_eq_some_iff.mp found
    obtain ⟨inside, -⟩ := Array.getElem?_eq_some_iff.mp zero
    exact ⟨by dsimp only; omega, inside, quiet⟩
  · intro bytes cursor s after ran other insideToo agree
    obtain ⟨declared, first, stop, decoded, length, found, content, counted, rfl, rfl⟩ :=
      text_ok_iff.mp ran
    dsimp only at insideToo agree
    obtain ⟨moved, within, -⟩ := Framed.uleb128.moves length
    obtain ⟨ordered, zero, -⟩ := Bytes.zeroFrom?_eq_some_iff.mp found
    obtain ⟨inside, -⟩ := Array.getElem?_eq_some_iff.mp zero
    -- length, zero and content are where they were, since all three lie before the new cursor
    have lengthToo := Framed.uleb128.sees length other (by omega)
      (agree.mono (Nat.le_refl _) (by omega))
    have foundToo := (agree.mono (by omega) (Nat.le_refl _)).zeroFrom? found
    have same : other.extract first.pos stop = bytes.extract first.pos stop :=
      (agree.mono (by omega) (by omega)).extract (by omega) (by omega)
    exact text_ok_iff.mpr ⟨declared, first, stop, decoded, lengthToo, foundToo, by rw [same, content],
      counted, rfl, rfl⟩

end Text

/-- All elementary readers obey the law, at every cursor, whether it lies in the buffer or beyond its
end. Only the reader of a given number of bytes may succeed without moving, if it is asked for none. -/
theorem elementary_framed :
    Framed 1 u1 ∧ Framed 2 u2 ∧ Framed 4 u4 ∧ Framed 8 u8 ∧ Framed 1 uleb128 ∧
      Framed 1 uleb128p1 ∧ Framed 1 sleb128 ∧ (∀ count, Framed count (raw count)) ∧
      Framed 2 text :=
  ⟨.uint "u1" 1, .uint "u2" 2, .uint "u4" 4, .uint "u8" 8, .uleb128, .uleb128p1, .sleb128,
    .take "byte array", .text⟩

end Reader

end DexAtlas
