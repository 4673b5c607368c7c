import DexAtlas.Proofs.CodeItems
import DexAtlas.Proofs.ErrorKinds
import Mathlib.Algebra.BigOperators.Intervals
import Mathlib.Algebra.BigOperators.Ring.Finset

/-!
# Variable-length numbers

Which bytes are a number and which number they are, said without the decoder: each byte but the last
announces another, and the low seven bits of the bytes are digits in base 128, lowest first. The
decoders run over the bytes and find exactly this. An unsigned number may not reach past 32 bits,
while a signed one is cut down to the bits that its bytes have. Since nothing behind the last byte
is mentioned, a decoded number depends on its own bytes only.
-/
namespace DexAtlas.Leb128

variable {bytes rest other : List UInt8} {byte : UInt8} {room v n : Nat}

/-! ### Digits -/

/-- The byte at a position, and zero behind the end. -/
def byteAt (bytes : List UInt8) (i : Nat) : Nat := (bytes[i]?.getD 0).toNat

/-- The first `n` bytes as a number in base 128. The highest bit of a byte does not count. -/
def digits (bytes : List UInt8) (n : Nat) : Nat :=
  ∑ i ∈ Finset.range n, byteAt bytes i % 128 * 128 ^ i

/-- A number of `n` bytes stands at the head of the list: it is all there, and of its bytes the last
is the only one without the bit that announces another. -/
structure Stands (bytes : List UInt8) (n : Nat) : Prop where
  positive : 1 ≤ n
  present : n ≤ bytes.length
  continued : ∀ i, i + 1 < n → 128 ≤ byteAt bytes i
  ended : byteAt bytes (n - 1) < 128

@[simp] theorem byteAt_cons_zero : byteAt (byte :: rest) 0 = byte.toNat := rfl

@[simp] theorem byteAt_cons_succ (i : Nat) : byteAt (byte :: rest) (i + 1) = byteAt rest i := rfl

/-- The first byte is the lowest digit. -/
theorem digits_cons_succ (n : Nat) :
    digits (byte :: rest) (n + 1) = byte.toNat % 128 + 128 * digits rest n := by
  unfold digits
  rw [Finset.sum_range_succ', Finset.mul_sum, Nat.add_comm]
  congr 1
  · simp
  · refine Finset.sum_congr rfl fun i _ => ?_
    rw [byteAt_cons_succ, pow_succ]
    ac_rfl

theorem digits_cons_one : digits (byte :: rest) 1 = byte.toNat % 128 := by
  rw [digits_cons_succ, digits, Finset.range_zero, Finset.sum_empty, Nat.mul_zero, Nat.add_zero]

/-! ### The first byte and the others -/

theorem not_stands_nil : ¬Stands [] n := by
  intro stands
  have some := stands.positive
  have none : n ≤ 0 := stands.present
  omega

theorem stands_cons_of_last (last : byte.toNat < 128) : Stands (byte :: rest) n ↔ n = 1 := by
  constructor
  · intro stands
    -- were there a second byte, the first would have to announce it
    have positive := stands.positive
    have first := stands.continued 0
    rw [byteAt_cons_zero] at first
    omega
  · rintro rfl
    exact ⟨Nat.le_refl 1, by simp, by omega, last⟩

/-- A byte that announces another is not the last one. -/
theorem Stands.two_le (stands : Stands (byte :: rest) n) (more : 128 ≤ byte.toNat) : 2 ≤ n := by
  have positive := stands.positive
  have ended := stands.ended
  rcases Nat.lt_or_ge n 2 with single | several
  · obtain rfl : n = 1 := by omega
    rw [Nat.sub_self, byteAt_cons_zero] at ended
    omega
  · exact several

theorem stands_cons_of_more (more : 128 ≤ byte.toNat) :
    Stands (byte :: rest) n ↔ ∃ m, n = m + 1 ∧ Stands rest m := by
  constructor
  · intro stands
    obtain ⟨m, rfl⟩ := Nat.exists_eq_add_of_le' (stands.two_le more)
    obtain ⟨-, present, continued, ended⟩ := stands
    refine ⟨m + 1, rfl, by omega, by simpa using present, fun i inside => ?_, ended⟩
    exact continued (i + 1) (by omega)
  · rintro ⟨m, rfl, positive, present, continued, ended⟩
    obtain ⟨m, rfl⟩ := Nat.exists_eq_add_one_of_ne_zero (Nat.ne_of_gt positive)
    refine ⟨by omega, by simpa using present, fun i inside => ?_, ended⟩
    cases i with
    | zero => exact more
    | succ i => exact continued i (by omega)

/-! ### Decoding -/

private theorem shift_more (k : Nat) : 1 <<< (7 + k) = 128 * 1 <<< k := by
  rw [Nat.shiftLeft_eq, Nat.shiftLeft_eq, Nat.pow_add]
  omega

/-- In `room + 1` bytes an unsigned number may have seven bits for each byte but the last of them,
and four more. -/
theorem unsignedFrom_ok_iff : unsignedFrom (room + 1) bytes = .ok (v, n) ↔
    Stands bytes n ∧ n ≤ room + 1 ∧ v = digits bytes n ∧ v < 1 <<< (7 * room + 4) := by
  induction room generalizing bytes v n with
  | zero =>
    cases bytes with
    | nil => simp [unsignedFrom, not_stands_nil]
    | cons byte rest =>
      rcases Nat.lt_or_ge byte.toNat 128 with last | more
      · -- the only byte: its four low bits are the number, and the others must not be set
        rw [stands_cons_of_last last]
        have low := Nat.mod_eq_of_lt last
        by_cases small : byte.toNat ≤ 0x0F
        · rw [unsignedFrom, if_neg (by omega), if_pos last, Except.ok.injEq, Prod.mk.injEq]
          constructor
          · rintro ⟨rfl, rfl⟩
            exact ⟨rfl, Nat.le_refl 1, digits_cons_one.symm, by omega⟩
          · rintro ⟨rfl, -, rfl, -⟩
            exact ⟨digits_cons_one.symm, rfl⟩
        · rw [unsignedFrom, if_pos (by omega)]
          refine iff_of_false (by simp) ?_
          rintro ⟨rfl, -, rfl, bound⟩
          rw [digits_cons_one] at bound
          omega
      · -- another byte is announced for which there is no room
        refine iff_of_false ?_ ?_
        · rw [unsignedFrom]
          split
          · simp
          · rw [if_neg (by omega), unsignedFrom]
            simp
        · rintro ⟨stands, short, -⟩
          have several := stands.two_le more
          omega
  | succ room ih =>
    cases bytes with
    | nil => simp [unsignedFrom, not_stands_nil]
    | cons byte rest =>
      have wider : 1 <<< (7 * (room + 1) + 4) = 128 * 1 <<< (7 * room + 4) := by
        rw [← shift_more]
        congr 1
        omega
      rw [unsignedFrom, if_neg (by omega)]
      rcases Nat.lt_or_ge byte.toNat 128 with last | more
      · rw [stands_cons_of_last last, if_pos last, Except.ok.injEq, Prod.mk.injEq]
        have enough : 0 < 1 <<< (7 * room + 4) := by
          rw [Nat.shiftLeft_eq, Nat.one_mul]
          exact Nat.two_pow_pos _
        constructor
        · rintro ⟨rfl, rfl⟩
          exact ⟨rfl, by omega, digits_cons_one.symm, by omega⟩
        · rintro ⟨rfl, -, rfl, -⟩
          exact ⟨digits_cons_one.symm, rfl⟩
      · -- the number behind the first byte has one byte less, and its digits weigh 128 times as much
        rw [stands_cons_of_more more, if_neg (by omega)]
        constructor
        · intro read
          cases found : unsignedFrom (room + 1) rest with
          | error cause =>
            rw [found] at read
            cases read
          | ok high =>
            rw [found] at read
            cases read
            obtain ⟨stands, short, value, bound⟩ := ih.mp found
            exact ⟨⟨_, rfl, stands⟩, by omega, by rw [digits_cons_succ, value], by omega⟩
        · rintro ⟨⟨m, rfl, stands⟩, short, rfl, bound⟩
          rw [digits_cons_succ] at bound ⊢
          have found := ih.mpr ⟨stands, by omega, rfl, by omega⟩
          rw [found]

/-- A lower digit is added to the signed number of an even range as to any other. -/
private theorem bmod_digit {low : Nat} (small : low < 128) (high half : Nat) :
    Int.bmod (low + 128 * high : Nat) (128 * (2 * half)) =
      low + 128 * Int.bmod high (2 * half) := by
  have modulo : (low + 128 * high) % (128 * (2 * half)) = low + 128 * (high % (2 * half)) := by
    rw [Nat.mod_mul, Nat.add_mul_mod_self_left, Nat.mod_eq_of_lt small,
      Nat.add_mul_div_left _ _ (by decide), Nat.div_eq_of_lt small, Nat.zero_add]
  simp only [Int.bmod, ← Int.natCast_emod, modulo]
  -- which half of the range a number is in does not depend on its lowest digit
  split <;> split <;> omega

/-- In `room + 1` bytes a signed number has seven bits for each byte, but only four for the last of
them. -/
theorem signedFrom_ok_iff {i : Int} : signedFrom (room + 1) bytes = .ok (i, n) ↔
    Stands bytes n ∧ n ≤ room + 1 ∧
      i = Int.bmod (digits bytes n) (1 <<< min (7 * n) (7 * room + 4)) := by
  induction room generalizing bytes i n with
  | zero =>
    cases bytes with
    | nil => simp [signedFrom, not_stands_nil]
    | cons byte rest =>
      rcases Nat.lt_or_ge byte.toNat 128 with last | more
      · rw [stands_cons_of_last last, signedFrom, if_pos last, Except.ok.injEq, Prod.mk.injEq,
          if_pos rfl]
        constructor
        · rintro ⟨rfl, rfl⟩
          exact ⟨rfl, Nat.le_refl 1, by rw [digits_cons_one]; rfl⟩
        · rintro ⟨rfl, -, rfl⟩
          exact ⟨by rw [digits_cons_one]; rfl, rfl⟩
      · refine iff_of_false ?_ ?_
        · rw [signedFrom, if_neg (by omega), signedFrom]
          simp
        · rintro ⟨stands, short, -⟩
          have several := stands.two_le more
          omega
  | succ room ih =>
    cases bytes with
    | nil => simp [signedFrom, not_stands_nil]
    | cons byte rest =>
      rcases Nat.lt_or_ge byte.toNat 128 with last | more
      · rw [stands_cons_of_last last, signedFrom, if_pos last, Except.ok.injEq, Prod.mk.injEq,
          if_neg (Nat.succ_ne_zero room)]
        have width : min (7 * 1) (7 * (room + 1) + 4) = 7 := by omega
        constructor
        · rintro ⟨rfl, rfl⟩
          exact ⟨rfl, by omega, by rw [digits_cons_one, width]; rfl⟩
        · rintro ⟨rfl, -, rfl⟩
          exact ⟨by rw [digits_cons_one, width]; rfl, rfl⟩
      · rw [stands_cons_of_more more, signedFrom, if_neg (by omega)]
        have value (m : Nat) (positive : 1 ≤ m) :
            Int.bmod (digits (byte :: rest) (m + 1))
              (1 <<< min (7 * (m + 1)) (7 * (room + 1) + 4)) =
            ((byte.toNat % 128 : Nat) : Int) +
              (128 : Int) * Int.bmod (digits rest m) (1 <<< min (7 * m) (7 * room + 4)) := by
          obtain ⟨k, width⟩ : ∃ k, min (7 * m) (7 * room + 4) = k + 1 :=
            Nat.exists_eq_add_one_of_ne_zero (by omega)
          have wider : min (7 * (m + 1)) (7 * (room + 1) + 4) = 7 + (k + 1) := by omega
          have even : 1 <<< (k + 1) = 2 * 1 <<< k := by
            rw [Nat.shiftLeft_eq, Nat.shiftLeft_eq, Nat.pow_succ]
            omega
          rw [width, wider, shift_more, even, digits_cons_succ,
            bmod_digit (Nat.mod_lt _ (by decide))]
        constructor
        · intro read
          cases found : signedFrom (room + 1) rest with
          | error cause =>
            rw [found] at read
            cases read
          | ok high =>
            rw [found] at read
            cases read
            obtain ⟨stands, short, number⟩ := ih.mp found
            exact ⟨⟨_, rfl, stands⟩, by omega, by rw [value _ stands.positive, number]⟩
        · rintro ⟨⟨m, rfl, stands⟩, short, rfl⟩
          have found := ih.mpr ⟨stands, by omega, rfl⟩
          rw [value _ stands.positive, found]

theorem lessOne_ok_iff {i : Int} : lessOne bytes = .ok (i, n) ↔
    ∃ v, unsigned bytes = .ok (v, n) ∧ i = Int.bmod (v - 1) UInt32.size := by
  unfold lessOne
  cases unsigned bytes with
  | error cause => simp
  | ok result =>
    obtain ⟨v, used⟩ := result
    simp only [Except.ok.injEq, Prod.mk.injEq]
    constructor
    · rintro ⟨rfl, rfl⟩
      exact ⟨v, ⟨rfl, rfl⟩, rfl⟩
    · rintro ⟨_, ⟨rfl, rfl⟩, rfl⟩
      exact ⟨rfl, rfl⟩

/-! ### Only the bytes of the number -/

theorem byteAt_of_take (same : other.take n = bytes.take n) {i : Nat} (inside : i < n) :
    byteAt other i = byteAt bytes i := by
  have entry := congrArg (fun list => list[i]?) same
  simp only [List.getElem?_take_of_lt inside] at entry
  rw [byteAt, byteAt, entry]

theorem digits_of_take (same : other.take n = bytes.take n) : digits other n = digits bytes n := by
  refine Finset.sum_congr rfl fun i inside => ?_
  rw [byteAt_of_take same (Finset.mem_range.mp inside)]

theorem Stands.of_take (stands : Stands bytes n) (same : other.take n = bytes.take n) :
    Stands other n := by
  have positive := stands.positive
  have present := stands.present
  have lengths := congrArg List.length same
  rw [List.length_take, List.length_take] at lengths
  constructor
  · exact positive
  · omega
  · intro i inside
    rw [byteAt_of_take same (by omega)]
    exact stands.continued i inside
  · rw [byteAt_of_take same (by omega)]
    exact stands.ended

/-- What the decoder returns is made of at least one byte at the head of the list, and of no others
than those that it has counted. -/
def Heads {α : Type} (decode : List UInt8 → Except Cause (α × Nat)) : Prop :=
  ∀ ⦃bytes a n⦄, decode bytes = .ok (a, n) →
    1 ≤ n ∧ n ≤ bytes.length ∧ ∀ other, other.take n = bytes.take n → decode other = .ok (a, n)

theorem heads_unsigned : Heads unsigned := by
  intro bytes v n read
  obtain ⟨stands, short, value, bound⟩ := unsignedFrom_ok_iff.mp read
  refine ⟨stands.positive, stands.present, fun other same => unsignedFrom_ok_iff.mpr ?_⟩
  exact ⟨stands.of_take same, short, by rw [digits_of_take same, value], bound⟩

theorem heads_signed : Heads signed := by
  intro bytes i n read
  obtain ⟨stands, short, value⟩ := signedFrom_ok_iff.mp read
  refine ⟨stands.positive, stands.present, fun other same => signedFrom_ok_iff.mpr ?_⟩
  exact ⟨stands.of_take same, short, by rw [digits_of_take same, value]⟩

theorem heads_lessOne : Heads lessOne := by
  intro bytes i n read
  obtain ⟨v, stored, value⟩ := lessOne_ok_iff.mp read
  obtain ⟨positive, present, alike⟩ := heads_unsigned stored
  exact ⟨positive, present, fun other same => lessOne_ok_iff.mpr ⟨v, alike other same, value⟩⟩

/-! ### Unsigned numbers -/

/-- No number takes fewer bytes than its encoding. -/
theorem length_encode_le (stands : Stands bytes n) : (encode (digits bytes n)).length ≤ n := by
  induction bytes generalizing n with
  | nil => exact absurd stands not_stands_nil
  | cons byte rest ih =>
    rw [encode]
    split
    next => exact stands.positive
    next large =>
      -- a digit that is not the only one leaves the others for the rest of the encoding
      rcases Nat.lt_or_ge byte.toNat 128 with last | more
      · obtain rfl := (stands_cons_of_last last).mp stands
        rw [digits_cons_one] at large
        omega
      · obtain ⟨m, rfl, others⟩ := (stands_cons_of_more more).mp stands
        have higher : digits (byte :: rest) (m + 1) / 128 = digits rest m := by
          rw [digits_cons_succ]
          omega
        have shorter := ih others
        rw [higher, List.length_cons]
        omega

theorem unsigned_ok_iff : unsigned bytes = .ok (v, n) ↔
    Stands bytes n ∧ n ≤ 5 ∧ v = digits bytes n ∧ v < 0x100000000 :=
  unsignedFrom_ok_iff

theorem unsigned_error_of_ok_ne (refused : ∀ v n, unsigned bytes ≠ .ok (v, n)) :
    ∃ cause, unsigned bytes = .error cause ∧ lessOne bytes = .error cause ∧
      cause.kind = .malformed := by
  cases failed : unsigned bytes with
  | ok result => exact absurd failed (refused result.1 result.2)
  | error cause =>
    exact ⟨cause, rfl, by rw [lessOne, failed], Reader.Raises.unsignedFrom_error failed⟩

/-- Unsigned numbers are decoded exactly. What is accepted is a number of at most five bytes and 32
bits, as its digits say, or one less than that where the number is stored one higher; any other bytes
are malformed. The encoding of a number is read back whatever follows it, and no other bytes that are
read as this number are fewer. -/
theorem unsigned_exact (bytes : List UInt8) :
    (∀ v n, unsigned bytes = .ok (v, n) ↔
      Stands bytes n ∧ n ≤ 5 ∧ v = digits bytes n ∧ v < 0x100000000) ∧
    (∀ i n, lessOne bytes = .ok (i, n) ↔
      Stands bytes n ∧ n ≤ 5 ∧ digits bytes n < 0x100000000 ∧
        i = (Int32.ofInt (digits bytes n - 1)).toInt) ∧
    ((∀ n, Stands bytes n → n ≤ 5 → 0x100000000 ≤ digits bytes n) →
      ∃ cause, unsigned bytes = .error cause ∧ lessOne bytes = .error cause ∧
        cause.kind = .malformed) ∧
    (∀ v < 0x100000000, unsigned (encode v ++ bytes) = .ok (v, (encode v).length)) ∧
    (∀ v n, unsigned bytes = .ok (v, n) → (encode v).length ≤ n) := by
  refine ⟨fun v n => unsigned_ok_iff, ?_, ?_, ?_, ?_⟩
  · intro i n
    rw [lessOne_ok_iff]
    constructor
    · rintro ⟨v, read, rfl⟩
      obtain ⟨stands, short, rfl, bound⟩ := unsigned_ok_iff.mp read
      exact ⟨stands, short, bound, Int32.toInt_ofInt.symm⟩
    · rintro ⟨stands, short, bound, rfl⟩
      exact ⟨_, unsigned_ok_iff.mpr ⟨stands, short, rfl, bound⟩, Int32.toInt_ofInt⟩
  · intro large
    refine unsigned_error_of_ok_ne fun v n read => ?_
    obtain ⟨stands, short, rfl, bound⟩ := unsigned_ok_iff.mp read
    exact absurd bound (Nat.not_lt.mpr (large n stands short))
  · intro v small
    exact (@unsignedFrom_encode 4 v small bytes).1
  · intro v n read
    obtain ⟨stands, -, rfl, -⟩ := unsigned_ok_iff.mp read
    exact length_encode_le stands

/-! ### Signed numbers -/

/-- The first `n` bytes as a number in two's complement: the highest bit of the last digit counts
against all others. -/
def twosComplement (bytes : List UInt8) (n : Nat) : Int :=
  digits bytes n - if (byteAt bytes (n - 1)).testBit 6 then ((128 ^ n : Nat) : Int) else 0

theorem digits_succ (bytes : List UInt8) (m : Nat) :
    digits bytes (m + 1) = digits bytes m + byteAt bytes m % 128 * 128 ^ m :=
  Finset.sum_range_succ _ m

theorem digits_lt (bytes : List UInt8) (n : Nat) : digits bytes n < 128 ^ n := by
  induction n with
  | zero => simp [digits]
  | succ m ih =>
    have top : byteAt bytes m % 128 * 128 ^ m ≤ 127 * 128 ^ m :=
      Nat.mul_le_mul_right _ (Nat.le_of_lt_succ (Nat.mod_lt _ (by decide)))
    rw [digits_succ, Nat.pow_succ]
    omega

/-- The sign is the highest bit of the last digit. -/
private theorem testBit_six (k : Nat) : k.testBit 6 = decide (64 ≤ k % 128) := by
  rw [Nat.testBit_eq_decide_div_mod_eq]
  exact decide_eq_decide.mpr (by omega)

/-- With `m + 1` bytes a number has the range of `7 * m + 7` bits. -/
theorem twosComplement_range (bytes : List UInt8) (m : Nat) :
    -((64 * 128 ^ m : Nat) : Int) ≤ twosComplement bytes (m + 1) ∧
      twosComplement bytes (m + 1) < ((64 * 128 ^ m : Nat) : Int) := by
  have lower := digits_lt bytes m
  have top : byteAt bytes m % 128 < 128 := Nat.mod_lt _ (by decide)
  rw [twosComplement, digits_succ, Nat.add_sub_cancel, testBit_six, Nat.pow_succ]
  generalize byteAt bytes m % 128 = digit at top ⊢
  by_cases negative : 64 ≤ digit
  · have least : 64 * 128 ^ m ≤ digit * 128 ^ m := Nat.mul_le_mul_right _ negative
    have most : digit * 128 ^ m ≤ 127 * 128 ^ m := Nat.mul_le_mul_right _ (by omega)
    rw [if_pos (decide_eq_true negative)]
    omega
  · have most : digit * 128 ^ m ≤ 63 * 128 ^ m := Nat.mul_le_mul_right _ (by omega)
    rw [if_neg (by simpa using negative)]
    omega

/-- In all the bits of its bytes, or in fewer, a number does not depend on how its sign counts. -/
theorem bmod_twosComplement {width : Nat} (divides : width ∣ 128 ^ n) :
    Int.bmod (twosComplement bytes n) width = Int.bmod (digits bytes n) width := by
  obtain ⟨factor, same⟩ := divides
  rw [twosComplement, same]
  split
  · have multiple : (digits bytes n : Int) - ((width * factor : Nat) : Int) =
        digits bytes n + width * (-factor) := by
      rw [Int.natCast_mul, Int.mul_neg, Int.sub_eq_add_neg]
    rw [multiple, Int.add_mul_bmod_self_left]
  · rw [Int.sub_zero]

/-- Four bytes do not fill 32 bits. -/
theorem twosComplement_fits (bytes : List UInt8) {m : Nat} (short : m ≤ 3) :
    -0x80000000 ≤ twosComplement bytes (m + 1) ∧ twosComplement bytes (m + 1) < 0x80000000 := by
  have range := twosComplement_range bytes m
  have less : 128 ^ m ≤ 128 ^ 3 := Nat.pow_le_pow_right (by decide) short
  omega

theorem signed_ok_iff {i : Int} : signed bytes = .ok (i, n) ↔
    Stands bytes n ∧ n ≤ 5 ∧ i = (Int32.ofInt (twosComplement bytes n)).toInt := by
  have found : signed bytes = .ok (i, n) ↔ Stands bytes n ∧ n ≤ 5 ∧
      i = Int.bmod (digits bytes n) (1 <<< min (7 * n) 32) := signedFrom_ok_iff
  rw [found]
  refine and_congr_right fun stands => and_congr_right fun short => ?_
  obtain ⟨m, rfl⟩ := Nat.exists_eq_add_one_of_ne_zero (Nat.ne_of_gt stands.positive)
  suffices value : Int.bmod (digits bytes (m + 1)) (1 <<< min (7 * (m + 1)) 32) =
      (Int32.ofInt (twosComplement bytes (m + 1))).toInt by rw [value]
  rcases Nat.lt_or_ge 3 m with long | short
  · -- of a fifth byte only four bits are in the number, so the sign has no bit of its own
    obtain rfl : m = 4 := by omega
    rw [Int32.toInt_ofInt]
    exact (bmod_twosComplement (by decide)).symm
  · -- all bits are in the number, and they are not as many as 32
    have width : 1 <<< min (7 * (m + 1)) 32 = 128 ^ (m + 1) := by
      rw [Nat.min_eq_left (by omega), Nat.shiftLeft_eq, Nat.one_mul, Nat.pow_mul]
    obtain ⟨low, high⟩ := twosComplement_fits bytes short
    have range := twosComplement_range bytes m
    rw [width, ← bmod_twosComplement (Nat.dvd_refl _), Int32.toInt_ofInt_of_le low high,
      Nat.pow_succ]
    exact Int.bmod_eq_of_le (by omega) (by omega)

/-- In `m + 1` bytes there is place for all numbers of their range. -/
theorem length_encodeSigned_le {m : Nat} {i : Int} (low : -((64 * 128 ^ m : Nat) : Int) ≤ i)
    (high : i < ((64 * 128 ^ m : Nat) : Int)) : (encodeSigned i).length ≤ m + 1 := by
  induction m generalizing i with
  | zero =>
    rw [encodeSigned, if_pos (by omega), List.length_singleton]
  | succ m ih =>
    rw [encodeSigned]
    split
    next => simp
    next =>
      rw [Nat.pow_succ] at low high
      rw [List.length_cons]
      exact Nat.succ_le_succ (ih (by omega) (by omega))

/-- No bytes that are read as a number are fewer than those of its encoding. -/
theorem length_encodeSigned_le_of_signed {i : Int} (read : signed bytes = .ok (i, n)) :
    (encodeSigned i).length ≤ n := by
  obtain ⟨stands, short, rfl⟩ := signed_ok_iff.mp read
  obtain ⟨m, rfl⟩ := Nat.exists_eq_add_one_of_ne_zero (Nat.ne_of_gt stands.positive)
  rcases Nat.lt_or_ge 3 m with long | short
  · -- five bytes are enough for every number of 32 bits
    obtain rfl : m = 4 := by omega
    have low := (Int32.ofInt (twosComplement bytes (4 + 1))).le_toInt
    have high := (Int32.ofInt (twosComplement bytes (4 + 1))).toInt_lt
    exact length_encodeSigned_le (by omega) (by omega)
  · obtain ⟨low, high⟩ := twosComplement_fits bytes short
    rw [Int32.toInt_ofInt_of_le low high]
    obtain ⟨low, high⟩ := twosComplement_range bytes m
    exact length_encodeSigned_le low high

/-- Signed numbers are decoded as numbers of 32 bits in two's complement. What is accepted is a
number of at most five bytes, cut down to 32 bits, which changes nothing where it fits; any other
bytes are malformed. The encoding of a number of 32 bits is read back whatever follows it, and no
other bytes that are read as this number are fewer. -/
theorem signed_exact (bytes : List UInt8) :
    (∀ i n, signed bytes = .ok (i, n) ↔
      Stands bytes n ∧ n ≤ 5 ∧ i = (Int32.ofInt (twosComplement bytes n)).toInt) ∧
    (∀ i n, signed bytes = .ok (i, n) → -0x80000000 ≤ twosComplement bytes n →
      twosComplement bytes n < 0x80000000 → i = twosComplement bytes n) ∧
    ((∀ n, Stands bytes n → 5 < n) →
      ∃ cause, signed bytes = .error cause ∧ cause.kind = .malformed) ∧
    (∀ i : Int32, signed (encodeSigned i.toInt ++ bytes) =
      .ok (i.toInt, (encodeSigned i.toInt).length)) ∧
    (∀ i n, signed bytes = .ok (i, n) → (encodeSigned i).length ≤ n) := by
  refine ⟨fun i n => signed_ok_iff, ?_, ?_, ?_, fun i n => length_encodeSigned_le_of_signed⟩
  · intro i n read low high
    obtain ⟨-, -, rfl⟩ := signed_ok_iff.mp read
    exact Int32.toInt_ofInt_of_le low high
  · intro long
    cases failed : signed bytes with
    | ok result =>
      obtain ⟨stands, short, -⟩ := signed_ok_iff.mp failed
      exact absurd short (Nat.not_le_of_lt (long _ stands))
    | error cause => exact ⟨cause, rfl, Reader.Raises.signedFrom_error failed⟩
  · intro i
    exact (@signedFrom_encodeSigned 4 i.toInt i.le_toInt i.toInt_lt bytes).1

/-- Of a fifth byte four bits count, so the lowest number has more forms than its encoding. -/
example : signed [0x80, 0x80, 0x80, 0x80, 0x78] = .ok (-0x80000000, 5) ∧
    signed [0x80, 0x80, 0x80, 0x80, 0x08] = .ok (-0x80000000, 5) := by decide

end DexAtlas.Leb128
