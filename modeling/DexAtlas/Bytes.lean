/-! Byte buffers and fixed-width numbers, least significant byte first. -/
namespace DexAtlas

abbrev Bytes := Array UInt8

namespace Bytes

/-- The number whose bytes are given. -/
def ofLittleEndian : List UInt8 → Nat
  | [] => 0
  | byte :: rest => byte.toNat + 256 * ofLittleEndian rest

/-- The lowest `width` bytes of a number. -/
def toLittleEndian : Nat → Nat → List UInt8
  | 0, _ => []
  | width + 1, n => UInt8.ofNat n :: toLittleEndian width (n / 256)

/-- The bytes from `start`, at most `count` of them. -/
def window (bytes : Bytes) (start count : Nat) : List UInt8 :=
  (bytes.extract start (start + count)).toList

/-- Pairs of bytes as 16-bit units; a byte left over is dropped. -/
def units : List UInt8 → List UInt16
  | low :: high :: rest => UInt16.ofNat (low.toNat + 256 * high.toNat) :: units rest
  | _ => []

/-- The first zero byte from `start` on. -/
def zeroFrom? (bytes : Bytes) (start : Nat) : Option Nat :=
  search (bytes.size - start) start
where
  search : Nat → Nat → Option Nat
    | 0, _ => none
    | left + 1, pos => if bytes[pos]? = some 0 then some pos else search left (pos + 1)

@[simp] theorem length_toLittleEndian (width n : Nat) :
    (toLittleEndian width n).length = width := by
  induction width generalizing n with
  | zero => rfl
  | succ width ih => simp [toLittleEndian, ih]

theorem ofLittleEndian_toLittleEndian (width n : Nat) :
    ofLittleEndian (toLittleEndian width n) = n % 1 <<< (8 * width) := by
  induction width generalizing n with
  | zero => simp [toLittleEndian, ofLittleEndian, Nat.mod_one]
  | succ width ih =>
    have wider : 1 <<< (8 * (width + 1)) = 256 * 1 <<< (8 * width) := by
      rw [Nat.shiftLeft_eq, Nat.shiftLeft_eq, Nat.mul_succ, Nat.pow_add]
      omega
    simp only [toLittleEndian, ofLittleEndian, ih, UInt8.toNat_ofNat']
    rw [wider, Nat.mod_mul]

theorem ofLittleEndian_lt (bytes : List UInt8) :
    ofLittleEndian bytes < 1 <<< (8 * bytes.length) := by
  induction bytes with
  | nil => simp [ofLittleEndian]
  | cons byte rest ih =>
    have small := byte.toNat_lt
    rw [Nat.shiftLeft_eq] at ih
    rw [ofLittleEndian, List.length_cons, Nat.shiftLeft_eq, Nat.mul_succ, Nat.pow_add]
    omega

end Bytes

end DexAtlas
