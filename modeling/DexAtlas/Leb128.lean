import DexAtlas.Error

/-!
Variable-length numbers of at most 32 bits: seven bits a byte, lowest first, the high bit set on
every byte but the last. At most five bytes are read, and of a fifth byte only the low four bits
belong to the number. An unsigned number may not use the others; a signed one drops them.
-/
namespace DexAtlas.Leb128

/-- The most bytes that a number may take. -/
def maxBytes : Nat := 5

/-- Reads with `room` bytes left: the number and how many bytes it took. -/
def unsignedFrom : Nat → List UInt8 → Except Cause (Nat × Nat)
  | 0, _ => .error (.lebTooLong .unsigned)
  | _ + 1, [] => .error (.lebEnd .unsigned)
  | room + 1, byte :: rest =>
    let low := byte.toNat % 128
    if room = 0 ∧ 0x0F < low then .error .lebOverflow
    else if byte.toNat < 128 then .ok (low, 1)
    else
      match unsignedFrom room rest with
      | .ok (high, used) => .ok (low + 128 * high, used + 1)
      | .error cause => .error cause

/-- Reads with `room` bytes left. The last byte holds the sign in its highest bit, which in a
fifth byte is the fourth bit. -/
def signedFrom : Nat → List UInt8 → Except Cause (Int × Nat)
  | 0, _ => .error (.lebTooLong .signed)
  | _ + 1, [] => .error (.lebEnd .signed)
  | room + 1, byte :: rest =>
    let low := byte.toNat % 128
    if byte.toNat < 128 then .ok (Int.bmod low (if room = 0 then 16 else 128), 1)
    else
      match signedFrom room rest with
      | .ok (high, used) => .ok (low + 128 * high, used + 1)
      | .error cause => .error cause

/-- The unsigned number at the head of `bytes`, with its length. -/
def unsigned (bytes : List UInt8) : Except Cause (Nat × Nat) :=
  unsignedFrom maxBytes bytes

/-- The signed number at the head of `bytes`, with its length. -/
def signed (bytes : List UInt8) : Except Cause (Int × Nat) :=
  signedFrom maxBytes bytes

/-- A number stored one higher than it is, so that `-1` takes one byte; it has 32 bits and a
sign. -/
def lessOne (bytes : List UInt8) : Except Cause (Int × Nat) :=
  match unsigned bytes with
  | .ok (value, used) => .ok (Int.bmod (value - 1) UInt32.size, used)
  | .error cause => .error cause

/-- The shortest encoding of a natural number. -/
def encode (n : Nat) : List UInt8 :=
  if n < 128 then [UInt8.ofNat n] else UInt8.ofNat (n % 128 + 128) :: encode (n / 128)

/-- The shortest signed encoding of a whole number. -/
def encodeSigned (i : Int) : List UInt8 :=
  if -64 ≤ i ∧ i < 64 then [UInt8.ofNat (i % 128).toNat]
  else UInt8.ofNat ((i % 128).toNat + 128) :: encodeSigned (i / 128)
termination_by i.natAbs
decreasing_by omega

end DexAtlas.Leb128
