import DexAtlas.Bytes

/-!
The 32-bit cyclic redundancy check of archive content: the remainder of the content, taken as a
polynomial over two elements with the lowest bit first, with all bits of the start value and of the
result flipped.
-/
namespace DexAtlas.Crc32

/-- One step of the division. -/
def shift (remainder : UInt32) : UInt32 :=
  if remainder &&& 1 = 1 then (remainder >>> 1) ^^^ 0xEDB88320 else remainder >>> 1

/-- The remainder after one more byte. -/
def add (remainder : UInt32) (byte : UInt8) : UInt32 :=
  Nat.repeat shift 8 (remainder ^^^ byte.toUInt32)

def sum (bytes : Bytes) : UInt32 :=
  bytes.foldl add 0xFFFFFFFF ^^^ 0xFFFFFFFF

end DexAtlas.Crc32
