/-!
How an instruction is laid out in 16-bit code units. The digits of a fixed format give its width
in units and its number of registers, the letter the kind of its last operand. The three payload
formats hold tables of their own length.
-/
namespace DexAtlas

inductive Format where
  | f10t
  | f10x
  | f11n
  | f11x
  | f12x
  | f20t
  | f21c
  | f21ih
  | f21lh
  | f21s
  | f21t
  | f22b
  | f22c
  | f22s
  | f22t
  | f22x
  | f23x
  | f30t
  | f31c
  | f31i
  | f31t
  | f32x
  | f35c
  | f3rc
  | f45cc
  | f4rcc
  | f51l
  | arrayPayload
  | packedSwitchPayload
  | sparseSwitchPayload
  deriving DecidableEq, Repr

namespace Format

def label : Format → String
  | .f10t => "Format10t"
  | .f10x => "Format10x"
  | .f11n => "Format11n"
  | .f11x => "Format11x"
  | .f12x => "Format12x"
  | .f20t => "Format20t"
  | .f21c => "Format21c"
  | .f21ih => "Format21ih"
  | .f21lh => "Format21lh"
  | .f21s => "Format21s"
  | .f21t => "Format21t"
  | .f22b => "Format22b"
  | .f22c => "Format22c"
  | .f22s => "Format22s"
  | .f22t => "Format22t"
  | .f22x => "Format22x"
  | .f23x => "Format23x"
  | .f30t => "Format30t"
  | .f31c => "Format31c"
  | .f31i => "Format31i"
  | .f31t => "Format31t"
  | .f32x => "Format32x"
  | .f35c => "Format35c"
  | .f3rc => "Format3rc"
  | .f45cc => "Format45cc"
  | .f4rcc => "Format4rcc"
  | .f51l => "Format51l"
  | .arrayPayload => "ArrayPayload"
  | .packedSwitchPayload => "PackedSwitchPayload"
  | .sparseSwitchPayload => "SparseSwitchPayload"

/-- The width in code units; a payload has none fixed. -/
def width? : Format → Option Nat
  | .f10t | .f10x | .f11n | .f11x | .f12x => some 1
  | .f20t | .f21c | .f21ih | .f21lh | .f21s | .f21t | .f22b | .f22c | .f22s | .f22t | .f22x
  | .f23x => some 2
  | .f30t | .f31c | .f31i | .f31t | .f32x | .f35c | .f3rc => some 3
  | .f45cc | .f4rcc => some 4
  | .f51l => some 5
  | .arrayPayload | .packedSwitchPayload | .sparseSwitchPayload => none

def isPayload (format : Format) : Bool :=
  format.width?.isNone

end Format

end DexAtlas
