/-!
UTF-16: text as 16-bit units. A surrogate that has no partner stands for no character and is
shown as the replacement character.
-/
namespace DexAtlas.Text.Utf16

def replacement : Char := '�'

def isHigh (unit : UInt16) : Bool :=
  decide (0xD800 ≤ unit.toNat ∧ unit.toNat < 0xDC00)

def isLow (unit : UInt16) : Bool :=
  decide (0xDC00 ≤ unit.toNat ∧ unit.toNat < 0xE000)

/-- The character that a high and a low surrogate make together. -/
def pair (high low : UInt16) : Char :=
  Char.ofNat (0x10000 + (high.toNat - 0xD800) * 0x400 + (low.toNat - 0xDC00))

/-- A unit on its own. -/
def single (unit : UInt16) : Char :=
  if isHigh unit || isLow unit then replacement else Char.ofNat unit.toNat

/-- The text of a list of units: surrogates are paired from the left. -/
def decode : List UInt16 → List Char
  | [] => []
  | [unit] => [single unit]
  | unit :: next :: rest =>
    if isHigh unit && isLow next then pair unit next :: decode rest
    else single unit :: decode (next :: rest)

/-- The units of a character. -/
def encodeChar (c : Char) : List UInt16 :=
  if c.toNat < 0x10000 then [UInt16.ofNat c.toNat]
  else
    let rest := c.toNat - 0x10000
    [UInt16.ofNat (0xD800 + rest / 0x400), UInt16.ofNat (0xDC00 + rest % 0x400)]

/-- The units of a text. -/
def encode (text : List Char) : List UInt16 :=
  text.flatMap encodeChar

/-- How many units a character takes. -/
def width (c : Char) : Nat :=
  if c.toNat < 0x10000 then 1 else 2

/-- How many units a text takes. -/
def length (text : List Char) : Nat :=
  text.foldr (fun c units => width c + units) 0

end DexAtlas.Text.Utf16
