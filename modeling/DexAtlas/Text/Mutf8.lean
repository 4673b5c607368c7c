import DexAtlas.Text.Utf16

/-!
Modified UTF-8, the form of string data. Each UTF-16 unit is written alone in one, two or three
bytes, and a zero unit in two, so that a zero byte can end the text.

Reading goes by two routes. The strict one takes plain UTF-8 as it stands, four-byte forms
included, or else the modified form with every surrogate in its pair. The lenient one takes unit
by unit, lets surrogates stand alone, and does not ask for the shortest form; it is tried when
the strict one refuses.
-/
namespace DexAtlas.Text.Mutf8

/-! ## Byte classes -/

def within (low high : Nat) (byte : UInt8) : Bool :=
  decide (low ≤ byte.toNat ∧ byte.toNat ≤ high)

/-- A byte that continues a character. -/
def isTail (byte : UInt8) : Bool := within 0x80 0xBF byte

def isPair (a b : UInt8) : Bool := within 0xC2 0xDF a && isTail b

/-- Three bytes that spell a character other than a surrogate, in its shortest form. -/
def isTriple (a b c : UInt8) : Bool :=
  isTail c &&
    (within 0xE0 0xE0 a && within 0xA0 0xBF b ||
      within 0xE1 0xEC a && isTail b ||
      within 0xED 0xED a && within 0x80 0x9F b ||
      within 0xEE 0xEF a && isTail b)

def isQuad (a b c d : UInt8) : Bool :=
  isTail c && isTail d &&
    (within 0xF0 0xF0 a && within 0x90 0xBF b ||
      within 0xF1 0xF3 a && isTail b ||
      within 0xF4 0xF4 a && within 0x80 0x8F b)

/-! ## Numbers spelled by bytes -/

def twoByte (a b : UInt8) : Nat :=
  a.toNat % 0x20 * 0x40 + b.toNat % 0x40

def threeByte (a b c : UInt8) : Nat :=
  a.toNat % 0x10 * 0x1000 + b.toNat % 0x40 * 0x40 + c.toNat % 0x40

def fourByte (a b c d : UInt8) : Nat :=
  a.toNat % 0x08 * 0x40000 + b.toNat % 0x40 * 0x1000 + c.toNat % 0x40 * 0x40 + d.toNat % 0x40

/-! ## Strict reading -/

/-- Plain UTF-8. -/
def plain : List UInt8 → Option (List Char)
  | [] => some []
  | a :: rest =>
    if a.toNat < 0x80 then (plain rest).map (Char.ofNat a.toNat :: ·)
    else
      match rest with
      | [] => none
      | b :: rest =>
        if isPair a b then (plain rest).map (Char.ofNat (twoByte a b) :: ·)
        else
          match rest with
          | [] => none
          | c :: rest =>
            if isTriple a b c then (plain rest).map (Char.ofNat (threeByte a b c) :: ·)
            else
              match rest with
              | [] => none
              | d :: rest =>
                if isQuad a b c d then (plain rest).map (Char.ofNat (fourByte a b c d) :: ·)
                else none

/-- The modified form with every surrogate in a pair. -/
def paired : List UInt8 → Option (List Char)
  | [] => some []
  | a :: rest =>
    if within 0x01 0x7F a then (paired rest).map (Char.ofNat a.toNat :: ·)
    else
      match rest with
      | [] => none
      | b :: rest =>
        if within 0xC0 0xC0 a && within 0x80 0x80 b then (paired rest).map (Char.ofNat 0 :: ·)
        else if isPair a b then (paired rest).map (Char.ofNat (twoByte a b) :: ·)
        else
          match rest with
          | [] => none
          | c :: rest =>
            if isTriple a b c then (paired rest).map (Char.ofNat (threeByte a b c) :: ·)
            else if within 0xED 0xED a && within 0xA0 0xAF b && isTail c then
              match rest with
              | d :: e :: f :: rest =>
                if within 0xED 0xED d && within 0xB0 0xBF e && isTail f then
                  let high := UInt16.ofNat (threeByte a b c)
                  let low := UInt16.ofNat (threeByte d e f)
                  (paired rest).map (Utf16.pair high low :: ·)
                else none
              | _ => none
            else none

def strict (bytes : List UInt8) : Option (List Char) :=
  plain bytes <|> paired bytes

/-! ## Lenient reading -/

/-- The units that the bytes spell, whether paired or not. -/
def units : List UInt8 → Option (List UInt16)
  | [] => some []
  | a :: rest =>
    if within 0x01 0x7F a then (units rest).map (UInt16.ofNat a.toNat :: ·)
    else
      match rest with
      | [] => none
      | b :: rest =>
        if within 0xC0 0xDF a && isTail b then
          (units rest).map (UInt16.ofNat (twoByte a b) :: ·)
        else
          match rest with
          | [] => none
          | c :: rest =>
            if within 0xE0 0xEF a && isTail b && isTail c then
              (units rest).map (UInt16.ofNat (threeByte a b c) :: ·)
            else none

/-- A text and the number of units it was spelled with. -/
structure Decoded where
  text : List Char
  units : Nat
  deriving DecidableEq, Repr

def lenient (bytes : List UInt8) : Option Decoded :=
  (units bytes).map fun units => ⟨Utf16.decode units, units.length⟩

/-- Reads bytes that hold no zero. -/
def decode (bytes : List UInt8) : Option Decoded :=
  match strict bytes with
  | some text => some ⟨text, Utf16.length text⟩
  | none => lenient bytes

/-! ## Writing -/

/-- One unit in the fewest bytes, a zero in two. -/
def encodeUnit (unit : UInt16) : List UInt8 :=
  let n := unit.toNat
  if n ≠ 0 ∧ n < 0x80 then [UInt8.ofNat n]
  else if n < 0x800 then [UInt8.ofNat (0xC0 + n / 0x40), UInt8.ofNat (0x80 + n % 0x40)]
  else
    [UInt8.ofNat (0xE0 + n / 0x1000), UInt8.ofNat (0x80 + n / 0x40 % 0x40),
      UInt8.ofNat (0x80 + n % 0x40)]

def encode (units : List UInt16) : List UInt8 :=
  units.flatMap encodeUnit

end DexAtlas.Text.Mutf8
