import DexAtlas.Text.Numeral

/-!
String literals as listings show them. The quote, the backslash and control characters are
escaped; every other character stands for itself.
-/
namespace DexAtlas.Text.Escape

/-- Below U+0020, or from U+007F to U+009F. -/
def isControl (c : Char) : Bool :=
  decide (c.toNat < 0x20 ∨ (0x7F ≤ c.toNat ∧ c.toNat ≤ 0x9F))

/-- How one character is written. -/
def encodeChar (c : Char) : List Char :=
  if c = '\\' then ['\\', '\\']
  else if c = '"' then ['\\', '"']
  else if c = '\n' then ['\\', 'n']
  else if c = '\r' then ['\\', 'r']
  else if c = '\t' then ['\\', 't']
  else if isControl c then '\\' :: 'u' :: (zeroPad 4 (hex c.toNat)).toList
  else [c]

def encode (text : String) : String :=
  String.ofList (text.toList.flatMap encodeChar)

/-- A literal between quotes. -/
def quoted (text : String) : String :=
  "\"" ++ encode text ++ "\""

def digit? (c : Char) : Option Nat :=
  if '0' ≤ c ∧ c ≤ '9' then some (c.toNat - '0'.toNat)
  else if 'a' ≤ c ∧ c ≤ 'f' then some (c.toNat - 'a'.toNat + 10)
  else none

/-- Reads an escaped text back; refuses a backslash that begins no escape. -/
def decode : List Char → Option (List Char)
  | [] => some []
  | '\\' :: '\\' :: rest => (decode rest).map ('\\' :: ·)
  | '\\' :: '"' :: rest => (decode rest).map ('"' :: ·)
  | '\\' :: 'n' :: rest => (decode rest).map ('\n' :: ·)
  | '\\' :: 'r' :: rest => (decode rest).map ('\r' :: ·)
  | '\\' :: 't' :: rest => (decode rest).map ('\t' :: ·)
  | '\\' :: 'u' :: a :: b :: c :: d :: rest =>
    match digit? a, digit? b, digit? c, digit? d with
    | some a, some b, some c, some d =>
      (decode rest).map (Char.ofNat (a * 0x1000 + b * 0x100 + c * 0x10 + d) :: ·)
    | _, _, _, _ => none
  | c :: rest => if c = '\\' then none else (decode rest).map (c :: ·)

end DexAtlas.Text.Escape
