/-! Numbers as they are written in messages and listings. -/
namespace DexAtlas.Text

/-- Lower-case hexadecimal digits without leading zeros. -/
def hex (n : Nat) : String :=
  String.ofList (Nat.toDigits 16 n)

/-- Fills with zeros on the left up to `width` characters. -/
def zeroPad (width : Nat) (digits : String) : String :=
  String.ofList (List.replicate (width - digits.length) '0') ++ digits

/-- An offset or a word: hexadecimal after `0x`, with at least `width` digits. -/
def hexWord (width n : Nat) : String :=
  "0x" ++ zeroPad width (hex n)

/-- Format versions are written with three digits. -/
def version (n : Nat) : String :=
  zeroPad 3 (toString n)

/-- A whole number with its sign, zero counting as positive. -/
def signed (i : Int) : String :=
  if i < 0 then toString i else "+" ++ toString i

/-- A bracketed list with a comma and a blank between items. -/
def bracketed (items : List String) : String :=
  "[" ++ ", ".intercalate items ++ "]"

end DexAtlas.Text
