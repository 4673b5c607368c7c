/-!
Which entries of an archive are images, and in what order. The first image has no number, the
others are numbered from two on, and the first number missing ends the sequence.
-/
namespace DexAtlas.MultiDex

/-- A decimal number of 32 bits, which a plus sign may precede. -/
def number? (text : List Char) : Option Nat :=
  let digits := match text with
    | '+' :: digits => digits
    | digits => digits
  if digits.isEmpty || !digits.all Char.isDigit then none
  else
    let value := digits.foldl (fun value digit => 10 * value + (digit.toNat - '0'.toNat)) 0
    if value < UInt32.size then some value else none

/-- The text between the two given ones. -/
def between? (start stop text : List Char) : Option (List Char) :=
  if start.isPrefixOf text then
    let rest := text.drop start.length
    if stop.isSuffixOf rest then some (rest.take (rest.length - stop.length)) else none
  else none

/-- The place of an entry in the sequence, if its name is that of an image. -/
def position? (name : String) : Option Nat :=
  match between? "classes".toList ".dex".toList name.toList with
  | none => none
  | some [] => some 1
  | some ('0' :: _) => none
  | some text => (number? text).filter (2 ≤ ·)

variable {α : Type}

/-- The entry at one place. Of several, the last counts. -/
def atPosition? (entries : List (String × α)) (position : Nat) : Option (String × α) :=
  entries.reverse.find? fun entry => position? entry.1 = some position

/-- The images from one place on, without a gap. The first number bounds how many there are. -/
def run (entries : List (String × α)) : Nat → Nat → List (String × α)
  | 0, _ => []
  | left + 1, position =>
    match atPosition? entries position with
    | none => []
    | some entry => entry :: run entries left (position + 1)

/-- The images of an archive in order. An entry that serves as an image serves once, so there are no
more images than entries. -/
def sequence (entries : List (String × α)) : List (String × α) :=
  run entries entries.length 1

/-- The first image after the gap that ends the sequence, and the number missing there. -/
def afterGap? (entries : List (String × α)) : Option (String × Nat) := do
  let missing := (sequence entries).length + 1
  let position ← ((entries.filterMap fun entry => position? entry.1).filter (missing < ·)).min?
  let entry ← atPosition? entries position
  return (entry.1, missing)

end DexAtlas.MultiDex
