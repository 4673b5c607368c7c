import DexAtlas.Bytes
import DexAtlas.Leb128
import DexAtlas.Notice
import DexAtlas.Text.Mutf8

/-!
Reading a buffer at a cursor. A reader ends in a value or an error and in both cases leaves a
cursor: the elementary readers move it only when they succeed, while one built from several of
them may have moved it before it fails. The cursor also carries the notices raised so far.
-/
namespace DexAtlas

structure Cursor where
  pos : Nat
  notices : Array Notice
  deriving DecidableEq, Repr

abbrev Reader := ReaderT Bytes (EStateM Error Cursor)

namespace Reader

/-- Reads from `pos` with no notices yet. -/
def runAt {α : Type} (reader : Reader α) (bytes : Bytes) (pos : Nat) :
    EStateM.Result Error Cursor α :=
  reader bytes ⟨pos, #[]⟩

/-! ## Control -/

def fail {α : Type} (cause : Cause) : Reader α :=
  fun _ cursor => .error (.of cause) cursor

/-- Goes on only if the condition holds. -/
def ensure (condition : Prop) [Decidable condition] (cause : Cause) : Reader Unit :=
  if condition then pure () else fail cause

/-- Adds a context to whatever error the reader ends in. -/
def within {α : Type} (context : Context) (reader : Reader α) : Reader α :=
  fun bytes cursor =>
    match reader bytes cursor with
    | .ok a cursor => .ok a cursor
    | .error e cursor => .error (e.within context) cursor

/-- Reads at another position and comes back. -/
def elsewhere {α : Type} (pos : Nat) (reader : Reader α) : Reader α :=
  fun bytes cursor =>
    match reader bytes { cursor with pos } with
    | .ok a left => .ok a { left with pos := cursor.pos }
    | .error e left => .error e { left with pos := cursor.pos }

def position : Reader Nat :=
  fun _ cursor => .ok cursor.pos cursor

def seek (pos : Nat) : Reader Unit :=
  fun _ cursor => .ok () { cursor with pos }

/-- The size of the whole buffer. -/
def bufferSize : Reader Nat :=
  fun bytes cursor => .ok bytes.size cursor

def raise (notice : Notice) : Reader Unit :=
  fun _ cursor => .ok () { cursor with notices := cursor.notices.push notice }

/-- Reads `count` items one after another, each told its position in the list. -/
def collect {α : Type} (count : Nat) (item : Nat → Reader α) : Reader (Array α) :=
  more count #[]
where
  more : Nat → Array α → Reader (Array α)
    | 0, items => pure items
    | left + 1, items => do
      let next ← item items.size
      more left (items.push next)

/-! ## Numbers and text -/

/-- The next `count` bytes, read as `what`. -/
def take (what : String) (count : Nat) : Reader Bytes :=
  fun bytes cursor =>
    let stop := cursor.pos + count
    if stop ≤ bytes.size then .ok (bytes.extract cursor.pos stop) { cursor with pos := stop }
    else .error (.of (.endOfStream what cursor.pos)) cursor

def uint (what : String) (width : Nat) : Reader Nat := do
  let raw ← take what width
  pure (Bytes.ofLittleEndian raw.toList)

def u1 : Reader Nat := uint "u1" 1

def u2 : Reader Nat := uint "u2" 2

def u4 : Reader Nat := uint "u4" 4

def u8 : Reader Nat := uint "u8" 8

def raw (count : Nat) : Reader Bytes := take "byte array" count

/-- A variable-length number, read by `decode` from the bytes at the cursor. -/
def leb {α : Type} (decode : List UInt8 → Except Cause (α × Nat)) : Reader α :=
  fun bytes cursor =>
    match decode (bytes.window cursor.pos Leb128.maxBytes) with
    | .ok (value, used) => .ok value { cursor with pos := cursor.pos + used }
    | .error cause => .error ((Error.of cause).within (.index cursor.pos)) cursor

def uleb128 : Reader Nat := leb Leb128.unsigned

def uleb128p1 : Reader Int := leb Leb128.lessOne

def sleb128 : Reader Int := leb Leb128.signed

/-- Puts the cursor back when the reader fails. -/
def restoring {α : Type} (reader : Reader α) : Reader α :=
  fun bytes cursor =>
    match reader bytes cursor with
    | .ok a cursor => .ok a cursor
    | .error e left => .error e { left with pos := cursor.pos }

/-- String data: its length in UTF-16 units, then modified UTF-8 up to a zero byte. -/
def text : Reader String := restoring do
  let start ← position
  let declared ← uleb128
  let first ← position
  let bytes ← read
  let some stop := bytes.zeroFrom? first | fail (.unterminatedText start)
  let some decoded := Text.Mutf8.decode (bytes.extract first stop).toList
    | fail (.illFormedText start)
  ensure (decoded.units = declared) (.unitCount start declared decoded.units)
  seek (stop + 1)
  return String.ofList decoded.text

end Reader

end DexAtlas
