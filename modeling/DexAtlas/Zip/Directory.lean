import DexAtlas.Archive.Fault
import DexAtlas.Zip.Crc32
import DexAtlas.Zip.Inflate

/-!
The directory of a zip archive. A closing record at the very end, which a comment may follow, says
where the directory lies; what stands before the archive shifts all offsets alike. The directory
alone decides on method, sizes and checksums, and the header in front of an entry's content only
says how far away the content is. Numbers of 64 bits, encryption and archives in several parts are
not read.
-/
namespace DexAtlas.Zip

abbrev Parsed := Except ZipFault

/-- The number of `width` bytes at `pos`. -/
def number (bytes : Bytes) (pos width : Nat) : Parsed Nat :=
  if pos + width ≤ bytes.size then .ok (Bytes.ofLittleEndian (bytes.window pos width))
  else .error (.io .unexpectedEnd)

/-- Refuses bytes that do not start with the mark of a record. -/
def expect (bytes : Bytes) (pos mark : Nat) (fault : ZipFault) : Parsed Unit := do
  if (← number bytes pos 4) ≠ mark then throw fault

/-! ## The closing record -/

structure DirectoryEnd where
  position : Nat
  entries : Nat
  /-- The number of bytes of the directory. -/
  size : Nat
  /-- Where the directory starts, counted from the start of the archive. -/
  offset : Nat
  deriving DecidableEq, Repr

namespace DirectoryEnd

/-- The length of the record without its comment. -/
def width : Nat := 22

def mark : Nat := 0x06054b50

/-- The last position of the mark at which a record and its comment can stand. -/
def find? (bytes : Bytes) : Option Nat :=
  let last := bytes.size - width
  search (min last 0xFFFF + 1) last
where
  search : Nat → Nat → Option Nat
    | 0, _ => none
    | left + 1, pos =>
      if Bytes.ofLittleEndian (bytes.window pos 4) = mark then some pos else search left (pos - 1)

/-- Some number of the record is at its limit and cannot be told from a larger one. -/
def isFull (disks : List Nat) (size offset : Nat) : Bool :=
  disks.contains 0xFFFF || size = 0xFFFFFFFF || offset = 0xFFFFFFFF

def read (bytes : Bytes) (position : Nat) : Parsed DirectoryEnd := do
  let disk ← number bytes (position + 4) 2
  let directoryDisk ← number bytes (position + 6) 2
  let entries ← number bytes (position + 8) 2
  let allEntries ← number bytes (position + 10) 2
  let size ← number bytes (position + 12) 4
  let offset ← number bytes (position + 16) 4
  let comment ← number bytes (position + 20) 2
  if bytes.size < position + width + comment then throw (.io .unexpectedEnd)
  if !isFull [disk, directoryDisk, entries, allEntries] size offset && disk ≠ directoryDisk then
    throw .multiDisk
  return { position, entries, size, offset }

/-- How far the archive is from the start of the bytes. -/
def shift (record : DirectoryEnd) : Parsed Nat :=
  if record.position < record.size + record.offset then .error .directoryExtent
  else .ok (record.position - record.size - record.offset)

end DirectoryEnd

/-! ## Entries -/

structure Entry where
  name : String
  encrypted : Bool
  method : Nat
  checksum : UInt32
  packedSize : Nat
  /-- Where the header in front of the content starts. -/
  header : Nat
  deriving DecidableEq, Repr

namespace Entry

/-- The length of a directory entry without its texts. -/
def width : Nat := 46

def mark : Nat := 0x02014b50

/-- A name with one character per byte. The encodings in use agree on ASCII, and no other name is
looked for. -/
def nameOf (bytes : List UInt8) : String :=
  String.ofList (bytes.map fun byte => Char.ofNat byte.toNat)

/-- The entry at `pos`, and the position after it. -/
def read (bytes : Bytes) (shift pos : Nat) : Parsed (Entry × Nat) := do
  expect bytes pos mark .directoryHeader
  let flags ← number bytes (pos + 8) 2
  let method ← number bytes (pos + 10) 2
  let checksum ← number bytes (pos + 16) 4
  let packedSize ← number bytes (pos + 20) 4
  let name ← number bytes (pos + 28) 2
  let extra ← number bytes (pos + 30) 2
  let comment ← number bytes (pos + 32) 2
  let offset ← number bytes (pos + 42) 4
  let next := pos + width + name + extra + comment
  if bytes.size < next then throw (.io .unexpectedEnd)
  return ({
    name := nameOf (bytes.window (pos + width) name)
    encrypted := flags % 2 = 1
    method
    checksum := UInt32.ofNat checksum
    packedSize
    header := offset + shift }, next)

/-- The next `count` entries from `pos` on. -/
def readMany (bytes : Bytes) (shift : Nat) : Nat → Nat → Array Entry → Parsed (Array Entry)
  | 0, _, entries => .ok entries
  | count + 1, pos, entries => do
    let (entry, next) ← read bytes shift pos
    readMany bytes shift count next (entries.push entry)

end Entry

/-- All entries, in the order of the directory. -/
def entries (bytes : Bytes) : Parsed (List Entry) := do
  if bytes.size < DirectoryEnd.width then throw .tooShort
  let some position := DirectoryEnd.find? bytes | throw .noDirectoryEnd
  let record ← DirectoryEnd.read bytes position
  let shift ← record.shift
  let entries ← Entry.readMany bytes shift record.entries (record.offset + shift) #[]
  return entries.toList

/-! ## Content -/

inductive Packing where
  | stored
  | deflated
  deriving DecidableEq, Repr

def Packing.ofMethod? : Nat → Option Packing
  | 0 => some .stored
  | 8 => some .deflated
  | _ => none

/-- Where the content of an entry is and how it is packed. -/
structure Content where
  packing : Packing
  checksum : UInt32
  start : Nat
  size : Nat
  deriving DecidableEq, Repr

/-- The length of the header in front of the content without its texts. -/
def Content.headerWidth : Nat := 30

def Content.mark : Nat := 0x04034b50

/-- Finds the content of an entry without reading it. -/
def Entry.locate (entry : Entry) (bytes : Bytes) : Parsed Content := do
  if entry.encrypted then throw .password
  expect bytes entry.header Content.mark .localHeader
  let name ← number bytes (entry.header + 26) 2
  let extra ← number bytes (entry.header + 28) 2
  let some packing := Packing.ofMethod? entry.method | throw .method
  return {
    packing
    checksum := entry.checksum
    start := entry.header + Content.headerWidth + name + extra
    size := entry.packedSize }

/-- Unpacks the content. It ends with the bytes when they are fewer than announced. -/
def Content.unpack (content : Content) (bytes : Bytes) : Except IoFault Bytes := do
  let packed := bytes.extract content.start (content.start + content.size)
  let unpacked ← match content.packing with
    | .stored => pure packed
    | .deflated => (inflate packed).mapError .deflate
  if Crc32.sum unpacked ≠ content.checksum then throw .checksum
  return unpacked

end DexAtlas.Zip
