import DexAtlas.Reader

/-!
The header of an image: its version and where its tables are. A header is read only if it is
complete, little-endian and of a supported version.
-/
namespace DexAtlas

/-- A table: how many entries it has and where it starts. -/
structure Extent where
  size : Nat
  offset : Nat
  deriving DecidableEq, Repr

structure Header where
  /-- Eight bytes: `dex`, a line feed, three digits and a zero. -/
  magic : Bytes
  checksum : Nat
  signature : Bytes
  fileSize : Nat
  headerSize : Nat
  endianTag : Nat
  link : Extent
  mapOffset : Nat
  strings : Extent
  types : Extent
  protos : Extent
  fields : Extent
  methods : Extent
  classDefs : Extent
  data : Extent
  deriving DecidableEq, Repr

namespace Header

/-- The size of a header in bytes. -/
def byteSize : Nat := 0x70

def supportedVersions : List Nat := [35, 37, 38, 39, 40, 41]

/-- The tag of an image whose numbers have their lowest byte first. -/
def littleEndianTag : Nat := 0x12345678

def bigEndianTag : Nat := 0x78563412

/-- The first four bytes of every image. -/
def fileMark : List UInt8 := [0x64, 0x65, 0x78, 0x0a]

/-- The number that decimal digits spell. -/
def decimal (digits : List UInt8) : Nat :=
  digits.foldl (fun n digit => n * 10 + (digit.toNat - 0x30)) 0

def isDigit (byte : UInt8) : Bool :=
  decide (0x30 ≤ byte.toNat ∧ byte.toNat ≤ 0x39)

/-- The version that a well-formed magic value names. -/
def versionOf? (magic : List UInt8) : Option Nat :=
  let digits := (magic.drop 4).take 3
  if magic.take 4 = fileMark ∧ digits.all isDigit ∧ magic.drop 7 = [0] then some (decimal digits)
  else none

/-- The magic value that names a version of at most three digits. -/
def magicOf (version : Nat) : Bytes :=
  let digit (n : Nat) : UInt8 := UInt8.ofNat (0x30 + n % 10)
  (fileMark ++ [digit (version / 100), digit (version / 10), digit version, 0]).toArray

def version (header : Header) : Nat :=
  decimal ((header.magic.toList.drop 4).take 3)

def extent : Reader Extent := do
  let size ← Reader.u4
  let offset ← Reader.u4
  return ⟨size, offset⟩

def read : Reader Header := do
  let size ← Reader.bufferSize
  Reader.ensure (byteSize ≤ size) (.headerTooShort size)
  let magic ← Reader.raw 8
  let some version := versionOf? magic.toList | Reader.fail .magic
  Reader.ensure (version ∈ supportedVersions) (.versionNumber version)
  let checksum ← Reader.u4
  let signature ← Reader.raw 20
  let fileSize ← Reader.u4
  let headerSize ← Reader.u4
  let endianTag ← Reader.u4
  let link ← extent
  let mapOffset ← Reader.u4
  let strings ← extent
  let types ← extent
  let protos ← extent
  let fields ← extent
  let methods ← extent
  let classDefs ← extent
  let data ← extent
  Reader.ensure (endianTag ≠ bigEndianTag) .bigEndian
  Reader.ensure (endianTag = littleEndianTag) (.endianTag endianTag)
  Reader.ensure (headerSize = byteSize) (.headerSize headerSize)
  Reader.ensure (fileSize ≤ size) (.fileSize fileSize size)
  return { magic, checksum, signature, fileSize, headerSize, endianTag, link, mapOffset, strings,
           types, protos, fields, methods, classDefs, data }

end Header

end DexAtlas
