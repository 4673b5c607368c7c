/-!
What can be wrong with an archive. A fault of the input itself, such as a missing file or content
that does not unpack, is told apart from a fault of the directory that describes the content.
-/
namespace DexAtlas

/-- Why deflated content does not unpack. -/
inductive DeflateFault where
  /-- It ends before its last block does. -/
  | incomplete
  /-- It breaks a rule of the format. -/
  | corrupt
  deriving DecidableEq, Repr

def DeflateFault.text : DeflateFault → String
  | .incomplete => "incomplete deflate stream"
  | .corrupt => "corrupt deflate stream"

inductive IoFault where
  | notFound
  /-- The input ends inside a record. -/
  | unexpectedEnd
  | checksum
  | deflate (fault : DeflateFault)
  /-- What the surrounding system says. -/
  | reported (text : String)
  deriving DecidableEq, Repr

def IoFault.text : IoFault → String
  | .notFound => "No such file or directory (os error 2)"
  | .unexpectedEnd => "failed to fill whole buffer"
  | .checksum => "Invalid checksum"
  | .deflate fault => fault.text
  | .reported text => text

inductive ZipFault where
  /-- The input failed while the directory was read. -/
  | io (fault : IoFault)
  | tooShort
  | noDirectoryEnd
  | directoryExtent
  | directoryHeader
  | localHeader
  | multiDisk
  | method
  | password
  deriving DecidableEq, Repr

def ZipFault.text : ZipFault → String
  | .io fault => fault.text
  | .tooShort => "invalid Zip archive: Invalid zip header"
  | .noDirectoryEnd => "invalid Zip archive: Could not find central directory end"
  | .directoryExtent => "invalid Zip archive: Invalid central directory size or offset"
  | .directoryHeader => "invalid Zip archive: Invalid Central Directory header"
  | .localHeader => "invalid Zip archive: Invalid local file header"
  | .multiDisk => "unsupported Zip archive: Support for multi-disk files is not implemented"
  | .method => "unsupported Zip archive: Compression method not supported"
  | .password => "unsupported Zip archive: Password required to decrypt file"

inductive ArchiveFault where
  | io (fault : IoFault)
  | zip (fault : ZipFault)
  deriving DecidableEq, Repr

end DexAtlas
