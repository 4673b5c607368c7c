import DexAtlas.Package.Basic
import DexAtlas.Zip.Directory

/-! Zip archives as the archives of packages. -/
namespace DexAtlas

/-- Entries are located in the archive before any of them is unpacked. -/
def Zip.format : Archive.Format Zip.Content where
  list bytes := do
    (← Zip.entries bytes).mapM fun entry => return (entry.name, ← entry.locate bytes)
  unpack bytes content := (content.unpack bytes).mapError .io

/-- The images of a zip archive. -/
def Archive.images (bytes : Bytes) : Journaled ArchiveFault (List (String × Bytes)) :=
  Zip.format.images bytes

/-- Opens the package in a zip archive. -/
def Package.ofArchive (bytes : Bytes) (options : Options) : Journaled PackageError Package :=
  ofFormat Zip.format bytes options

end DexAtlas
