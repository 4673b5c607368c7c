import DexAtlas.Archive.Fault
import DexAtlas.Error

/-! Why a package could not be opened. -/
namespace DexAtlas

inductive PackageError where
  /-- The images that failed to load. -/
  | images (failures : List ImageFailure)
  /-- The analysis failed or was stopped. -/
  | build (error : Error)
  | io (fault : IoFault)
  | zip (fault : ZipFault)
  deriving DecidableEq, Repr

namespace PackageError

def ofArchive : ArchiveFault → PackageError
  | .io fault => .io fault
  | .zip fault => .zip fault

def isCancelled : PackageError → Bool
  | .build error => error.kind = .cancelled
  | _ => false

/-- The text of the one error behind this one. -/
def source? : PackageError → Option String
  | .images _ => none
  | .build error => some error.text
  | .io fault => some fault.text
  | .zip fault => some fault.text

def text : PackageError → String
  | .images failures =>
    s!"{failures.length} image(s) failed to load" ++
      String.join (failures.map fun failure => "; " ++ failure.text)
  | .build error => "analysis failed: " ++ error.text
  | .io fault => "I/O error: " ++ fault.text
  | .zip fault => "ZIP error: " ++ fault.text

end PackageError

end DexAtlas
