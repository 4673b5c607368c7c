import DexAtlas.Archive.Fault
import DexAtlas.Archive.MultiDex
import DexAtlas.Bytes
import DexAtlas.Notice

/-!
The images in an archive. How archives are laid out is left open here: all that counts is which
entries an archive lists and what each of them unpacks to.
-/
namespace DexAtlas.Archive

/-- A way to read archives, with whatever it finds the content of an entry by. -/
structure Format (α : Type) where
  /-- All entries by name, in the order of the directory. One entry that cannot be opened makes the
  whole archive unreadable, whether it holds an image or not. -/
  list : Bytes → Except ZipFault (List (String × α))
  /-- The content of one of the entries. -/
  unpack : Bytes → α → Except ArchiveFault Bytes

variable {α : Type}

/-- Unpacks the images among the entries in order, and reports the first one that a gap cuts off. -/
def unpackImages (unpack : α → Except ArchiveFault Bytes) (entries : List (String × α)) :
    Journaled ArchiveFault (List (String × Bytes)) :=
  let unpacked := (MultiDex.sequence entries).mapM fun (name, entry) => (name, ·) <$> unpack entry
  match unpacked with
  | .error fault => ⟨.error fault, #[]⟩
  | .ok images =>
    ⟨.ok images, match MultiDex.afterGap? entries with
      | some (entry, missing) => #[.afterGap entry missing]
      | none => #[]⟩

/-- The images of an archive. -/
def Format.images (format : Format α) (bytes : Bytes) :
    Journaled ArchiveFault (List (String × Bytes)) :=
  match format.list bytes with
  | .error fault => ⟨.error (.zip fault), #[]⟩
  | .ok entries => unpackImages (format.unpack bytes) entries

end DexAtlas.Archive
