import DexAtlas.Proofs.ImageNames
import DexAtlas.Proofs.References

/-!
# The images that an archive holds

However an archive is laid out, the names of the entries that it lists alone decide which of them are
unpacked, and each image is the content of the entry that was chosen. So an archive holds its
unbroken sequence of images, unless the number of an entry is written with a plus sign or is too large
for 32 bits.
-/
namespace DexAtlas.Archive

open Bytes (toLittleEndian)
open Instruction MultiDex

variable {α : Type} {format : Format α} {bytes : Bytes} {entries : List (String × α)}

/-! ### Unpacking in order -/

theorem mapM_ok_iff {ε α β : Type} {f : α → Except ε β} {xs : List α} {ys : List β} :
    xs.mapM f = .ok ys ↔ List.Forall₂ (fun x y => f x = .ok y) xs ys := by
  induction xs generalizing ys with
  | nil =>
    rw [List.mapM_nil, List.forall₂_nil_left_iff]
    exact ⟨fun same => (Except.ok.inj same).symm, fun empty => by rw [empty]; rfl⟩
  | cons x xs ih =>
    rw [List.mapM_cons, List.forall₂_cons_left_iff]
    constructor
    · intro mapped
      obtain ⟨y, first, mapped⟩ := except_bind_ok mapped
      obtain ⟨rest, others, mapped⟩ := except_bind_ok mapped
      exact ⟨y, rest, first, ih.mp others, (Except.ok.inj mapped).symm⟩
    · rintro ⟨y, rest, first, others, rfl⟩
      rw [first, ih.mpr others]
      rfl

section Unpacking

variable {unpack : α → Except ArchiveFault Bytes}

theorem unpackImages_ok_iff {images : List (String × Bytes)} :
    (unpackImages unpack entries).outcome = .ok images ↔
      List.Forall₂ (fun entry image => image.1 = entry.1 ∧ unpack entry.2 = .ok image.2)
        (sequence entries) images := by
  have one (entry : String × α) (image : String × Bytes) :
      (entry.1, ·) <$> unpack entry.2 = .ok image ↔
        image.1 = entry.1 ∧ unpack entry.2 = .ok image.2 := by
    cases unpack entry.2 with
    | error fault => simp [Functor.map, Except.map]
    | ok data => simp [Functor.map, Except.map, Prod.ext_iff, eq_comm]
  simp only [← one, ← mapM_ok_iff]
  -- a gap only adds a notice, so the outcome is that of unpacking the sequence
  unfold unpackImages
  dsimp only
  split
  next failed =>
    constructor
    · intro ended
      cases ended
    · intro ended
      cases failed.symm.trans ended
  next ended =>
    constructor
    · intro same
      rw [← Except.ok.inj same]
      exact ended
    · intro same
      rw [Except.ok.inj (ended.symm.trans same)]

/-- An entry that takes no place changes neither the images nor what is reported. -/
theorem unpackImages_without {before after : List (String × α)} {entry : String × α}
    (placeless : ∀ n, ¬TakesPlace n entry.1) :
    unpackImages unpack (before ++ entry :: after) = unpackImages unpack (before ++ after) := by
  simp only [unpackImages, sequence_without placeless, afterGap?_without placeless]

/-! ### The images by name -/

/-- The images of the first `count` places under their names. -/
def imagesNamed (count : Nat) (data : Nat → Bytes) : List (String × Bytes) :=
  (List.range count).map fun k => (imageName (k + 1), data (k + 1))

variable {count : Nat} {data : Nat → Bytes}

theorem unpackImages_named_iff (distinct : (entries.map Prod.fst).Nodup)
    (unbroken : Unbroken entries count)
    (unpacks : ∀ n entry, 1 ≤ n → n ≤ count → (imageName n, entry) ∈ entries →
      unpack entry = .ok (data n)) :
    (unpackImages unpack entries).outcome = .ok (imagesNamed count data) ↔
      count < UInt32.size ∧ ¬Displaced entries count := by
  rw [unpackImages_ok_iff, ← sequence_names_iff distinct unbroken]
  constructor
  · intro related
    -- what was unpacked keeps the names, so they are those of the sequence
    have names : List.Forall₂ (fun entry image => entry.1 = image.1) (sequence entries)
        (imagesNamed count data) := related.imp fun _ _ both => both.1.symm
    have same := List.forall₂_map_left_iff.mpr (List.forall₂_map_right_iff.mpr names)
    rw [List.forall₂_eq_eq_eq] at same
    rw [same, imagesNamed, List.map_map]
    rfl
  · intro names
    have length : (sequence entries).length = count := by
      simpa using congrArg List.length names
    rw [List.forall₂_iff_get]
    refine ⟨by simp [imagesNamed, length], ?_⟩
    -- the image at a place is an entry of the name that goes with it
    intro k inside _
    have named : (sequence entries)[k].1 = imageName (k + 1) := by
      have there := congrArg (·[k]?) names
      simpa [inside, length ▸ inside] using there
    have found := sequence_getElem? inside
    rw [List.getElem?_eq_getElem inside] at found
    have member := mem_of_atPosition? found.symm
    have unpacked := unpacks (k + 1) (sequence entries)[k].2 (by omega) (by omega)
      (by rw [← named]; exact member)
    simp [imagesNamed, named, unpacked]

end Unpacking

/-- Which images an archive holds that lists the given entries. -/
structure ImagesInOrder (format : Format α) (bytes : Bytes) (entries : List (String × α)) : Prop where
  /-- For each place up to the first gap, the last entry that takes it is unpacked. -/
  chosen : ∃ chosen, InSequence entries chosen ∧ ∀ images,
    (format.images bytes).outcome = .ok images ↔
      List.Forall₂ (fun entry image => image.1 = entry.1 ∧
        format.unpack bytes entry.2 = .ok image.2) chosen images
  unbroken : ∃ count, Unbroken entries count
  /-- The images are those of the unbroken sequence of names just if no entry displaces one and all
  of them can be numbered. -/
  named : ∀ count data, Unbroken entries count →
    (∀ n entry, 1 ≤ n → n ≤ count → (imageName n, entry) ∈ entries →
      format.unpack bytes entry = .ok (data n)) →
    ((format.images bytes).outcome = .ok (imagesNamed count data) ↔
      count < UInt32.size ∧ ¬Displaced entries count)
  /-- An entry of any other name could as well not be there. -/
  indifferent : ∀ before entry after, entries = before ++ entry :: after →
    (∀ n, ¬TakesPlace n entry.1) →
    format.images bytes = unpackImages (format.unpack bytes) (before ++ after)

/-- Whatever the format, an archive that lists entries with different names holds its unbroken
sequence of images, in order and under their names, unless a number with a plus sign displaces one or
there are more of them than 32 bits can number. -/
theorem images_inOrder (format : Format α) (bytes : Bytes) (entries : List (String × α))
    (listed : format.list bytes = .ok entries) (distinct : (entries.map Prod.fst).Nodup) :
    ImagesInOrder format bytes entries := by
  have unpacked : format.images bytes = unpackImages (format.unpack bytes) entries := by
    rw [Format.images, listed]
  constructor
  case chosen =>
    refine ⟨sequence entries, inSequence_iff.mpr rfl, fun images => ?_⟩
    rw [unpacked, unpackImages_ok_iff]
  case unbroken => exact exists_unbroken entries
  case named =>
    intro count data unbroken unpacks
    rw [unpacked]
    exact unpackImages_named_iff distinct unbroken unpacks
  case indifferent =>
    rintro before entry after rfl placeless
    rw [unpacked]
    exact unpackImages_without placeless

/-! ### Two archives -/

/-- A file of one byte and its checksum. -/
structure TinyFile where
  name : String
  content : UInt8
  checksum : Nat

/-- A zip archive of such files, stored as they are. -/
def storedArchive (files : List TinyFile) : Bytes :=
  let header (file : TinyFile) : List UInt8 :=
    toLittleEndian 4 0x04034b50 ++ List.replicate 22 0 ++
      toLittleEndian 2 file.name.length ++ toLittleEndian 2 0 ++
        file.name.toList.map (fun c => UInt8.ofNat c.toNat) ++ [file.content]
  let listing (file : TinyFile) (offset : Nat) : List UInt8 :=
    toLittleEndian 4 0x02014b50 ++ List.replicate 12 0 ++
      toLittleEndian 4 file.checksum ++ toLittleEndian 4 1 ++ toLittleEndian 4 1 ++
        toLittleEndian 2 file.name.length ++ List.replicate 12 0 ++ toLittleEndian 4 offset ++
          file.name.toList.map (fun c => UInt8.ofNat c.toNat)
  let headers := files.map header
  let offsets := headers.scanl (fun offset bytes => offset + bytes.length) 0
  let directory := (List.zipWith listing files offsets).flatten
  let closing := toLittleEndian 4 0x06054b50 ++ List.replicate 4 0 ++
    toLittleEndian 2 files.length ++ toLittleEndian 2 files.length ++
      toLittleEndian 4 directory.length ++ toLittleEndian 4 headers.flatten.length ++
        toLittleEndian 2 0
  (headers.flatten ++ directory ++ closing).toArray

/-- How the zip format reads such an archive: it lists the files and gives their contents. -/
def storedFormat (files : List TinyFile) : Format UInt8 where
  list _ := .ok (files.map fun file => (file.name, file.content))
  unpack _ content := .ok #[content]

/-- Files in no order, one with a zero in front of its number. -/
def mixedFiles : List TinyFile :=
  [⟨"classes2.dex", 0x62, 0x71beeff9⟩, ⟨"classes02.dex", 0x63, 0x06b9df6f⟩,
    ⟨"classes.dex", 0x61, 0xe8b7be43⟩]

def mixedEntries : List (String × UInt8) :=
  [("classes2.dex", 0x62), ("classes02.dex", 0x63), ("classes.dex", 0x61)]

theorem images_inOrder_mixed :
    (storedFormat mixedFiles).list (storedArchive mixedFiles) = .ok mixedEntries ∧
      (mixedEntries.map Prod.fst).Nodup ∧ Unbroken mixedEntries 2 ∧
      ((storedFormat mixedFiles).images (storedArchive mixedFiles)).outcome =
        .ok (imagesNamed 2 fun n => if n = 1 then #[0x61] else #[0x62]) := by
  have listed : (storedFormat mixedFiles).list (storedArchive mixedFiles) = .ok mixedEntries := rfl
  have distinct : (mixedEntries.map Prod.fst).Nodup := by decide
  have present : ∀ n < 3, 1 ≤ n → imageName n ∈ mixedEntries.map Prod.fst := by decide +kernel
  have missing : imageName 3 ∉ mixedEntries.map Prod.fst := by decide +kernel
  have unbroken : Unbroken mixedEntries 2 :=
    ⟨fun n positive within => present n (by omega) positive, missing⟩
  have contents : ∀ entry ∈ mixedEntries, ∀ n < 3, entry.1 = imageName n →
      #[entry.2] = if n = 1 then #[0x61] else #[0x62] := by
    decide +kernel
  refine ⟨listed, distinct, unbroken, ?_⟩
  apply ((images_inOrder _ _ _ listed distinct).named 2 _ unbroken ?_).mpr
  · exact ⟨by decide, not_displaced (by decide +kernel)⟩
  · intro n content _ within member
    exact congrArg Except.ok (contents (imageName n, content) member n (by omega) rfl)

/-- Files of which the second has a plus sign in its name. -/
def plusFiles : List TinyFile :=
  [⟨"classes.dex", 0x61, 0xe8b7be43⟩, ⟨"classes+2.dex", 0x62, 0x71beeff9⟩]

def plusEntries : List (String × UInt8) :=
  [("classes.dex", 0x61), ("classes+2.dex", 0x62)]

/-- The sequence of names ends with the first image, and yet there is a second one. -/
theorem images_plusSample :
    (storedFormat plusFiles).list (storedArchive plusFiles) = .ok plusEntries ∧
      (plusEntries.map Prod.fst).Nodup ∧ Unbroken plusEntries 1 ∧
      ((storedFormat plusFiles).images (storedArchive plusFiles)).outcome =
        .ok [("classes.dex", #[0x61]), ("classes+2.dex", #[0x62])] ∧
      ∀ data, ((storedFormat plusFiles).images (storedArchive plusFiles)).outcome ≠
        .ok (imagesNamed 1 data) := by
  have order : sequence plusEntries = plusEntries := by decide +kernel
  have outcome : ((storedFormat plusFiles).images (storedArchive plusFiles)).outcome =
      .ok [("classes.dex", #[0x61]), ("classes+2.dex", #[0x62])] := by
    have related := @unpackImages_ok_iff UInt8 plusEntries (fun content => .ok #[content])
      [("classes.dex", #[0x61]), ("classes+2.dex", #[0x62])]
    rw [order] at related
    exact related.mpr (.cons ⟨rfl, rfl⟩ (.cons ⟨rfl, rfl⟩ .nil))
  refine ⟨rfl, by decide, ⟨?_, by decide +kernel⟩, outcome, ?_⟩
  · intro n positive within
    obtain rfl : n = 1 := by omega
    decide +kernel
  · intro data same
    have lengths := congrArg List.length (Except.ok.inj (outcome.symm.trans same))
    simp [imagesNamed] at lengths

end DexAtlas.Archive
