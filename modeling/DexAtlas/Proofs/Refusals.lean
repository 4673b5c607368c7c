import DexAtlas.Proofs.Chunks
import DexAtlas.Proofs.ErrorKinds

/-!
# Refused images

An image that is refused is malformed, or it is one that would have to be read in another way: its
header is there and has the mark of an image, but it names a version that is not read or has its
numbers the other way round. Everything behind the header can only be malformed, and no context
that is added on the way out changes what kind of error it is.
-/
namespace DexAtlas

/-- The 32-bit number at a position. -/
def Bytes.word (bytes : Bytes) (pos : Nat) : Nat :=
  ofLittleEndian (bytes.window pos 4)

namespace Reader

variable {α β : Type} {bytes : Bytes} {pos : Nat} {notices : Array Notice}

theorem bind_of_error {reader : Reader α} {next : α → Reader β} {cursor after : Cursor} {e : Error}
    (failed : reader bytes cursor = .error e after) :
    (reader >>= next) bytes cursor = .error e after := by
  change EStateM.bind (reader bytes) (fun a => next a bytes) cursor = _
  rw [EStateM.bind, failed]

theorem take_bind {next : Bytes → Reader β} (what : String) {count : Nat}
    (inside : pos + count ≤ bytes.size) :
    (take what count >>= next) bytes ⟨pos, notices⟩ =
      next (bytes.extract pos (pos + count)) bytes ⟨pos + count, notices⟩ := by
  apply bind_of_ok
  simp only [take, if_pos inside]

theorem u4_bind {next : Nat → Reader β} (inside : pos + 4 ≤ bytes.size) :
    (u4 >>= next) bytes ⟨pos, notices⟩ = next (bytes.word pos) bytes ⟨pos + 4, notices⟩ := by
  apply bind_of_ok
  rw [u4, uint, take_bind "u4" inside]
  rfl

theorem ensure_refuses {condition : Prop} [Decidable condition] {cause : Cause}
    {next : Unit → Reader β} {cursor : Cursor} (fails : ¬condition) :
    (ensure condition cause >>= next) bytes cursor = .error (.of cause) cursor := by
  rw [ensure, if_neg fails]
  rfl

/-- A context is added to a failure and to nothing else: the reader fails where it failed without
the context, with the same kind and message. -/
theorem within_error_iff {reader : Reader α} {context : Context} {cursor after : Cursor}
    {e : Error} :
    within context reader bytes cursor = .error e after ↔
      ∃ inner, reader bytes cursor = .error inner after ∧ e = inner.within context := by
  unfold within
  cases reader bytes cursor with
  | ok a left => simp
  | error inner left =>
    simp only [EStateM.Result.error.injEq]
    constructor
    · rintro ⟨rfl, rfl⟩
      exact ⟨inner, ⟨rfl, rfl⟩, rfl⟩
    · rintro ⟨_, ⟨rfl, rfl⟩, rfl⟩
      exact ⟨rfl, rfl⟩

end Reader

open Reader

namespace Header

variable {bytes : Bytes} {notices : Array Notice} {version : Nat}

/-- The buffer begins with `dex`, a line feed, three digits that spell the version, and a zero. -/
def Marked (bytes : Bytes) (version : Nat) : Prop :=
  ∃ a b c : Nat, a < 10 ∧ b < 10 ∧ c < 10 ∧ version = 100 * a + 10 * b + c ∧
    bytes.window 0 8 = [0x64, 0x65, 0x78, 0x0a, UInt8.ofNat (0x30 + a), UInt8.ofNat (0x30 + b),
      UInt8.ofNat (0x30 + c), 0]

private theorem toNat_digit {n : Nat} (small : n < 10) :
    (UInt8.ofNat (0x30 + n)).toNat = 0x30 + n :=
  Bytes.toNat_byte (by omega)

private theorem exists_digit {byte : UInt8} (digit : isDigit byte = true) :
    ∃ n < 10, byte = UInt8.ofNat (0x30 + n) := by
  simp only [isDigit, decide_eq_true_eq] at digit
  refine ⟨byte.toNat - 0x30, by omega, ?_⟩
  rw [Nat.add_sub_cancel' digit.1, UInt8.ofNat_toNat]

private theorem marked_of_parts {magic : List UInt8} (mark : magic.take 4 = fileMark)
    (digits : ((magic.drop 4).take 3).all isDigit = true) (stop : magic.drop 7 = [0]) :
    ∃ a b c : Nat, a < 10 ∧ b < 10 ∧ c < 10 ∧
      decimal ((magic.drop 4).take 3) = 100 * a + 10 * b + c ∧
      magic = [0x64, 0x65, 0x78, 0x0a, UInt8.ofNat (0x30 + a), UInt8.ofNat (0x30 + b),
        UInt8.ofNat (0x30 + c), 0] := by
  have parts : magic = magic.take 4 ++ ((magic.drop 4).take 3 ++ magic.drop 7) := by
    have behind := List.take_append_drop 3 (magic.drop 4)
    rw [List.drop_drop] at behind
    rw [behind, List.take_append_drop]
  have three : ((magic.drop 4).take 3).length = 3 := by
    have one := congrArg List.length stop
    rw [List.length_drop, List.length_singleton] at one
    rw [List.length_take, List.length_drop]
    omega
  obtain ⟨x, y, z, spelled⟩ : ∃ x y z, (magic.drop 4).take 3 = [x, y, z] := by
    match (magic.drop 4).take 3, three with
    | [x, y, z], _ => exact ⟨x, y, z, rfl⟩
  rw [spelled] at digits parts ⊢
  simp only [List.all_cons, List.all_nil, Bool.and_eq_true, and_true] at digits
  obtain ⟨a, smallA, rfl⟩ := exists_digit digits.1
  obtain ⟨b, smallB, rfl⟩ := exists_digit digits.2.1
  obtain ⟨c, smallC, rfl⟩ := exists_digit digits.2.2
  refine ⟨a, b, c, smallA, smallB, smallC, ?_, by rw [parts, mark, stop]; rfl⟩
  simp only [decimal, List.foldl_cons, List.foldl_nil, toNat_digit, smallA, smallB, smallC]
  omega

theorem versionOf?_eq_some_iff :
    versionOf? (bytes.window 0 8) = some version ↔ Marked bytes version := by
  unfold versionOf? Marked
  generalize bytes.window 0 8 = magic
  dsimp only
  constructor
  · intro named
    split at named
    next wellFormed =>
      obtain rfl := Option.some.inj named
      exact marked_of_parts wellFormed.1 wellFormed.2.1 wellFormed.2.2
    next => cases named
  · rintro ⟨a, b, c, smallA, smallB, smallC, rfl, rfl⟩
    have digits : ∀ n < 10, isDigit (UInt8.ofNat (0x30 + n)) = true := by
      intro n small
      rw [isDigit, toNat_digit small, decide_eq_true_eq]
      omega
    simp only [List.drop_succ_cons, List.drop_zero, List.take_succ_cons, List.take_zero,
      List.all_cons, List.all_nil, digits, smallA, smallB, smallC, decimal, List.foldl_cons,
      List.foldl_nil, toNat_digit]
    rw [if_pos ⟨rfl, rfl, trivial⟩, Option.some.injEq]
    omega

/-! ### Reading a header -/

/-- The header that the first bytes of a buffer spell, valid or not. -/
def ofBytes (bytes : Bytes) : Header where
  magic := bytes.extract 0 8
  checksum := bytes.word 8
  signature := bytes.extract 12 32
  fileSize := bytes.word 32
  headerSize := bytes.word 36
  endianTag := bytes.word 40
  link := ⟨bytes.word 44, bytes.word 48⟩
  mapOffset := bytes.word 52
  strings := ⟨bytes.word 56, bytes.word 60⟩
  types := ⟨bytes.word 64, bytes.word 68⟩
  protos := ⟨bytes.word 72, bytes.word 76⟩
  fields := ⟨bytes.word 80, bytes.word 84⟩
  methods := ⟨bytes.word 88, bytes.word 92⟩
  classDefs := ⟨bytes.word 96, bytes.word 100⟩
  data := ⟨bytes.word 104, bytes.word 108⟩

/-- What is asked, in this order, of a header that was found in a buffer of the given size. -/
def judge (size : Nat) (header : Header) : Reader Header := do
  ensure (header.endianTag ≠ bigEndianTag) .bigEndian
  ensure (header.endianTag = littleEndianTag) (.endianTag header.endianTag)
  ensure (header.headerSize = byteSize) (.headerSize header.headerSize)
  ensure (header.fileSize ≤ size) (.fileSize header.fileSize size)
  return header

theorem extent_bind {β : Type} {next : Extent → Reader β} {pos : Nat}
    (inside : pos + 8 ≤ bytes.size) :
    (extent >>= next) bytes ⟨pos, notices⟩ =
      next ⟨bytes.word pos, bytes.word (pos + 4)⟩ bytes ⟨pos + 8, notices⟩ := by
  apply bind_of_ok
  rw [extent, u4_bind (by omega), u4_bind (by omega)]
  rfl

theorem read_short (short : ¬byteSize ≤ bytes.size) (cursor : Cursor) :
    read bytes cursor = .error (.of (.headerTooShort bytes.size)) cursor := by
  rw [read, bufferSize_bind, ensure_refuses short]

/-- A header that is there is first asked for its mark and its version, and then judged by what its
bytes spell. -/
theorem read_complete (enough : byteSize ≤ bytes.size) :
    read bytes ⟨0, notices⟩ =
      match versionOf? (bytes.window 0 8) with
      | none => .error (.of .magic) ⟨8, notices⟩
      | some version =>
        if version ∈ supportedVersions then
          judge bytes.size (ofBytes bytes) bytes ⟨byteSize, notices⟩
        else .error (.of (.versionNumber version)) ⟨8, notices⟩ := by
  have room : 0x70 ≤ bytes.size := enough
  rw [read, bufferSize_bind, ensure_bind enough, raw, take_bind _ (by omega), Bytes.window]
  cases versionOf? (bytes.extract 0 (0 + 8)).toList with
  | none => rfl
  | some version =>
    dsimp only
    by_cases supported : version ∈ supportedVersions
    · -- each field is read where the one before it ended, and there is room for all of them
      rw [ensure_bind supported, if_pos supported, u4_bind, raw, take_bind, u4_bind, u4_bind,
        u4_bind, extent_bind, u4_bind, extent_bind, extent_bind, extent_bind, extent_bind,
        extent_bind, extent_bind, extent_bind]
      · rfl
      all_goals omega
    · rw [ensure_refuses supported, if_neg supported]

theorem judge_unsupported_iff {size : Nat} {header : Header} {cursor : Cursor} :
    (∃ e after, judge size header bytes cursor = .error e after ∧ e.kind = .unsupported) ↔
      header.endianTag = bigEndianTag := by
  unfold judge
  by_cases reversed : header.endianTag = bigEndianTag
  · rw [ensure_refuses (not_not_intro reversed)]
    exact ⟨fun _ => reversed, fun _ => ⟨_, _, rfl, rfl⟩⟩
  · rw [ensure_bind reversed]
    -- the other three checks find malformed headers only
    have others : Raises (do
        ensure (header.endianTag = littleEndianTag) (.endianTag header.endianTag)
        ensure (header.headerSize = byteSize) (.headerSize header.headerSize)
        ensure (header.fileSize ≤ size) (.fileSize header.fileSize size)
        return header) [.malformed] :=
      .bind (.ensure _ _ (.head _)) fun _ => .bind (.ensure _ _ (.head _)) fun _ =>
        .bind (.ensure _ _ (.head _)) fun _ => .pure _
    refine ⟨?_, fun tag => absurd tag reversed⟩
    rintro ⟨e, after, failed, kind⟩
    have malformed := List.mem_singleton.mp (others failed)
    rw [kind] at malformed
    cases malformed

theorem read_unsupported_iff :
    (∃ e after, read bytes ⟨0, notices⟩ = .error e after ∧ e.kind = .unsupported) ↔
      byteSize ≤ bytes.size ∧ ∃ version, Marked bytes version ∧
        (version ∉ supportedVersions ∨ bytes.word 40 = bigEndianTag) := by
  by_cases enough : byteSize ≤ bytes.size
  · simp only [read_complete enough, enough, true_and, ← versionOf?_eq_some_iff]
    cases versionOf? (bytes.window 0 8) with
    | none =>
      constructor
      · rintro ⟨e, after, failed, kind⟩
        cases failed
        cases kind
      · rintro ⟨version, named, -⟩
        cases named
    | some version =>
      dsimp only
      by_cases supported : version ∈ supportedVersions
      · simp only [supported, if_true, judge_unsupported_iff, Option.some.injEq, exists_eq_left',
          not_true_eq_false, false_or]
        exact Iff.rfl
      · simp only [supported, if_false, Option.some.injEq, exists_eq_left', not_false_eq_true,
          true_or, iff_true]
        exact ⟨_, _, rfl, rfl⟩
  · simp only [read_short enough, enough, false_and, iff_false]
    rintro ⟨e, after, failed, kind⟩
    cases failed
    cases kind

end Header

namespace Container

variable {bytes : Bytes}

/-- Behind the header nothing can be unsupported. -/
theorem read_error_cases {cursor after : Cursor} {e : Error}
    (failed : read false bytes cursor = .error e after) :
    Header.read bytes cursor = .error e after ∨ e.kind = .malformed := by
  cases first : Header.read bytes cursor with
  | error e' left =>
    rw [read, bind_of_error first] at failed
    cases failed
    exact .inl rfl
  | ok header left =>
    rw [read, bind_of_ok first] at failed
    exact .inr (List.mem_singleton.mp (raises_behind header failed))

theorem parse_unsupported_iff :
    (∃ e, (parse bytes false).outcome = .error e ∧ e.kind = .unsupported) ↔
      ∃ e after, Header.read bytes ⟨0, #[]⟩ = .error e after ∧ e.kind = .unsupported := by
  constructor
  · rintro ⟨e, failed, kind⟩
    unfold parse at failed
    split at failed
    next => cases failed
    next e' after raised =>
      cases failed
      -- what fails behind the header is malformed
      rcases read_error_cases raised with header | malformed
      · exact ⟨e, after, header, kind⟩
      · rw [kind] at malformed
        cases malformed
  · rintro ⟨e, after, failed, kind⟩
    refine ⟨e, ?_, kind⟩
    have whole : (read false).runAt bytes 0 = .error e after := bind_of_error failed
    rw [parse, whole]

/-- Errors are classified exactly. A refused image is malformed or unsupported. It is unsupported
just if it has a whole header, begins with the mark of an image and names a version that is not
read or has its numbers the other way round. And a context, wherever it is added, is added to a
failure with the same kind and message. -/
theorem parse_refused (bytes : Bytes) :
    (∀ e, (parse bytes false).outcome = .error e →
      e.kind = .malformed ∨ e.kind = .unsupported) ∧
    ((∃ e, (parse bytes false).outcome = .error e ∧ e.kind = .unsupported) ↔
      0x70 ≤ bytes.size ∧ ∃ version, Header.Marked bytes version ∧
        (version ∉ [35, 37, 38, 39, 40, 41] ∨ bytes.word 40 = 0x78563412)) ∧
    (∀ (α : Type) (reader : Reader α) (context : Context) (cursor after : Cursor) (e : Error),
      Reader.within context reader bytes cursor = .error e after ↔
        ∃ inner, reader bytes cursor = .error inner after ∧ e = inner.within context ∧
          e.kind = inner.kind ∧ e.message = inner.message) := by
  refine ⟨fun e => parse_error, parse_unsupported_iff.trans Header.read_unsupported_iff, ?_⟩
  intro α reader context cursor after e
  rw [within_error_iff]
  constructor
  · rintro ⟨inner, failed, rfl⟩
    exact ⟨inner, failed, rfl, rfl, rfl⟩
  · rintro ⟨inner, failed, same, -⟩
    exact ⟨inner, failed, same⟩

-- the version is looked at before the byte order, and neither if the header is cut short
example : (parse (Header.magicOf 36 ++ Array.replicate 104 0) false).outcome =
    .error (.of (.versionNumber 36)) := rfl

example : (parse (Header.magicOf 36 ++ Array.replicate 103 0) false).outcome =
    .error (.of (.headerTooShort 111)) := rfl

end Container

end DexAtlas
