import DexAtlas.Proofs.CodeItems
import DexAtlas.Proofs.Indexing

/-!
# Try blocks and their handlers

A handler is known by its distance from the start of the list, of which 32 bits are kept, and the next
one is read where it ended. Since a handler takes at least one byte, the distances grow from handler to
handler, and since the number of handlers stands in front of them, none is zero. As long as the
distances fit 32 bits, the check that each try block names a handler that is there therefore leaves
exactly one for it. Distances that agree in 32 bits are not told apart: behind a handler of four
gibibytes the next one has its offset, and a try block that names one of them names both.
-/
namespace DexAtlas

/-! ### How far readers go -/

namespace Leb128

theorem signedFrom_ok {room used : Nat} {value : Int} {bytes : List UInt8}
    (read : signedFrom room bytes = .ok (value, used)) :
    1 ≤ used ∧ used ≤ bytes.length := by
  induction room generalizing bytes value used with
  | zero => cases read
  | succ room ih =>
    cases bytes with
    | nil => cases read
    | cons byte rest =>
      unfold signedFrom at read
      dsimp only at read
      split at read
      · cases read
        simp
      · cases found : signedFrom room rest with
        | error cause =>
          rw [found] at read
          cases read
        | ok high =>
          rw [found] at read
          cases read
          have further := ih found
          rw [List.length_cons]
          omega

end Leb128

namespace Reader

variable {α β : Type}

/-- Whatever the reader returns, it has passed over at least `least` bytes, and over none that the
buffer does not have. -/
def Passes (least : Nat) (reader : Reader α) : Prop :=
  ∀ ⦃bytes cursor a after⦄, reader bytes cursor = .ok a after →
    cursor.pos + least ≤ after.pos ∧ (after.pos = cursor.pos ∨ after.pos ≤ bytes.size)

namespace Passes

variable {least : Nat}

theorem mono {fewer : Nat} {reader : Reader α} (passes : Passes least reader)
    (le : fewer ≤ least) : Passes fewer reader := by
  intro bytes cursor a after ran
  obtain ⟨moved, inside⟩ := passes ran
  exact ⟨by omega, inside⟩

theorem pure (a : α) : Passes 0 (Pure.pure a : Reader α) := by
  intro bytes cursor b after ran
  obtain ⟨-, rfl⟩ := EStateM.Result.ok.inj ran
  exact ⟨Nat.le_refl _, .inl rfl⟩

theorem bind {more : Nat} {reader : Reader α} {next : α → Reader β} (first : Passes least reader)
    (others : ∀ a, Passes more (next a)) : Passes (least + more) (reader >>= next) := by
  intro bytes cursor b after ran
  obtain ⟨a, middle, begun, ended⟩ := bind_ok ran
  have here := first begun
  have there := others a ended
  omega

/-- A reader, and then others that need not pass over anything. -/
theorem bind_free {reader : Reader α} {next : α → Reader β} (first : Passes least reader)
    (others : ∀ a, Passes 0 (next a)) : Passes least (reader >>= next) :=
  bind first others

theorem ensure (condition : Prop) [Decidable condition] (cause : Cause) :
    Passes 0 (Reader.ensure condition cause) := by
  unfold Reader.ensure
  split
  · exact pure ()
  · exact nofun

theorem map {reader : Reader α} (f : α → β) (inner : Passes least reader) :
    Passes least (f <$> reader) := by
  rw [map_eq_pure_bind]
  exact bind_free inner fun a => pure (f a)

theorem bufferSize : Passes 0 Reader.bufferSize := by
  intro bytes cursor size after ran
  obtain ⟨-, rfl⟩ := EStateM.Result.ok.inj ran
  exact ⟨Nat.le_refl _, .inl rfl⟩

theorem leb {decode : List UInt8 → Except Cause (α × Nat)}
    (used : ∀ list value count, decode list = .ok (value, count) →
      1 ≤ count ∧ count ≤ list.length) : Passes 1 (Reader.leb decode) := by
  intro bytes cursor a after ran
  unfold Reader.leb at ran
  split at ran
  next value count decoded =>
    obtain ⟨-, rfl⟩ := EStateM.Result.ok.inj ran
    obtain ⟨some, fits⟩ := used _ _ _ decoded
    rw [Bytes.window, Array.length_toList, Array.size_extract] at fits
    exact ⟨Nat.add_le_add_left some _, .inr (by dsimp only; omega)⟩
  next => cases ran

theorem uleb128 : Passes 1 Reader.uleb128 := leb fun _ _ _ => Direct.unsignedFrom_ok

theorem sleb128 : Passes 1 Reader.sleb128 := leb fun _ _ _ => Leb128.signedFrom_ok

theorem collect {item : Nat → Reader α} (each : ∀ i, Passes 0 (item i)) (count : Nat) :
    Passes 0 (Reader.collect count item) := by
  intro bytes cursor all after ran
  refine collect_invariant (fun here _ =>
    cursor.pos + 0 ≤ here.pos ∧ (here.pos = cursor.pos ∨ here.pos ≤ bytes.size)) ?_ ran
    ⟨Nat.le_refl _, .inl rfl⟩
  intro here done a there next before
  have passed := each done.length next
  omega

end Passes

end Reader

open Reader (Passes Yields bind_ok)

/-! ### Handlers -/

namespace CatchHandler

theorem passes_read (types offset : Nat) : Passes 1 (read types offset) := by
  have uleb128 : Passes 0 Reader.uleb128 := Passes.uleb128.mono (Nat.zero_le 1)
  have typed : Passes 0 (typedHandler types) := by
    refine .bind_free uleb128 fun type => ?_
    refine .bind_free (.ensure _ _) fun _ => ?_
    exact .bind_free uleb128 fun address => .pure _
  -- the size is what takes a byte for certain
  refine .bind_free .sleb128 fun size => ?_
  refine .bind_free .bufferSize fun limit => ?_
  refine .bind_free (.ensure _ _) fun _ => ?_
  refine .bind_free (.collect (fun _ => typed) _) fun handlers => ?_
  split
  · exact .bind_free (.map some uleb128) fun catchAll => .pure _
  · exact .bind_free (.pure none) fun catchAll => .pure _

theorem yields_offset (types offset : Nat) :
    Yields (read types offset) fun handler => handler.offset = offset := by
  refine .after fun size => ?_
  refine .after fun limit => .after fun _ => ?_
  refine .after fun handlers => ?_
  dsimp only
  split
  · exact .after fun catchAll => .pure rfl
  · exact .after fun catchAll => .pure rfl

/-- A handler and the distance from the start of its list at which it was read. -/
structure Entry where
  distance : Nat
  handler : CatchHandler
  deriving DecidableEq, Repr

/-- The entries of a list that starts at `start`, up to a position `stop`: each was read at its
distance, of which its handler keeps 32 bits, behind the start and behind the entry before it. -/
structure Listed (types : Nat) (bytes : Bytes) (start stop : Nat) (entries : List Entry) : Prop where
  read : ∀ entry ∈ entries, ∃ notices after,
    CatchHandler.read types (entry.distance % UInt32.size) bytes
      ⟨start + entry.distance, notices⟩ = .ok entry.handler after
  offset : ∀ entry ∈ entries, entry.handler.offset = entry.distance % UInt32.size
  positive : ∀ entry ∈ entries, 1 ≤ entry.distance
  inside : ∀ entry ∈ entries, start + entry.distance < stop
  ordered : entries.Pairwise fun a b => a.distance < b.distance

theorem Listed.nil (types : Nat) (bytes : Bytes) (start stop : Nat) :
    Listed types bytes start stop [] where
  read := by simp
  offset := by simp
  positive := by simp
  inside := by simp
  ordered := .nil

/-- One more handler, from where the others end. -/
theorem Listed.push {types start : Nat} {bytes : Bytes} {entries : List Entry}
    {handler : CatchHandler} {here next : Cursor} (listed : Listed types bytes start here.pos entries)
    (behind : start < here.pos)
    (ran : CatchHandler.read types ((here.pos - start) % UInt32.size) bytes here = .ok handler next) :
    Listed types bytes start next.pos (entries ++ [⟨here.pos - start, handler⟩]) := by
  have moved := passes_read types _ ran
  have place : start + (here.pos - start) = here.pos := by omega
  constructor
  · exact List.forall_mem_append.mpr ⟨listed.read,
      List.forall_mem_singleton.mpr ⟨here.notices, next, by rw [place]; exact ran⟩⟩
  · exact List.forall_mem_append.mpr ⟨listed.offset,
      List.forall_mem_singleton.mpr (yields_offset types _ ran)⟩
  · exact List.forall_mem_append.mpr ⟨listed.positive,
      List.forall_mem_singleton.mpr (by dsimp only; omega)⟩
  · refine List.forall_mem_append.mpr ⟨fun entry old => ?_,
      List.forall_mem_singleton.mpr (by dsimp only; omega)⟩
    have before := listed.inside entry old
    omega
  · refine List.pairwise_append.mpr ⟨listed.ordered, List.pairwise_singleton _ _, ?_⟩
    intro entry old last new
    have before := listed.inside entry old
    rw [List.mem_singleton.mp new]
    dsimp only
    omega

theorem Listed.mono {types start stop further : Nat} {bytes : Bytes} {entries : List Entry}
    (listed : Listed types bytes start stop entries) (le : entries = [] ∨ stop ≤ further) :
    Listed types bytes start further entries := by
  refine { listed with inside := fun entry member => ?_ }
  rcases le with rfl | le
  · cases member
  · exact Nat.lt_of_lt_of_le (listed.inside entry member) le

end CatchHandler

namespace CodeItem

variable {bytes : Bytes} {cursor after : Cursor} {types : Nat}

open Bytes (toLittleEndian)
open CatchHandler (Entry Listed)

/-- What a handler list that starts at `start` has given up to a cursor behind its number. -/
def Begun (types : Nat) (bytes : Bytes) (start : Nat) (here : Cursor) (done : List CatchHandler) :
    Prop :=
  start < here.pos ∧ ∃ entries : List Entry, done = entries.map Entry.handler ∧
    Listed types bytes start here.pos entries ∧ (entries = [] ∨ here.pos ≤ bytes.size)

theorem Begun.nextHandler {item start count place : Nat} {done : List CatchHandler}
    {handler : CatchHandler} (begun : Begun types bytes start cursor done)
    (ran : nextHandler item types start count place bytes cursor = .ok handler after) :
    Begun types bytes start after (done ++ [handler]) := by
  obtain ⟨behind, entries, rfl, listed, -⟩ := begun
  obtain ⟨_, _, position, ran⟩ := bind_ok ran
  obtain ⟨rfl, rfl⟩ := EStateM.Result.ok.inj position
  have read := Reader.within_ok_iff.mp ran
  have moved := CatchHandler.passes_read types _ read
  exact ⟨by omega, entries ++ [⟨cursor.pos - start, handler⟩], by simp, listed.push behind read,
    .inr (by omega)⟩

theorem handlerList_ok {item : Nat} {handlers : List CatchHandler}
    (ran : handlerList item types bytes cursor = .ok handlers after) :
    ∃ entries : List Entry, handlers = entries.map Entry.handler ∧
      Listed types bytes cursor.pos bytes.size entries := by
  obtain ⟨start, here, position, ran⟩ := bind_ok ran
  obtain ⟨rfl, rfl⟩ := EStateM.Result.ok.inj position
  obtain ⟨count, first, counted, ran⟩ := bind_ok ran
  obtain ⟨size, same, limit, ran⟩ := bind_ok ran
  obtain ⟨rfl, rfl⟩ := EStateM.Result.ok.inj limit
  obtain ⟨_, there, checked, ran⟩ := bind_ok ran
  obtain ⟨all, last, collected, finished⟩ := bind_ok ran
  obtain ⟨rfl, rfl⟩ := EStateM.Result.ok.inj finished
  -- the number of handlers takes a byte, so the first handler is not at the start
  have behind : cursor.pos < there.pos := by
    have number := Passes.uleb128 counted
    have unmoved := Passes.ensure _ _ checked
    omega
  have none : Begun types bytes cursor.pos there [] :=
    ⟨behind, [], rfl, .nil .., .inl rfl⟩
  obtain ⟨-, entries, list, listed, room⟩ := Reader.collect_invariant (Begun types bytes cursor.pos)
    (fun _ _ _ _ next begun => begun.nextHandler next) collected none
  exact ⟨entries, list, listed.mono room⟩

/-! ### Try blocks -/

theorem yields_tryBlock (item units : Nat) :
    Yields (tryBlock item units) fun block => block.start + block.count ≤ units :=
  .after fun _ => .bind (.ensure _ _) fun _ inside => .pure inside

theorem mem_of_stray? {tries : List TryBlock} {handlers : List CatchHandler}
    (checked : stray? tries handlers = none) {block : TryBlock} (member : block ∈ tries) :
    ∃ handler ∈ handlers, handler.offset = block.handlerOffset := by
  have named := List.find?_eq_none.mp checked block member
  simpa using named

/-- The code that is guarded and the handlers, as they are read: either there is neither, or there
are try blocks that lie in the code and name a handler each. -/
theorem guards_ok {item units count : Nat} {tries : List TryBlock} {handlers : List CatchHandler}
    (ran : guards item types units count bytes cursor = .ok (tries, handlers) after) :
    (tries = [] ∧ handlers = []) ∨
      (tries ≠ [] ∧ (∀ block ∈ tries, block.start + block.count ≤ units) ∧
        (∀ block ∈ tries, ∃ handler ∈ handlers, handler.offset = block.handlerOffset) ∧
        ∃ middle, handlerList item types bytes middle = .ok handlers after) := by
  unfold guards at ran
  split at ran
  next none =>
    cases ran
    exact .inl ⟨rfl, rfl⟩
  next some =>
    obtain ⟨-, there, -, ran⟩ := bind_ok ran
    obtain ⟨blocks, start, read, ran⟩ := bind_ok ran
    obtain ⟨list, stop, listed, ran⟩ := bind_ok ran
    cases checked : stray? blocks.toList list with
    | some block =>
      rw [checked] at ran
      cases ran
    | none =>
      rw [checked] at ran
      cases ran
      have size := Reader.size_collect read
      refine .inr ⟨?_, ?_, fun block => mem_of_stray? checked, start, listed⟩
      · -- as many were read as were announced, and that was not none
        intro empty
        rw [← Array.length_toList, empty] at size
        exact some size.symm
      · simpa using Yields.collect count (fun _ => yields_tryBlock item units) read

/-! ### One handler for each try block -/

/-- Exactly one handler has the offset that a try block names, and it is the one that is looked up. -/
def OneHandler (item : CodeItem) (block : TryBlock) : Prop :=
  ∃ handler, (item.handlers.filter fun other => other.offset == block.handlerOffset) = [handler] ∧
    item.handlerFor? block = some handler

/-- The guarded code of an item is in order: the offsets of its handlers are positive and increasing,
its try blocks lie in the code and have one handler each, and without try blocks there are no
handlers. -/
structure Guarded (item : CodeItem) : Prop where
  positive : ∀ handler ∈ item.handlers, 1 ≤ handler.offset
  ordered : item.handlers.Pairwise fun a b => a.offset < b.offset
  inside : ∀ block ∈ item.tries, block.start + block.count ≤ item.code.length
  handled : ∀ block ∈ item.tries, item.OneHandler block
  bare : item.tries = [] → item.handlers = []

/-- What is true of the guarded code of every item that can be read, told by the distances at which its
handlers stand. A try block gets the nearest of the handlers whose distances agree with its offset in
32 bits, of which there is one at least. -/
structure HandledBy (entries : List Entry) (item : CodeItem) : Prop where
  handlers : item.handlers = entries.map Entry.handler
  inside : ∀ block ∈ item.tries, block.start + block.count ≤ item.code.length
  bare : item.tries = [] → item.handlers = []
  nearest : ∀ block ∈ item.tries, ∃ entry ∈ entries,
    item.handlerFor? block = some entry.handler ∧
      entry.distance % UInt32.size = block.handlerOffset ∧
      ∀ other ∈ entries, other.distance % UInt32.size = block.handlerOffset →
        entry.distance ≤ other.distance
  single : ∀ block ∈ item.tries, item.OneHandler block ↔
    ∃ entry, (entries.filter fun other => other.distance % UInt32.size == block.handlerOffset) =
      [entry]
  guarded : item.Guarded ↔ (∀ entry ∈ entries, entry.distance % UInt32.size ≠ 0) ∧
    entries.Pairwise fun a b => a.distance % UInt32.size < b.distance % UInt32.size

section Entries

variable {entries : List Entry} {item : CodeItem} {block : TryBlock}

theorem handlerFor?_eq_head? (item : CodeItem) (block : TryBlock) :
    item.handlerFor? block =
      (item.handlers.filter fun other => other.offset == block.handlerOffset).head? := by
  rw [handlerFor?, List.head?_filter]

theorem oneHandler_iff : item.OneHandler block ↔ ∃ handler,
    (item.handlers.filter fun other => other.offset == block.handlerOffset) = [handler] := by
  constructor
  · rintro ⟨handler, only, -⟩
    exact ⟨handler, only⟩
  · rintro ⟨handler, only⟩
    exact ⟨handler, only, by rw [handlerFor?_eq_head?, only, List.head?_cons]⟩

theorem filter_offset {handlers : List CatchHandler} {handler : CatchHandler}
    (ordered : handlers.Pairwise fun a b => a.offset < b.offset) (member : handler ∈ handlers) :
    (handlers.filter fun other => other.offset == handler.offset) = [handler] := by
  induction handlers with
  | nil => cases member
  | cons first rest ih =>
    obtain ⟨below, others⟩ := List.pairwise_cons.mp ordered
    rcases List.mem_cons.mp member with rfl | later
    · -- all that follow have a larger offset
      have none : (rest.filter fun other => other.offset == handler.offset) = [] := by
        rw [List.filter_eq_nil_iff]
        intro other listed
        have larger := below other listed
        simp only [beq_iff_eq]
        omega
      rw [List.filter_cons_of_pos (by simp), none]
    · have larger := below handler later
      rw [List.filter_cons_of_neg (by simp only [beq_iff_eq]; omega), ih others later]

variable (handlers : item.handlers = entries.map Entry.handler)
  (offset : ∀ entry ∈ entries, entry.handler.offset = entry.distance % UInt32.size)
include handlers offset

/-- The handlers that have an offset are those whose distances agree with it in 32 bits. -/
theorem filter_handlers (n : Nat) : (item.handlers.filter fun other => other.offset == n) =
    (entries.filter fun other => other.distance % UInt32.size == n).map Entry.handler := by
  rw [handlers, List.filter_map]
  refine congrArg _ (List.filter_congr fun entry member => ?_)
  rw [Function.comp_apply, offset entry member]

theorem oneHandler_iff_distance : item.OneHandler block ↔ ∃ entry,
    (entries.filter fun other => other.distance % UInt32.size == block.handlerOffset) =
      [entry] := by
  rw [oneHandler_iff, filter_handlers handlers offset]
  constructor
  · rintro ⟨handler, only⟩
    obtain ⟨entry, single, -⟩ := List.map_eq_singleton_iff.mp only
    exact ⟨entry, single⟩
  · rintro ⟨entry, only⟩
    exact ⟨entry.handler, by rw [only, List.map_singleton]⟩

theorem ordered_handlers_iff : (item.handlers.Pairwise fun a b => a.offset < b.offset) ↔
    entries.Pairwise fun a b => a.distance % UInt32.size < b.distance % UInt32.size := by
  rw [handlers, List.pairwise_map]
  exact List.Pairwise.iff_of_mem fun first second => by rw [offset _ first, offset _ second]

theorem positive_handlers_iff : (∀ handler ∈ item.handlers, 1 ≤ handler.offset) ↔
    ∀ entry ∈ entries, entry.distance % UInt32.size ≠ 0 := by
  rw [handlers, List.forall_mem_map]
  refine forall₂_congr fun entry member => ?_
  rw [offset entry member]
  omega

/-- The handler that is looked up is the first with its offset, and so the nearest. -/
theorem exists_nearest (ordered : entries.Pairwise fun a b => a.distance < b.distance)
    (named : ∃ handler ∈ item.handlers, handler.offset = block.handlerOffset) :
    ∃ entry ∈ entries, item.handlerFor? block = some entry.handler ∧
      entry.distance % UInt32.size = block.handlerOffset ∧
      ∀ other ∈ entries, other.distance % UInt32.size = block.handlerOffset →
        entry.distance ≤ other.distance := by
  have looked : item.handlerFor? block = (entries.find? fun other =>
      other.distance % UInt32.size == block.handlerOffset).map Entry.handler := by
    rw [handlerFor?_eq_head?, filter_handlers handlers offset, List.head?_map, List.head?_filter]
  cases found : entries.find? fun other => other.distance % UInt32.size == block.handlerOffset with
  | none =>
    -- then no handler has the offset either
    obtain ⟨handler, listed, same⟩ := named
    rw [handlers] at listed
    obtain ⟨entry, member, rfl⟩ := List.mem_map.mp listed
    rw [offset entry member] at same
    exact absurd (beq_iff_eq.mpr same) (List.find?_eq_none.mp found entry member)
  | some entry =>
    obtain ⟨agrees, before, behind, split, passed⟩ := List.find?_eq_some_iff_append.mp found
    rw [found, Option.map_some] at looked
    subst split
    refine ⟨entry, by simp, looked, beq_iff_eq.mp agrees, fun other member same => ?_⟩
    rcases List.mem_append.mp member with earlier | later
    · have differs := passed other earlier
      simp [same] at differs
    · rcases List.mem_cons.mp later with rfl | later
      · exact Nat.le_refl _
      · have larger := (List.pairwise_cons.mp (List.pairwise_append.mp ordered).2.1).1
        exact Nat.le_of_lt (larger other later)

end Entries

theorem HandledBy.of_listed {start : Nat} {entries : List Entry} {item : CodeItem}
    (listed : Listed types bytes start bytes.size entries)
    (handlers : item.handlers = entries.map Entry.handler)
    (inside : ∀ block ∈ item.tries, block.start + block.count ≤ item.code.length)
    (named : ∀ block ∈ item.tries,
      ∃ handler ∈ item.handlers, handler.offset = block.handlerOffset)
    (bare : item.tries = [] → item.handlers = []) : item.HandledBy entries where
  handlers := handlers
  inside := inside
  bare := bare
  nearest block member := exists_nearest handlers listed.offset listed.ordered (named block member)
  single _ _ := oneHandler_iff_distance handlers listed.offset
  guarded := by
    rw [← positive_handlers_iff handlers listed.offset, ← ordered_handlers_iff handlers listed.offset]
    constructor
    · intro guarded
      exact ⟨guarded.positive, guarded.ordered⟩
    · rintro ⟨positive, ordered⟩
      refine ⟨positive, ordered, inside, fun block member => oneHandler_iff.mpr ?_, bare⟩
      obtain ⟨handler, there, same⟩ := named block member
      exact ⟨handler, by rw [← same]; exact filter_offset ordered there⟩

theorem handledBy_of_read {strings : Nat} {item : CodeItem}
    (ran : read strings types bytes cursor = .ok item after) :
    ∃ start entries, Listed types bytes start bytes.size entries ∧ item.HandledBy entries := by
  obtain ⟨-, count, middle, guarded⟩ := read_ok ran
  rcases guards_ok guarded with ⟨noTries, noHandlers⟩ | ⟨some, inside, named, start, list⟩
  · have none : Listed types bytes 0 bytes.size [] := .nil ..
    exact ⟨0, [], none, .of_listed none noHandlers (by simp [noTries]) (by simp [noTries])
      fun _ => noHandlers⟩
  · obtain ⟨entries, handlers, listed⟩ := handlerList_ok list
    exact ⟨start.pos, entries, listed, .of_listed listed handlers inside named
      fun none => absurd none some⟩

/-- Distances that fit 32 bits are kept as they are. -/
theorem HandledBy.guarded_of_lt {start : Nat} {entries : List Entry} {item : CodeItem}
    (handled : item.HandledBy entries) (listed : Listed types bytes start bytes.size entries)
    (fits : ∀ entry ∈ entries, entry.distance < UInt32.size) : item.Guarded := by
  refine handled.guarded.mpr ⟨fun entry member => ?_, listed.ordered.imp_of_mem ?_⟩
  · have positive := listed.positive entry member
    rw [Nat.mod_eq_of_lt (fits entry member)]
    omega
  · intro a b first second before
    rwa [Nat.mod_eq_of_lt (fits a first), Nat.mod_eq_of_lt (fits b second)]

/-- Of every code item that can be read, from whatever buffer and position, the guarded code is as the
distances of its handlers tell: it is in order just if 32 bits keep the distances positive and apart,
as they do when the distances fit them, and hence in every buffer of at most four gibibytes. -/
theorem guarded_of_read (strings types : Nat) (bytes : Bytes) (cursor after : Cursor)
    (item : CodeItem) (ran : read strings types bytes cursor = .ok item after) :
    (∃ start entries, Listed types bytes start bytes.size entries ∧ item.HandledBy entries ∧
      ((∀ entry ∈ entries, entry.distance < UInt32.size) → item.Guarded)) ∧
    (bytes.size ≤ UInt32.size → item.Guarded) := by
  obtain ⟨start, entries, listed, handled⟩ := handledBy_of_read ran
  refine ⟨⟨start, entries, listed, handled, handled.guarded_of_lt listed⟩, fun small => ?_⟩
  refine handled.guarded_of_lt listed fun entry member => ?_
  have inside := listed.inside entry member
  omega

theorem guarded_of_read_sample :
    CodeItem.read 0 2 ([9, 9, 9] ++ guardedSample.bytes ++ [9]).toArray ⟨3, #[]⟩ =
        .ok guardedSample ⟨56, #[]⟩ ∧
      guardedSample.Guarded := by
  have size : guardedSample.bytes.length = 53 := by decide +kernel
  have read : CodeItem.read 0 2 ([9, 9, 9] ++ guardedSample.bytes ++ [9]).toArray ⟨3, #[]⟩ =
      .ok guardedSample ⟨3 + guardedSample.bytes.length, #[]⟩ :=
    guardedSample_writable.read_of_holds 0 ⟨[9, 9, 9], [9], by simp, rfl⟩ #[]
  have guarded := (guarded_of_read 0 2 _ _ _ _ read).2
  rw [List.size_toArray, List.length_append, List.length_append, size] at guarded
  rw [size] at read
  exact ⟨read, guarded (by decide)⟩

/-! ### Distances that 32 bits do not tell apart -/

/-- A handler for all exceptions, with `count` entries for the type 0. -/
def crowd (count : Nat) : CatchHandler := ⟨1, List.replicate count ⟨0, 0⟩, some 0⟩

/-- No code, one try block, and two handlers that both have the offset that it names. -/
def crowded (count : Nat) : CodeItem where
  offset := 0
  registers := 0
  ins := 0
  outs := 0
  debugInfo := none
  code := []
  tries := [⟨0, 0, 1⟩]
  handlers := [crowd count, ⟨1, [], some 0⟩]

/-- An entry for type 0 at address 0 takes two bytes, both of them zero. -/
theorem bytes_crowd (count : Nat) :
    (crowd count).bytes = Leb128.encodeSigned (-count) ++ List.replicate (count * 2) 0 ++ [0] := by
  have entry : TypedHandler.bytes ⟨0, 0⟩ = List.replicate 2 0 := by
    simp [TypedHandler.bytes, Leb128.encode]
  have last : Leb128.encode 0 = [0] := by simp [Leb128.encode]
  have size : (crowd count).size = -count := by simp [crowd, CatchHandler.size]
  rw [CatchHandler.bytes, size]
  simp only [crowd, List.flatMap_replicate, entry, List.flatten_replicate_replicate,
    Option.map_some, Option.getD_some, last]

theorem crowd_writable {count : Nat} (few : count ≤ 0x80000000) : (crowd count).Writable 1 where
  offset := by simp [crowd, UInt32.size]
  size := by
    simp only [crowd, CatchHandler.size, Option.isSome_some, if_true, List.length_replicate]
    omega
  handlers := by
    intro typed member
    rw [List.eq_of_mem_replicate member]
    simp [UInt32.size]
  catchAll := by simp [crowd, UInt32.size]
  handles := .inr rfl

theorem crowded_encodable {count : Nat} (few : count ≤ 0x80000000) :
    (crowded count).Encodable 1 where
  offset := by simp [crowded, UInt32.size]
  bare := rfl
  registers := by simp [crowded, UInt16.size]
  ins := by simp [crowded]
  outs := by simp [crowded, UInt16.size]
  code := by simp [crowded, UInt32.size]
  tryCount := by simp [crowded, UInt16.size]
  tries := by simp [crowded, UInt16.size]
  guarded := by simp [crowded]
  handlerCount := by simp [crowded, UInt32.size]
  handlers := by
    rw [crowded, List.forall_mem_cons, List.forall_mem_singleton]
    -- the second handler is the first one without its entries
    exact ⟨crowd_writable few, crowd_writable (Nat.zero_le _)⟩
  targets := by simp [crowded, crowd]

/-- Everything behind the size of the first handler is zero. -/
theorem bytes_crowded (count : Nat) : (crowded count).bytes =
    [0, 0, 0, 0, 0, 0, 1, 0] ++ [0, 0, 0, 0] ++ [0, 0, 0, 0] ++ [0, 0, 0, 0, 0, 0, 1, 0] ++ [2] ++
      Leb128.encodeSigned (-count) ++ List.replicate (count * 2 + 3) 0 := by
  have second : CatchHandler.bytes ⟨1, [], some 0⟩ = [0, 0] := by
    simp [CatchHandler.bytes, CatchHandler.size, Leb128.encode, Leb128.encodeSigned]
  have zeros : List.replicate (count * 2 + 3) (0 : UInt8) =
      List.replicate (count * 2) 0 ++ [0] ++ [0, 0] := by
    rw [← List.replicate_append_replicate, List.append_assoc]
    rfl
  rw [zeros]
  simp [crowded, CodeItem.bytes, guardBytes, CatchHandler.listBytes, bytes_crowd, second,
    Leb128.encode, toLittleEndian, TryBlock.bytes]

/-- If the first handler takes as many bytes as there are distances in 32 bits, the second one stands
at the same distance. -/
theorem read_crowded {count : Nat} (few : count ≤ 0x80000000)
    (full : (Leb128.encodeSigned (-count)).length + count * 2 + 1 = UInt32.size) :
    CodeItem.read 0 1 (crowded count).bytes.toArray ⟨0, #[]⟩ =
      .ok (crowded count) ⟨UInt32.size + 27, #[]⟩ := by
  have counted : CatchHandler.Counted (Leb128.encode 2).length (crowded count).handlers := by
    have one : (Leb128.encode 2).length = 1 := by simp [Leb128.encode]
    have length : (crowd count).bytes.length = UInt32.size := by
      rw [bytes_crowd, ← full]
      simp only [List.length_append, List.length_replicate, List.length_singleton]
    rw [one]
    exact ⟨rfl, by rw [length]; rfl, trivial⟩
  have holds : Bytes.Holds (crowded count).bytes.toArray (crowded count).offset
      (crowded count).bytes := ⟨[], [], by simp, rfl⟩
  have length : (crowded count).bytes.length = UInt32.size + 27 := by
    simp only [bytes_crowded, List.length_append, List.length_cons, List.length_nil,
      List.length_replicate]
    omega
  have read := (crowded_encodable few).read_of_holds counted 0 holds #[]
  rwa [length, show (crowded count).offset = 0 from rfl, Nat.zero_add] at read

theorem not_oneHandler_crowded (count : Nat) : ¬ (crowded count).OneHandler ⟨0, 0, 1⟩ := by
  rintro ⟨handler, only, -⟩
  simp [crowded, crowd] at only

/-- A code item without code, with one try block and two handlers. The first handler has so many
entries that it takes all the distances that 32 bits can tell. -/
def crowdedBytes : List UInt8 :=
  -- no registers, one try block, no debug information and no code
  [0, 0, 0, 0, 0, 0, 1, 0] ++ [0, 0, 0, 0] ++ [0, 0, 0, 0] ++
    -- the try block, and the number of handlers
    [0, 0, 0, 0, 0, 0, 1, 0] ++ [2] ++
    -- the size of the first handler, and the zeros of both
    [0x83, 0x80, 0x80, 0x80, 0x78] ++ List.replicate 4294967293 0

theorem guarded_of_read_crowded :
    CodeItem.read 0 1 crowdedBytes.toArray ⟨0, #[]⟩ =
        .ok (crowded 2147483645) ⟨4294967323, #[]⟩ ∧
      ¬ (crowded 2147483645).OneHandler ⟨0, 0, 1⟩ ∧ ¬ (crowded 2147483645).Guarded := by
  have size : Leb128.encodeSigned (-(2147483645 : Nat)) = [0x83, 0x80, 0x80, 0x80, 0x78] := by
    simp [Leb128.encodeSigned]
  have written : (crowded 2147483645).bytes = crowdedBytes := by
    rw [bytes_crowded, size, crowdedBytes]
  have read := @read_crowded 2147483645 (by decide) (by rw [size]; decide)
  rw [written] at read
  have both := not_oneHandler_crowded 2147483645
  exact ⟨read, both, fun guarded => both (guarded.handled _ (List.mem_singleton.mpr rfl))⟩

end CodeItem

end DexAtlas
