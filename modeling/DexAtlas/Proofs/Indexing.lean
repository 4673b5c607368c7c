import DexAtlas.Proofs.Loading

/-!
# No index out of range

An accepted image refers to nothing that it does not hold: every stored id has an entry in its pool,
so every look-up below the size of a pool finds one. The second half reads an image by direct
indexing, where an index out of range has no outcome at all, not even an error. That reading always
has an outcome, for images that are accepted and for those that are not, and it is the same.
-/
namespace DexAtlas

open Reader (Yields)

/-! ### What an accepted image holds -/

namespace Container

/-- All that an accepted image refers to is there, and no member is listed by two definitions. -/
structure Resolved (container : Container) : Prop extends Sound container where
  strings : ∀ id < container.pools.strings.size, ∃ text, container.pools.string? id = some text
  types : ∀ id < container.pools.types.size, ∃ text, container.pools.typeDescriptor? id = some text
  protos : ∀ id < container.pools.protos.size,
    ∃ text, container.pools.protoDescriptor? id = some text
  methods : ∀ id < container.pools.methods.size,
    ∃ member, container.pools.method? id = some member
  fields : ∀ id < container.pools.fields.size, ∃ member, container.pools.field? id = some member
  classNames : ∀ classDef ∈ container.classDefs, ∃ name, container.className? classDef = some name
  methodsOnce : container.classDefs.toList.Pairwise fun a b =>
    ∀ m ∈ a.methods, ∀ n ∈ b.methods, m.id ≠ n.id
  fieldsOnce : container.classDefs.toList.Pairwise fun a b =>
    ∀ m ∈ a.fields, ∀ n ∈ b.fields, m.id ≠ n.id

theorem Sound.resolved {container : Container} (sound : container.Sound) : container.Resolved := by
  obtain ⟨closed, inRange, own, distinct⟩ := sound
  refine ⟨⟨closed, inRange, own, distinct⟩, fun id inside => Pools.Closed.string? inside,
    fun id inside => closed.typeDescriptor? inside, fun id inside => closed.protoDescriptor? inside,
    fun id inside => closed.method? inside, fun id inside => closed.field? inside, ?_, ?_, ?_⟩
  · intro classDef member
    exact closed.typeDescriptor? (inRange classDef member).type
  · refine distinct.imp_of_mem fun {a b} aMember bMember differ => ?_
    exact (own a (by simpa using aMember)).methods_apart (own b (by simpa using bMember)) differ
  · refine distinct.imp_of_mem fun {a b} aMember bMember differ => ?_
    exact (own a (by simpa using aMember)).fields_apart (own b (by simpa using bMember)) differ

end Container

/-! ### Direct indexing -/

namespace Direct

variable {α β : Type}

/-- A reader that has no outcome once it has used an index out of range. -/
def Run (α : Type) : Type := Bytes → Cursor → Option (EStateM.Result Error Cursor α)

/-- A reader that uses no index directly. -/
def settle (reader : Reader α) : Run α := fun bytes cursor => some (reader bytes cursor)

/-- The entry under an index, which must be there. -/
def entry (found : Option α) : Run α := fun _ cursor => found.map (.ok · cursor)

instance : Monad Run where
  pure a := settle (pure a)
  bind first next := fun bytes cursor =>
    match first bytes cursor with
    | none => none
    | some (.ok a after) => next a bytes after
    | some (.error e after) => some (.error e after)

/-- The run always has an outcome, and it is the reader's. -/
def Agrees (run : Run α) (reader : Reader α) : Prop :=
  ∀ bytes cursor, run bytes cursor = some (reader bytes cursor)

theorem bind_at {first : Run α} {reader : Reader α} {next : α → Run β} {others : α → Reader β}
    {bytes : Bytes} {cursor : Cursor} (agrees : first bytes cursor = some (reader bytes cursor))
    (continues : ∀ a after, reader bytes cursor = .ok a after →
      next a bytes after = some (others a bytes after)) :
    (first >>= next) bytes cursor = some ((reader >>= others) bytes cursor) := by
  change (match first bytes cursor with
    | none => none
    | some (.ok a after) => next a bytes after
    | some (.error e after) => some (.error e after)) =
      some (EStateM.bind (reader bytes) (fun a => others a bytes) cursor)
  rw [agrees, EStateM.bind]
  cases ran : reader bytes cursor with
  | ok a after => exact continues a after ran
  | error e after => rfl

theorem entry_bind {found : Option α} {a : α} (there : found = some a) (next : α → Run β) :
    entry found >>= next = next a := by
  rw [there]
  rfl

namespace Agrees

theorem settle (reader : Reader α) : Agrees (Direct.settle reader) reader :=
  fun _ _ => rfl

/-- What the first reader yields may be used to see that the next one stays in range. -/
theorem bind {first : Run α} {reader : Reader α} {next : α → Run β} {others : α → Reader β}
    {promised : α → Prop} (agrees : Agrees first reader) (yields : Yields reader promised)
    (continues : ∀ a, promised a → Agrees (next a) (others a)) :
    Agrees (first >>= next) (reader >>= others) := by
  intro bytes cursor
  exact bind_at (agrees bytes cursor) fun a after ran => continues a (yields ran) bytes after

end Agrees

/-- The bytes from `start` up to `stop`, which must lie in the buffer in this order. -/
def slice (bytes : Bytes) (start stop : Nat) : Option Bytes :=
  if start ≤ stop ∧ stop ≤ bytes.size then some (bytes.extract start stop) else none

def take (what : String) (count : Nat) : Run Bytes := fun bytes cursor =>
  let stop := cursor.pos + count
  if stop ≤ bytes.size then
    (slice bytes cursor.pos stop).map fun found => .ok found { cursor with pos := stop }
  else some (.error (.of (.endOfStream what cursor.pos)) cursor)

theorem slice_of_le {bytes : Bytes} {start stop : Nat} (ordered : start ≤ stop)
    (inside : stop ≤ bytes.size) : slice bytes start stop = some (bytes.extract start stop) := by
  rw [slice, if_pos ⟨ordered, inside⟩]

theorem agrees_take (what : String) (count : Nat) :
    Agrees (take what count) (Reader.take what count) := by
  intro bytes cursor
  unfold take Reader.take
  dsimp only
  split
  next inside =>
    rw [slice_of_le (Nat.le_add_right _ _) inside]
    rfl
  next => rfl

/-- Puts the cursor back when the run fails. -/
def restoring (run : Run α) : Run α := fun bytes cursor =>
  (run bytes cursor).map fun
    | .ok a after => .ok a after
    | .error e left => .error e { left with pos := cursor.pos }

/-- String data, found in what is left of the buffer and then cut out of it. -/
def text : Run String := restoring do
  let start ← settle Reader.position
  let declared ← settle Reader.uleb128
  let first ← settle Reader.position
  let bytes ← settle MonadReaderOf.read
  let left ← entry (slice bytes first bytes.size)
  match Bytes.zeroFrom? left 0 with
  | none => settle (Reader.fail (.unterminatedText start))
  | some length =>
    let raw ← entry (slice bytes first (first + length))
    match Text.Mutf8.decode raw.toList with
    | none => settle (Reader.fail (.illFormedText start))
    | some decoded => settle do
      Reader.ensure (decoded.units = declared) (.unitCount start declared decoded.units)
      Reader.seek (first + length + 1)
      return String.ofList decoded.text

theorem unsignedFrom_ok {room value used : Nat} {bytes : List UInt8}
    (read : Leb128.unsignedFrom room bytes = .ok (value, used)) :
    1 ≤ used ∧ used ≤ bytes.length := by
  induction room generalizing bytes value used with
  | zero => cases read
  | succ room ih =>
    cases bytes with
    | nil => cases read
    | cons byte rest =>
      unfold Leb128.unsignedFrom at read
      dsimp only at read
      split at read
      · cases read
      split at read
      · cases read
        simp
      split at read
      next high more found =>
        cases read
        have further := ih found
        rw [List.length_cons]
        omega
      next => cases read

theorem uleb128_ok {bytes : Bytes} {cursor after : Cursor} {value : Nat}
    (read : Reader.uleb128 bytes cursor = .ok value after) : after.pos ≤ bytes.size := by
  unfold Reader.uleb128 Reader.leb at read
  split at read
  next number used decoded =>
    obtain ⟨rfl, rfl⟩ := EStateM.Result.ok.inj read
    obtain ⟨some, fits⟩ := unsignedFrom_ok decoded
    rw [Bytes.window, Array.length_toList, Array.size_extract] at fits
    dsimp only
    omega
  next => cases read

theorem search_ok {bytes : Bytes} {left start stop : Nat}
    (found : Bytes.zeroFrom?.search bytes left start = some stop) :
    start ≤ stop ∧ stop < bytes.size := by
  induction left generalizing start with
  | zero => cases found
  | succ left ih =>
    unfold Bytes.zeroFrom?.search at found
    split at found
    next zero =>
      obtain rfl := Option.some.inj found
      obtain ⟨inside, -⟩ := Array.getElem?_eq_some_iff.mp zero
      exact ⟨Nat.le_refl _, inside⟩
    next =>
      have further := ih found
      omega

theorem search_extract {bytes : Bytes} (first left start : Nat) :
    (Bytes.zeroFrom?.search (bytes.extract first bytes.size) left start).map (first + ·) =
      Bytes.zeroFrom?.search bytes left (first + start) := by
  induction left generalizing start with
  | zero => rfl
  | succ left ih =>
    have same : (bytes.extract first bytes.size)[start]? = bytes[first + start]? := by
      rw [Array.getElem?_extract]
      split
      · rfl
      · rw [Array.getElem?_eq_none (by omega)]
    unfold Bytes.zeroFrom?.search
    rw [same]
    split
    · rfl
    · exact ih (start + 1)

theorem zeroFrom?_extract (bytes : Bytes) (first : Nat) :
    (Bytes.zeroFrom? (bytes.extract first bytes.size) 0).map (first + ·) =
      bytes.zeroFrom? first := by
  rw [Bytes.zeroFrom?, Bytes.zeroFrom?, search_extract, Array.size_extract]
  simp

theorem restoring_at {run : Run α} {reader : Reader α} {bytes : Bytes} {cursor : Cursor}
    (agrees : run bytes cursor = some (reader bytes cursor)) :
    restoring run bytes cursor = some (Reader.restoring reader bytes cursor) := by
  rw [restoring, agrees, Reader.restoring]
  cases reader bytes cursor <;> rfl

theorem agrees_text : Agrees text Reader.text := by
  intro bytes cursor
  refine restoring_at (bind_at rfl ?_)
  intro start here position
  cases position
  refine bind_at rfl ?_
  intro declared after read
  -- the length was read from the buffer, so the text begins in it or at its end
  have inside := uleb128_ok read
  refine bind_at rfl ?_
  intro first here position
  cases position
  refine bind_at rfl ?_
  intro whole here same
  cases same
  rw [entry_bind (slice_of_le inside (Nat.le_refl _)),
    ← zeroFrom?_extract bytes after.pos]
  cases found : Bytes.zeroFrom? (bytes.extract after.pos bytes.size) 0 with
  | none => rfl
  | some length =>
    -- the zero was found in what is left of the buffer, so the text ends before its end
    have bounded := (search_ok found).2
    rw [Array.size_extract] at bounded
    rw [Option.map_some]
    dsimp only
    rw [entry_bind (slice_of_le (Nat.le_add_right _ _) (by omega))]
    cases Text.Mutf8.decode (bytes.extract after.pos (after.pos + length)).toList <;> rfl

/-! ### Class definitions by direct indexing -/

def foreignMethod? (pools : Pools) (classDef : ClassDef) : Option (Option EncodedMethod) :=
  classDef.methods.findM? fun m => do
    let item ← pools.methods[m.id]?
    return item.owner != classDef.type

def foreignField? (pools : Pools) (classDef : ClassDef) : Option (Option EncodedField) :=
  classDef.fields.findM? fun f => do
    let item ← pools.fields[f.id]?
    return item.owner != classDef.type

/-- The check of a definition; the descriptor of its class and the items of its members must be
there. -/
def checkDef (pools : Pools) (seen : Std.HashSet Nat) (position : Nat) (classDef : ClassDef) :
    Option (Except Cause Unit) := do
  let descriptor ← pools.typeDescriptor? classDef.type
  if seen.contains classDef.type then return .error (.duplicateClass descriptor position)
  match ← foreignMethod? pools classDef with
  | some m => return .error (.foreignMethod position descriptor m.id)
  | none =>
    match ← foreignField? pools classDef with
    | some f => return .error (.foreignField position descriptor f.id)
    | none => return .ok ()

def classDefsFrom (cancelled : Bool) (pools : Pools) :
    Nat → Std.HashSet Nat → Array ClassDef → Run (Array ClassDef)
  | 0, _, done => settle (pure done)
  | left + 1, seen, done => do
    settle (Reader.ensure (cancelled = false) .cancelled)
    let classDef ← settle (Reader.within (.classDef done.size (pools.typeDescriptor? done.size))
      (ClassDef.read pools.sizes))
    match ← entry (checkDef pools seen done.size classDef) with
    | .error cause => settle (Reader.fail cause)
    | .ok () => classDefsFrom cancelled pools left (seen.insert classDef.type) (done.push classDef)

def read (cancelled : Bool) : Run Container := do
  let header ← settle Header.read
  let pools ← settle (Tables.pools header)
  settle (Tables.enter "class_defs" 32 header.classDefs)
  let classDefs ← classDefsFrom cancelled pools header.classDefs.size ∅ #[]
  settle do
    Reader.raise (.parsed header.version pools.strings.size pools.types.size pools.protos.size
      pools.fields.size pools.methods.size classDefs.size)
    let data ← MonadReaderOf.read
    return { header, pools, classDefs, data }

def parse (bytes : Bytes) (cancelled : Bool) : Option (Journaled Error Container) :=
  (read cancelled bytes ⟨0, #[]⟩).map fun
    | .ok container cursor => ⟨.ok container, cursor.notices⟩
    | .error e cursor => ⟨.error e, cursor.notices⟩

theorem findM?_eq {p : α → Option Bool} {q : α → Bool} {list : List α}
    (same : ∀ a ∈ list, p a = some (q a)) : list.findM? p = some (list.find? q) := by
  induction list with
  | nil => rfl
  | cons a rest ih =>
    rw [List.findM?, same a (by simp), List.find?]
    cases q a with
    | true => rfl
    | false => exact ih fun b member => same b (by simp [member])

theorem foreignMethod?_eq {pools : Pools} {classDef : ClassDef}
    (inRange : classDef.InRange pools.sizes) :
    foreignMethod? pools classDef = some (Container.foreignMethod? pools classDef) := by
  apply findM?_eq
  intro m member
  have inside : m.id < pools.methods.size := inRange.methods member
  rw [Array.getElem?_eq_getElem inside]
  simp [bne]

theorem foreignField?_eq {pools : Pools} {classDef : ClassDef}
    (inRange : classDef.InRange pools.sizes) :
    foreignField? pools classDef = some (Container.foreignField? pools classDef) := by
  apply findM?_eq
  intro f member
  have inside : f.id < pools.fields.size := inRange.fields member
  rw [Array.getElem?_eq_getElem inside]
  simp [bne]

theorem checkDef_eq {pools : Pools} (closed : pools.Closed) {seen : Std.HashSet Nat} {position : Nat}
    {classDef : ClassDef} (inRange : classDef.InRange pools.sizes) :
    checkDef pools seen position classDef = some (Container.checkDef pools seen position classDef) := by
  -- the running check has a default where a descriptor is missing, and never uses it
  obtain ⟨descriptor, named⟩ := closed.typeDescriptor? inRange.type
  unfold checkDef Container.checkDef
  rw [named, foreignMethod?_eq inRange, foreignField?_eq inRange]
  dsimp only [Option.getD_some]
  split
  · rfl
  · cases Container.foreignMethod? pools classDef with
    | some m => rfl
    | none => cases Container.foreignField? pools classDef <;> rfl

theorem agrees_classDefsFrom (cancelled : Bool) {pools : Pools} (closed : pools.Closed) (left : Nat)
    (seen : Std.HashSet Nat) (done : Array ClassDef) :
    Agrees (classDefsFrom cancelled pools left seen done)
      (Container.classDefsFrom cancelled pools left seen done) := by
  induction left generalizing seen done with
  | zero => exact .settle _
  | succ left ih =>
    refine .bind (.settle _) (.always _) fun _ _ =>
      .bind (.settle _) (.within _ (ClassDef.yields_read pools.sizes)) fun classDef inRange => ?_
    rw [entry_bind (checkDef_eq closed inRange)]
    cases Container.checkDef pools seen done.size classDef with
    | error cause => exact .settle _
    | ok => exact ih _ _

theorem agrees_read (cancelled : Bool) : Agrees (read cancelled) (Container.read cancelled) := by
  refine .bind (.settle _) (.always _) fun header _ =>
    .bind (.settle _) (Tables.yields_pools header) fun pools closed =>
    .bind (.settle _) (.always _) fun _ _ =>
    .bind (agrees_classDefsFrom cancelled closed _ _ _) (.always _) fun classDefs _ => .settle _

theorem parse_eq (bytes : Bytes) (cancelled : Bool) :
    parse bytes cancelled = some (Container.parse bytes cancelled) := by
  rw [parse, agrees_read, Container.parse, Reader.runAt]
  cases Container.read cancelled bytes ⟨0, #[]⟩ <;> rfl

end Direct

/-- An accepted image refers only to what it holds, and no index is out of range while any image is
read: not into the pools when definitions are checked, and not into the buffer where bytes and texts
are taken from it. -/
theorem Container.parse_in_range (bytes : Bytes) (cancelled : Bool) :
    (∀ container, (parse bytes cancelled).outcome = .ok container → container.Resolved) ∧
      Direct.parse bytes cancelled = some (parse bytes cancelled) ∧
      (∀ what count cursor,
        Direct.take what count bytes cursor = some (Reader.take what count bytes cursor)) ∧
      ∀ cursor, Direct.text bytes cursor = some (Reader.text bytes cursor) := by
  refine ⟨?_, Direct.parse_eq bytes cancelled, ?_, Direct.agrees_text bytes⟩
  · intro container parsed
    exact (sound_of_parse parsed).resolved
  · intro what count cursor
    exact Direct.agrees_take what count bytes cursor

/-! ### An image with every kind of id

The class has a superclass, an interface and a source file, and its method a handler for exceptions
of one type and a named parameter. -/

namespace FullSample

def pools : Pools where
  strings := #["LA;", "V", "f", "LB;", "A.java", "x"]
  types := #[0, 1, 3]
  protos := #[⟨1, 1, [2]⟩]
  fields := #[⟨0, 0, 2⟩]
  methods := #[⟨0, 0, 2⟩]

def code : CodeItem where
  offset := 260
  registers := 1
  ins := 0
  outs := 0
  debugInfo := some ⟨1, [some 5, none]⟩
  code := [0x000e]
  tries := [⟨0, 1, 1⟩]
  handlers := [⟨1, [⟨2, 0⟩], some 0⟩]

def classDef : ClassDef where
  type := 0
  access := 1
  superclass := some 2
  interfaces := [2]
  sourceFile := some 4
  annotationsOffset := 0
  staticValuesOffset := 0
  data := some
    { staticFields := [⟨0, 9⟩]
      instanceFields := []
      directMethods := [⟨0, 9, some code⟩]
      virtualMethods := [] }

/-- The class data stands behind the tables and their data, then the code and the debug information;
the offsets of the first and the last are put in. -/
def bytes : Bytes :=
  ((Layout.image 35 pools [classDef]).set 200 250 ++
    ((classDef.data.map ClassData.bytes).getD []) ++ (code.bytes.set 8 37).set 9 1 ++
    [1, 2, 6, 0]).toArray

def header : Header := Layout.header 35 pools [classDef] 42

theorem parsed :
    (Container.parse bytes false).outcome = .ok ⟨header, pools, #[classDef], bytes⟩ := by
  have ran : ∃ cursor, Container.readUnchecked 1 bytes ⟨0, #[]⟩ =
      .ok (header, pools, [classDef]) cursor :=
    Reader.ok_of_check (by decide +kernel)
  have accepted : Container.checkDef pools ∅ 0 classDef = .ok () := by
    simp only [Container.checkDef, Std.HashSet.contains_empty]
    rfl
  exact Container.parse_of_readUnchecked ran ⟨accepted, trivial⟩

end FullSample

theorem Container.parse_in_range_full :
    (parse FullSample.bytes false).outcome =
        .ok ⟨FullSample.header, FullSample.pools, #[FullSample.classDef], FullSample.bytes⟩ ∧
      Resolved ⟨FullSample.header, FullSample.pools, #[FullSample.classDef], FullSample.bytes⟩ ∧
      Direct.parse FullSample.bytes false = some (parse FullSample.bytes false) :=
  ⟨FullSample.parsed, (parse_in_range FullSample.bytes false).1 _ FullSample.parsed,
    (parse_in_range FullSample.bytes false).2.1⟩

end DexAtlas
