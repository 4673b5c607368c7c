import DexAtlas.Proofs.Chunks
import DexAtlas.Proofs.Composition
import DexAtlas.Proofs.Indexing

/-!
# Trailing bytes

An accepted image may be followed by anything. Readers look at the size of the buffer in many
places, to refuse what reaches past its end or counts more than could be there; each of these checks
passes all the more if the buffer is longer. So whatever a reader returns it also returns from the
longer buffer, with the same cursor and the same notices. Nothing is said of readers that fail: what
was cut off may be there in the longer buffer.
-/
namespace DexAtlas

/-! ### Longer buffers -/

namespace Bytes

variable {bytes more : Bytes}

theorem extract_append_left {start stop : Nat} (inside : stop ≤ bytes.size) :
    (bytes ++ more).extract start stop = bytes.extract start stop := by
  rw [Array.extract_append, Nat.sub_eq_zero_of_le inside, Array.extract_zero, Array.append_empty]

/-- A window on the longer buffer shows what it showed, and perhaps more. -/
theorem window_append (bytes more : Bytes) (start count : Nat) :
    ∃ extra, (bytes ++ more).window start count = bytes.window start count ++ extra := by
  rw [window_eq, window_eq, Array.toList_append, List.drop_append, List.take_append]
  exact ⟨_, rfl⟩

/-- A zero that was found is still the first one. -/
theorem search_append {left start stop : Nat}
    (found : zeroFrom?.search bytes left start = some stop) (extra : Nat) :
    zeroFrom?.search (bytes ++ more) (left + extra) start = some stop := by
  induction left generalizing start with
  | zero => cases found
  | succ left ih =>
    -- the search went no further than the zero, so it never left the shorter buffer
    obtain ⟨ordered, inside⟩ := Direct.search_ok found
    have same : (bytes ++ more)[start]? = bytes[start]? :=
      Array.getElem?_append_left (by omega)
    rw [Nat.succ_add_eq_add_succ, Nat.add_succ]
    unfold zeroFrom?.search at found ⊢
    rw [same]
    split
    next zero => rwa [if_pos zero] at found
    next other =>
      rw [if_neg other] at found
      exact ih found

theorem zeroFrom?_append {start stop : Nat} (found : bytes.zeroFrom? start = some stop) :
    (bytes ++ more).zeroFrom? start = some stop := by
  obtain ⟨ordered, inside⟩ := Direct.search_ok found
  have longer : (bytes ++ more).size - start = bytes.size - start + more.size := by
    rw [Array.size_append]
    omega
  rw [zeroFrom?, longer]
  exact search_append found more.size

end Bytes

namespace Leb128

theorem unsignedFrom_append {room : Nat} {bytes : List UInt8} {result : Nat × Nat}
    (read : unsignedFrom room bytes = .ok result) (extra : List UInt8) :
    unsignedFrom room (bytes ++ extra) = .ok result := by
  induction room generalizing bytes result with
  | zero => cases read
  | succ room ih =>
    cases bytes with
    | nil => cases read
    | cons byte rest =>
      rw [List.cons_append]
      unfold unsignedFrom at read ⊢
      dsimp only at read ⊢
      split
      next overflow => rwa [if_pos overflow] at read
      next small =>
        rw [if_neg small] at read
        split
        next last => rwa [if_pos last] at read
        next further =>
          rw [if_neg further] at read
          cases found : unsignedFrom room rest with
          | error cause =>
            rw [found] at read
            cases read
          | ok high =>
            rw [found] at read
            rw [ih found]
            exact read

theorem signedFrom_append {room : Nat} {bytes : List UInt8} {result : Int × Nat}
    (read : signedFrom room bytes = .ok result) (extra : List UInt8) :
    signedFrom room (bytes ++ extra) = .ok result := by
  induction room generalizing bytes result with
  | zero => cases read
  | succ room ih =>
    cases bytes with
    | nil => cases read
    | cons byte rest =>
      rw [List.cons_append]
      unfold signedFrom at read ⊢
      dsimp only at read ⊢
      split
      next last => rwa [if_pos last] at read
      next further =>
        rw [if_neg further] at read
        cases found : signedFrom room rest with
        | error cause =>
          rw [found] at read
          cases read
        | ok high =>
          rw [found] at read
          rw [ih found]
          exact read

theorem lessOne_append {bytes : List UInt8} {result : Int × Nat}
    (read : lessOne bytes = .ok result) (extra : List UInt8) :
    lessOne (bytes ++ extra) = .ok result := by
  unfold lessOne at read ⊢
  cases found : unsigned bytes with
  | error cause =>
    rw [found] at read
    cases read
  | ok value =>
    rw [found] at read
    rw [show unsigned (bytes ++ extra) = .ok value from unsignedFrom_append found extra]
    exact read

end Leb128

/-! ### Readers -/

namespace Reader

variable {α β γ δ : Type} {bytes more : Bytes}

/-- What the first reader returns from the buffer, the second returns from the longer one, up to the
relation and with the same cursor. -/
def Carries (bytes more : Bytes) (related : α → β → Prop) (reader : Reader α)
    (longer : Reader β) : Prop :=
  ∀ ⦃cursor a after⦄, reader bytes cursor = .ok a after →
    ∃ b, longer (bytes ++ more) cursor = .ok b after ∧ related a b

/-- What the reader returns does not depend on what is behind the buffer. -/
abbrev Steady (bytes more : Bytes) (reader : Reader α) : Prop :=
  Carries bytes more Eq reader reader

theorem Carries.bind {related : α → β → Prop} {result : γ → δ → Prop} {reader : Reader α}
    {longer : Reader β} {next : α → Reader γ} {nextLonger : β → Reader δ}
    (first : Carries bytes more related reader longer)
    (others : ∀ a b, related a b → Carries bytes more result (next a) (nextLonger b)) :
    Carries bytes more result (reader >>= next) (longer >>= nextLonger) := by
  intro cursor c after ran
  obtain ⟨a, middle, begun, ended⟩ := bind_ok ran
  obtain ⟨b, begunToo, relatedHere⟩ := first begun
  obtain ⟨d, endedToo, relatedThere⟩ := others a b relatedHere ended
  exact ⟨d, (bind_of_ok begunToo).trans endedToo, relatedThere⟩

/-- A steady reader, and then others that may differ. -/
theorem Carries.after {result : γ → δ → Prop} {reader : Reader α} {next : α → Reader γ}
    {nextLonger : α → Reader δ} (first : Steady bytes more reader)
    (others : ∀ a, Carries bytes more result (next a) (nextLonger a)) :
    Carries bytes more result (reader >>= next) (reader >>= nextLonger) := by
  apply first.bind
  rintro a _ rfl
  exact others a

/-- The size of the buffer grows. -/
theorem Carries.bufferSize : Carries bytes more (· ≤ ·) Reader.bufferSize Reader.bufferSize := by
  intro cursor size after ran
  cases ran
  exact ⟨_, rfl, by simp⟩

theorem Carries.buffer : Carries bytes more (fun a b => a = bytes ∧ b = bytes ++ more)
    (MonadReaderOf.read : Reader Bytes) MonadReaderOf.read := by
  intro cursor whole after ran
  cases ran
  exact ⟨_, rfl, rfl, rfl⟩

theorem Carries.pure {related : α → β → Prop} {a : α} {b : β} (holds : related a b) :
    Carries bytes more related (Pure.pure a : Reader α) (Pure.pure b) := by
  intro cursor result after ran
  cases ran
  exact ⟨b, rfl, holds⟩

/-- A check that the longer buffer passes too. -/
theorem Carries.ensure {p q : Prop} [Decidable p] [Decidable q] {cause other : Cause}
    (implied : p → q) : Carries bytes more Eq (Reader.ensure p cause) (Reader.ensure q other) := by
  intro cursor result after ran
  unfold Reader.ensure at ran
  split at ran
  next holds => exact ⟨result, by rw [Reader.ensure, if_pos (implied holds)]; exact ran, rfl⟩
  next => cases ran

namespace Steady

theorem pure (a : α) : Steady bytes more (Pure.pure a : Reader α) := Carries.pure rfl

theorem bind {reader : Reader α} {next : α → Reader β} (first : Steady bytes more reader)
    (others : ∀ a, Steady bytes more (next a)) : Steady bytes more (reader >>= next) :=
  Carries.after first others

theorem fail (cause : Cause) : Steady bytes more (Reader.fail cause : Reader α) := nofun

theorem ensure (condition : Prop) [Decidable condition] (cause : Cause) :
    Steady bytes more (Reader.ensure condition cause) :=
  Carries.ensure id

/-- A bound on the size of the buffer, which a longer buffer keeps all the more. -/
theorem limit {allowed : Nat → Prop} [∀ size, Decidable (allowed size)] {cause : Nat → Cause}
    {next : Reader α} (upward : ∀ size larger, size ≤ larger → allowed size → allowed larger)
    (others : Steady bytes more next) :
    Steady bytes more (Reader.bufferSize >>= fun size =>
      Reader.ensure (allowed size) (cause size) >>= fun _ => next) :=
  Carries.bind .bufferSize fun size larger grown =>
    Carries.bind (.ensure (upward size larger grown)) fun _ _ _ => others

theorem within {reader : Reader α} (context : Context) (inner : Steady bytes more reader) :
    Steady bytes more (Reader.within context reader) := by
  intro cursor a after ran
  obtain ⟨_, again, rfl⟩ := inner (within_ok_iff.mp ran)
  exact ⟨a, within_ok_iff.mpr again, rfl⟩

theorem elsewhere {reader : Reader α} (pos : Nat) (inner : Steady bytes more reader) :
    Steady bytes more (Reader.elsewhere pos reader) := by
  intro cursor a after ran
  obtain ⟨left, there, moved⟩ := elsewhere_ok_iff.mp ran
  obtain ⟨_, again, rfl⟩ := inner there
  exact ⟨a, elsewhere_ok_iff.mpr ⟨left, again, moved⟩, rfl⟩

theorem restoring {reader : Reader α} (inner : Steady bytes more reader) :
    Steady bytes more (Reader.restoring reader) := by
  intro cursor a after ran
  obtain ⟨_, again, rfl⟩ := inner (restoring_ok_iff.mp ran)
  exact ⟨a, restoring_ok_iff.mpr again, rfl⟩

theorem position : Steady bytes more Reader.position := fun _ _ _ ran => ⟨_, ran, rfl⟩

theorem seek (pos : Nat) : Steady bytes more (Reader.seek pos) := fun _ _ _ ran => ⟨_, ran, rfl⟩

theorem raise (notice : Notice) : Steady bytes more (Reader.raise notice) :=
  fun _ _ _ ran => ⟨_, ran, rfl⟩

theorem take (what : String) (count : Nat) : Steady bytes more (Reader.take what count) := by
  intro cursor a after ran
  unfold Reader.take at ran ⊢
  dsimp only at ran ⊢
  split at ran
  next inside =>
    have longer : cursor.pos + count ≤ (bytes ++ more).size := by
      rw [Array.size_append]
      omega
    rw [if_pos longer, Bytes.extract_append_left inside]
    exact ⟨a, ran, rfl⟩
  next => cases ran

theorem uint (what : String) (width : Nat) : Steady bytes more (Reader.uint what width) :=
  bind (take what width) fun _ => pure _

theorem leb {decode : List UInt8 → Except Cause (α × Nat)}
    (appended : ∀ list result, decode list = .ok result → ∀ extra,
      decode (list ++ extra) = .ok result) : Steady bytes more (Reader.leb decode) := by
  intro cursor a after ran
  unfold Reader.leb at ran ⊢
  obtain ⟨extra, longer⟩ := Bytes.window_append bytes more cursor.pos Leb128.maxBytes
  split at ran
  next value used decoded =>
    rw [longer, appended _ _ decoded extra]
    exact ⟨a, ran, rfl⟩
  next => cases ran

theorem uleb128 : Steady bytes more Reader.uleb128 :=
  leb fun _ _ => Leb128.unsignedFrom_append

theorem uleb128p1 : Steady bytes more Reader.uleb128p1 :=
  leb fun _ _ => Leb128.lessOne_append

theorem sleb128 : Steady bytes more Reader.sleb128 :=
  leb fun _ _ => Leb128.signedFrom_append

theorem text : Steady bytes more Reader.text := by
  refine restoring (bind position fun start => bind uleb128 fun declared => bind position
    fun first => Carries.bind .buffer ?_)
  rintro whole _ ⟨rfl, rfl⟩
  cases found : Bytes.zeroFrom? whole first with
  | none =>
    -- without its end the text was not read at all
    exact fun _ _ _ ran => nomatch ran
  | some stop =>
    -- the text and its end are found where they were
    obtain ⟨-, inside⟩ := Direct.search_ok found
    rw [Bytes.zeroFrom?_append found]
    dsimp only
    rw [Bytes.extract_append_left (Nat.le_of_lt inside)]
    split
    next decoded _ => exact bind (ensure _ _) fun _ => bind (seek _) fun _ => pure _
    next => exact fail _

end Steady

end Reader

open Reader (Carries Composed Steady)

/-! ### Reading an image -/

variable {bytes more : Bytes}

theorem Reader.Composed.steady {α : Type} {reader : Reader α} (composed : Composed reader) :
    Steady bytes more reader := by
  induction composed with
  | pure a => exact .pure a
  | bind _ _ first others => exact .bind first others
  | fail _ => exact .fail _
  | limit _ upward _ others => exact .limit upward others
  | within context _ inner => exact .within context inner
  | elsewhere pos _ inner => exact .elsewhere pos inner
  | position => exact .position
  | seek pos => exact .seek pos
  | raise notice => exact .raise notice
  | take what count => exact .take what count
  | uleb128 => exact .uleb128
  | uleb128p1 => exact .uleb128p1
  | sleb128 => exact .sleb128
  | text => exact .text

/-- The header is refused if it declares more bytes than there are, and never for fewer. -/
theorem Header.steady_read : Steady bytes more read := by
  have u4 : Steady bytes more Reader.u4 := .uint "u4" 4
  have extent : Steady bytes more Header.extent :=
    .bind u4 fun size => .bind u4 fun offset => .pure _
  refine Carries.bind .bufferSize fun size larger grown => ?_
  have enough {needed : Nat} (fits : needed ≤ size) : needed ≤ larger := Nat.le_trans fits grown
  refine Carries.bind (.ensure enough) fun _ _ _ => ?_
  refine .after (.take _ 8) fun magic => ?_
  split
  next version _ =>
    refine .after (.ensure _ _) fun _ => ?_
    refine .after u4 fun checksum => ?_
    refine .after (.take _ 20) fun signature => ?_
    refine .after u4 fun fileSize => ?_
    refine .after u4 fun headerSize => ?_
    refine .after u4 fun endianTag => ?_
    refine .after extent fun link => ?_
    refine .after u4 fun mapOffset => ?_
    refine .after extent fun strings => ?_
    refine .after extent fun types => ?_
    refine .after extent fun protos => ?_
    refine .after extent fun fields => ?_
    refine .after extent fun methods => ?_
    refine .after extent fun classDefs => ?_
    refine .after extent fun data => ?_
    -- the last of the checks looks at the size again
    refine .after (.ensure _ _) fun _ => ?_
    refine .after (.ensure _ _) fun _ => ?_
    refine .after (.ensure _ _) fun _ => ?_
    exact .bind (.ensure enough) fun _ _ _ => .pure rfl
  next => exact Steady.fail _

namespace Container

theorem steady_classDefsFrom (cancelled : Bool) (pools : Pools) (left : Nat)
    (seen : Std.HashSet Nat) (done : Array ClassDef) :
    Steady bytes more (classDefsFrom cancelled pools left seen done) := by
  induction left generalizing seen done with
  | zero => exact .pure _
  | succ left ih =>
    refine .bind (.ensure _ _) fun _ => ?_
    refine .bind (.within _ (ClassDef.composed_read pools.sizes).steady) fun classDef => ?_
    split
    next => exact .fail _
    next => exact ih _ _

/-- The same container, but for the bytes that it was read from. -/
theorem carries_read (more : Bytes) (cancelled : Bool) :
    Carries bytes more (fun short long => long = { short with data := bytes ++ more })
      (read cancelled) (read cancelled) := by
  refine .after Header.steady_read fun header => ?_
  refine .after (Tables.composed_pools header).steady fun pools => ?_
  refine .after (Tables.composed_enter _ 32 header.classDefs).steady fun _ => ?_
  refine .after (steady_classDefsFrom cancelled pools _ _ _) fun classDefs => ?_
  refine .after (.raise _) fun _ => .bind .buffer ?_
  rintro _ _ ⟨rfl, rfl⟩
  exact .pure rfl

/-- Bytes behind an accepted image change nothing but the bytes that are kept with it: not what is
read, and not what is noticed on the way. -/
theorem parse_append {cancelled : Bool} {container : Container}
    (parsed : (parse bytes cancelled).outcome = .ok container) (more : Bytes) :
    parse (bytes ++ more) cancelled =
      ⟨.ok { container with data := bytes ++ more }, (parse bytes cancelled).notices⟩ := by
  unfold parse at parsed ⊢
  cases ran : (read cancelled).runAt bytes 0 with
  | error e cursor =>
    rw [ran] at parsed
    cases parsed
  | ok found cursor =>
    rw [ran] at parsed
    cases parsed
    obtain ⟨_, again, rfl⟩ := carries_read more cancelled ran
    rw [Reader.runAt, again]

/-- The bytes behind the image could be read as another header. -/
theorem parse_append_full :
    (parse FullSample.bytes false).outcome =
        .ok ⟨FullSample.header, FullSample.pools, #[FullSample.classDef], FullSample.bytes⟩ ∧
      (parse (FullSample.bytes ++ FullSample.bytes) false).outcome =
        .ok ⟨FullSample.header, FullSample.pools, #[FullSample.classDef],
          FullSample.bytes ++ FullSample.bytes⟩ :=
  ⟨FullSample.parsed, by rw [parse_append FullSample.parsed FullSample.bytes]⟩

end Container

end DexAtlas
