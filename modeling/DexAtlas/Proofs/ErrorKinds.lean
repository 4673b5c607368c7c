import DexAtlas.Proofs.Composition
import DexAtlas.Proofs.References

/-!
# Kinds of errors

Nearly all that can go wrong while an image is read or its code decoded is that the bytes are
malformed. Only the header can also be of an unsupported version, and only a raised flag makes the
reading of definitions stop. No reader ever finds the analysis itself inconsistent.
-/
namespace DexAtlas

namespace Reader

variable {α β : Type} {kinds : List ErrorKind}

/-- Every error that the reader raises, on any buffer and cursor, is of one of the kinds. -/
def Raises (reader : Reader α) (kinds : List ErrorKind) : Prop :=
  ∀ ⦃bytes cursor e after⦄, reader bytes cursor = .error e after → e.kind ∈ kinds

namespace Raises

theorem orUnsupported {reader : Reader α} (raises : Raises reader [.malformed]) :
    Raises reader [.malformed, .unsupported] := by
  intro bytes cursor e after failed
  exact List.mem_cons.mpr (.inl (List.mem_singleton.mp (raises failed)))

theorem pure (a : α) : Raises (Pure.pure a : Reader α) kinds := nofun

theorem bind {reader : Reader α} {next : α → Reader β} (first : Raises reader kinds)
    (others : ∀ a, Raises (next a) kinds) : Raises (reader >>= next) kinds := by
  intro bytes cursor e after failed
  change EStateM.bind (reader bytes) (fun a => next a bytes) cursor = _ at failed
  unfold EStateM.bind at failed
  split at failed
  next a middle _ => exact others a failed
  next e' middle raised =>
    cases failed
    exact first raised

theorem fail (cause : Cause) (allowed : cause.kind ∈ kinds) :
    Raises (Reader.fail cause : Reader α) kinds := by
  intro bytes cursor e after failed
  cases failed
  exact allowed

theorem ensure (condition : Prop) [Decidable condition] (cause : Cause)
    (allowed : cause.kind ∈ kinds) : Raises (Reader.ensure condition cause) kinds := by
  unfold Reader.ensure
  split
  · exact pure ()
  · exact fail cause allowed

theorem within {reader : Reader α} (context : Context) (inner : Raises reader kinds) :
    Raises (Reader.within context reader) kinds := by
  intro bytes cursor e after failed
  unfold Reader.within at failed
  split at failed
  next => cases failed
  next e' left raised =>
    cases failed
    rw [Error.kind_within]
    exact inner raised

theorem elsewhere {reader : Reader α} (pos : Nat) (inner : Raises reader kinds) :
    Raises (Reader.elsewhere pos reader) kinds := by
  intro bytes cursor e after failed
  unfold Reader.elsewhere at failed
  split at failed
  next => cases failed
  next e' left raised =>
    cases failed
    exact inner raised

theorem restoring {reader : Reader α} (inner : Raises reader kinds) :
    Raises (Reader.restoring reader) kinds := by
  intro bytes cursor e after failed
  unfold Reader.restoring at failed
  split at failed
  next => cases failed
  next e' left raised =>
    cases failed
    exact inner raised

theorem position : Raises Reader.position kinds := nofun

theorem seek (pos : Nat) : Raises (Reader.seek pos) kinds := nofun

theorem bufferSize : Raises Reader.bufferSize kinds := nofun

theorem raise (notice : Notice) : Raises (Reader.raise notice) kinds := nofun

theorem buffer : Raises (MonadReaderOf.read : Reader Bytes) kinds := nofun

theorem take (what : String) (count : Nat) : Raises (Reader.take what count) [.malformed] := by
  intro bytes cursor e after failed
  unfold Reader.take at failed
  dsimp only at failed
  split at failed
  · cases failed
  · cases failed
    exact .head _

theorem uint (what : String) (width : Nat) : Raises (Reader.uint what width) [.malformed] :=
  bind (take what width) fun _ => pure _

theorem unsignedFrom_error {room : Nat} {bytes : List UInt8} {cause : Cause}
    (failed : Leb128.unsignedFrom room bytes = .error cause) : cause.kind = .malformed := by
  induction room generalizing bytes with
  | zero =>
    cases failed
    rfl
  | succ room ih =>
    cases bytes with
    | nil =>
      cases failed
      rfl
    | cons byte rest =>
      unfold Leb128.unsignedFrom at failed
      dsimp only at failed
      split at failed
      · cases failed
        rfl
      split at failed
      · cases failed
      split at failed
      next => cases failed
      next cause' inner =>
        cases failed
        exact ih inner

theorem signedFrom_error {room : Nat} {bytes : List UInt8} {cause : Cause}
    (failed : Leb128.signedFrom room bytes = .error cause) : cause.kind = .malformed := by
  induction room generalizing bytes with
  | zero =>
    cases failed
    rfl
  | succ room ih =>
    cases bytes with
    | nil =>
      cases failed
      rfl
    | cons byte rest =>
      unfold Leb128.signedFrom at failed
      dsimp only at failed
      split at failed
      · cases failed
      split at failed
      next => cases failed
      next cause' inner =>
        cases failed
        exact ih inner

theorem leb {decode : List UInt8 → Except Cause (α × Nat)}
    (causes : ∀ bytes cause, decode bytes = .error cause → cause.kind = .malformed) :
    Raises (Reader.leb decode) [.malformed] := by
  intro bytes cursor e after failed
  unfold Reader.leb at failed
  split at failed
  next => cases failed
  next cause raised =>
    cases failed
    exact List.mem_singleton.mpr (causes _ cause raised)

theorem uleb128 : Raises Reader.uleb128 [.malformed] :=
  leb fun _ _ => unsignedFrom_error

theorem uleb128p1 : Raises Reader.uleb128p1 [.malformed] := by
  refine leb fun bytes cause failed => ?_
  unfold Leb128.lessOne at failed
  split at failed
  next => cases failed
  next inner raised =>
    cases failed
    exact unsignedFrom_error raised

theorem sleb128 : Raises Reader.sleb128 [.malformed] :=
  leb fun _ _ => signedFrom_error

theorem text : Raises Reader.text [.malformed] := by
  refine restoring (bind position fun start => bind uleb128 fun declared => bind position
    fun first => bind buffer fun bytes => ?_)
  split
  next stop _ =>
    split
    next decoded _ =>
      exact bind (ensure _ _ (.head _)) fun _ => bind (seek _) fun _ => pure _
    next => exact fail _ (.head _)
  next => exact fail _ (.head _)

end Raises

end Reader

open Reader (Composed Raises)

/-! ### Reading an image -/

theorem Reader.Composed.raises {α : Type} {reader : Reader α} (composed : Composed reader) :
    Raises reader [.malformed] := by
  induction composed with
  | pure a => exact .pure a
  | bind _ _ first others => exact .bind first others
  | fail malformed => exact .fail _ (List.mem_singleton.mpr malformed)
  | limit malformed _ _ others =>
    refine .bind .bufferSize fun size => ?_
    exact .bind (.ensure _ _ (List.mem_singleton.mpr (malformed size))) fun _ => others
  | within context _ inner => exact .within context inner
  | elsewhere pos _ inner => exact .elsewhere pos inner
  | position => exact .position
  | seek pos => exact .seek pos
  | raise notice => exact .raise notice
  | take what count => exact .take what count
  | uleb128 => exact .uleb128
  | uleb128p1 => exact .uleb128p1
  | sleb128 => exact .sleb128
  | text => exact .text

theorem Header.raises_read : Raises read [.malformed, .unsupported] := by
  have u4 : Raises Reader.u4 [.malformed, .unsupported] := (Raises.uint "u4" 4).orUnsupported
  have extent : Raises Header.extent [.malformed, .unsupported] :=
    .bind u4 fun size => .bind u4 fun offset => .pure _
  refine .bind .bufferSize fun size => ?_
  refine .bind (.ensure _ _ (.head _)) fun _ => ?_
  refine .bind (Raises.take _ 8).orUnsupported fun magic => ?_
  split
  next version _ =>
    -- the version and the byte order are what can be unsupported
    refine .bind (.ensure _ _ (.tail _ (.head _))) fun _ => ?_
    refine .bind u4 fun checksum => ?_
    refine .bind (Raises.take _ 20).orUnsupported fun signature => ?_
    refine .bind u4 fun fileSize => ?_
    refine .bind u4 fun headerSize => ?_
    refine .bind u4 fun endianTag => ?_
    refine .bind extent fun link => ?_
    refine .bind u4 fun mapOffset => ?_
    refine .bind extent fun strings => ?_
    refine .bind extent fun types => ?_
    refine .bind extent fun protos => ?_
    refine .bind extent fun fields => ?_
    refine .bind extent fun methods => ?_
    refine .bind extent fun classDefs => ?_
    refine .bind extent fun data => ?_
    refine .bind (.ensure _ _ (.tail _ (.head _))) fun _ => ?_
    refine .bind (.ensure _ _ (.head _)) fun _ => ?_
    refine .bind (.ensure _ _ (.head _)) fun _ => ?_
    exact .bind (.ensure _ _ (.head _)) fun _ => .pure _
  next => exact .fail _ (.head _)

namespace Container

theorem checkDef_error {pools : Pools} {seen : Std.HashSet Nat} {position : Nat}
    {classDef : ClassDef} {cause : Cause}
    (failed : checkDef pools seen position classDef = .error cause) : cause.kind = .malformed := by
  simp only [checkDef] at failed
  split at failed
  · cases failed
    rfl
  split at failed
  · cases failed
    rfl
  split at failed
  · cases failed
    rfl
  · cases failed

theorem raises_classDefsFrom (pools : Pools) (left : Nat) (seen : Std.HashSet Nat)
    (done : Array ClassDef) :
    Raises (classDefsFrom false pools left seen done) [.malformed] := by
  induction left generalizing seen done with
  | zero => exact .pure _
  | succ left ih =>
    -- the flag is not raised, so the check for it passes
    refine .bind (.pure ()) fun _ => ?_
    refine .bind (.within _ (ClassDef.composed_read pools.sizes).raises) fun classDef => ?_
    split
    next cause failed => exact .fail _ (List.mem_singleton.mpr (checkDef_error failed))
    next => exact ih _ _

theorem raises_behind (header : Header) : Raises (do
    let pools ← Tables.pools header
    Tables.enter "class_defs" 32 header.classDefs
    let classDefs ← classDefsFrom false pools header.classDefs.size ∅ #[]
    Reader.raise (.parsed header.version pools.strings.size pools.types.size pools.protos.size
      pools.fields.size pools.methods.size classDefs.size)
    let data ← MonadReaderOf.read
    return ({ header, pools, classDefs, data } : Container)) [.malformed] := by
  refine .bind (Tables.composed_pools header).raises fun pools => ?_
  refine .bind (Tables.composed_enter _ 32 header.classDefs).raises fun _ => ?_
  refine .bind (raises_classDefsFrom pools _ _ _) fun classDefs => ?_
  refine .bind (.raise _) fun _ => ?_
  exact .bind .buffer fun data => .pure _

theorem raises_read : Raises (read false) [.malformed, .unsupported] :=
  .bind Header.raises_read fun header => (raises_behind header).orUnsupported

/-- An image that is refused is malformed or of an unsupported version. -/
theorem parse_error {bytes : Bytes} {e : Error} (failed : (parse bytes false).outcome = .error e) :
    e.kind = .malformed ∨ e.kind = .unsupported := by
  unfold parse at failed
  split at failed
  next => cases failed
  next e' cursor raised =>
    cases failed
    simpa using raises_read raised

end Container

/-! ### Decoding instructions -/

/-- Every error that can come out is that something is malformed. -/
def Malformed {α : Type} (outcome : Except Error α) : Prop :=
  ∀ ⦃e⦄, outcome = .error e → e.kind = .malformed

namespace Malformed

variable {α β : Type}

theorem ok (a : α) : Malformed (.ok a : Except Error α) := nofun

theorem error {e : Error} (kind : e.kind = .malformed) : Malformed (.error e : Except Error α) := by
  intro e' same
  cases same
  exact kind

theorem bind {step : Except Error α} {next : α → Except Error β} (first : Malformed step)
    (others : ∀ a, Malformed (next a)) : Malformed (step >>= next) := by
  cases outcome : step with
  | ok a => exact others a
  | error e => exact error (first outcome)

end Malformed

namespace Instruction

variable {version pc : Nat} {resolve : Resolver} {opcode : Opcode}

theorem malformed_resolveIndex (resolver : ∀ kind index, Malformed (resolve kind index))
    (kind : Option PoolKind) (index : Nat) : Malformed (resolveIndex resolve kind index) := by
  unfold resolveIndex
  split
  next => exact .error rfl
  next kind =>
    cases outcome : resolve kind index with
    | ok reference => exact .ok _
    | error e => exact .error (resolver kind index outcome)

theorem malformed_listedRegisters (first registers : UInt16) :
    Malformed (listedRegisters first registers) := by
  unfold listedRegisters
  dsimp only
  split
  · exact .error rfl
  · exact .ok _

theorem malformed_operandsOf (resolver : ∀ kind index, Malformed (resolve kind index))
    (units : List UInt16) : Malformed (operandsOf resolve opcode units) := by
  have index := malformed_resolveIndex resolver
  have listed := malformed_listedRegisters
  unfold operandsOf
  dsimp only
  split
  -- a format has no index, one or two, and may have a list of registers before them
  all_goals first
    | exact .ok _
    | exact .error rfl
    | exact .bind (index _ _) fun _ => .ok _
    | exact .bind (listed _ _) fun _ => .bind (index _ _) fun _ => .ok _
    | exact .bind (index _ _) fun _ => .bind (index _ _) fun _ => .ok _
    | exact .bind (listed _ _) fun _ => .bind (index _ _) fun _ => .bind (index _ _) fun _ => .ok _

theorem malformed_needUnits (what : String) (need : Nat) (units : List UInt16) :
    Malformed (needUnits what pc need units) := by
  unfold needUnits
  split
  · exact .ok _
  · exact .error rfl

theorem malformed_bodyAt (resolver : ∀ kind index, Malformed (resolve kind index))
    (units : List UInt16) : Malformed (bodyAt resolve opcode pc units) := by
  unfold bodyAt
  split
  · refine .bind ?_ fun _ => .ok _
    exact .bind (malformed_needUnits _ _ _) fun _ => .bind (malformed_needUnits _ _ _)
      fun _ => .ok _
  · refine .bind ?_ fun _ => .ok _
    exact .bind (malformed_needUnits _ _ _) fun _ => .bind (malformed_needUnits _ _ _)
      fun _ => .ok _
  · refine .bind (.bind (malformed_needUnits _ _ _) fun _ => ?_) fun _ => .ok _
    dsimp only
    split
    · exact .bind (malformed_needUnits _ _ _) fun _ => .ok _
    · exact .bind (.error rfl) fun _ => .bind (malformed_needUnits _ _ _) fun _ => .ok _
  · refine .bind (malformed_needUnits _ _ _) fun _ => ?_
    split
    next => exact .ok _
    next e failed =>
      have kind := malformed_operandsOf resolver units failed
      exact .error kind

theorem malformed_opcodeAt (first : UInt16) : Malformed (opcodeAt version pc first) := by
  unfold opcodeAt
  dsimp only
  split
  · exact .ok _
  split
  · exact .error rfl
  · exact .error rfl

theorem malformed_decodeAt (resolver : ∀ kind index, Malformed (resolve kind index))
    (first : UInt16) (rest : List UInt16) : Malformed (decodeAt version resolve pc first rest) :=
  .bind (malformed_opcodeAt first) fun _ => .bind (malformed_bodyAt resolver _) fun _ => .ok _

theorem malformed_sweep (resolver : ∀ kind index, Malformed (resolve kind index)) {skip : Nat}
    (units : List UInt16) (done : Array Instruction) :
    Malformed (sweep version resolve pc skip units done) := by
  induction units generalizing pc skip done with
  | nil => exact .ok _
  | cons first rest ih =>
    cases skip with
    | succ skip => exact ih done
    | zero =>
      rw [sweep]
      split
      next => exact ih _
      next e failed => exact .error (malformed_decodeAt resolver first rest failed)

theorem malformed_decode (resolver : ∀ kind index, Malformed (resolve kind index))
    (code : List UInt16) : Malformed (decode version resolve code) := by
  refine .bind (malformed_sweep resolver code #[]) fun insns => ?_
  split
  · exact .ok _
  · exact .error rfl

end Instruction

theorem Pools.malformed_resolve (pools : Pools) (kind : PoolKind) (index : Nat) :
    Malformed (pools.resolve kind index) := by
  have found {α : Type} (pool : String) (entry : Option α) (make : α → Reference) :
      Malformed (Pools.resolve.found pool index entry make) := by
    unfold Pools.resolve.found
    split
    · exact .ok _
    · exact .error rfl
  cases kind with
  | string => exact found _ _ _
  | type => exact found _ _ _
  | field => exact found _ _ _
  | method => exact found _ _ _
  | proto => exact found _ _ _
  | callSite => exact .ok _
  | methodHandle => exact .ok _

theorem Container.malformed_disassemble (container : Container) (item : CodeItem) :
    Malformed (container.disassemble item) := by
  unfold disassemble
  split
  next => exact .ok _
  next e failed =>
    have kind := Instruction.malformed_decode container.pools.malformed_resolve item.code failed
    exact .error kind

end DexAtlas
