import DexAtlas.Container.Basic
import DexAtlas.Proofs.Collecting

/-!
# How readers are composed

All readers behind the header are put together from a few elementary ones. They do so by sequences,
checks and jumps, they fail only with what says that the bytes are malformed, and they ask for the
size of the buffer only to bound something by it. `Composed` says so of a reader, and here it is shown
of all of them, in the order in which they build on each other. What holds of every composed reader is
then proved by induction on `Composed`, without another look at any of them.
-/
namespace DexAtlas

namespace Reader

inductive Composed : {α : Type} → Reader α → Prop
  | pure {α : Type} (a : α) : Composed (Pure.pure a : Reader α)
  | bind {α β : Type} {reader : Reader α} {next : α → Reader β} (first : Composed reader)
      (others : ∀ a, Composed (next a)) : Composed (reader >>= next)
  | fail {α : Type} {cause : Cause} (malformed : cause.kind = .malformed) :
      Composed (Reader.fail cause : Reader α)
  /-- A bound that a larger buffer keeps all the more. -/
  | limit {α : Type} {allowed : Nat → Prop} [∀ size, Decidable (allowed size)]
      {cause : Nat → Cause} {next : Reader α} (malformed : ∀ size, (cause size).kind = .malformed)
      (upward : ∀ size larger, size ≤ larger → allowed size → allowed larger)
      (others : Composed next) :
      Composed (Reader.bufferSize >>= fun size =>
        Reader.ensure (allowed size) (cause size) >>= fun _ => next)
  | within {α : Type} {reader : Reader α} (context : Context) (inner : Composed reader) :
      Composed (Reader.within context reader)
  | elsewhere {α : Type} {reader : Reader α} (pos : Nat) (inner : Composed reader) :
      Composed (Reader.elsewhere pos reader)
  | position : Composed Reader.position
  | seek (pos : Nat) : Composed (Reader.seek pos)
  | raise (notice : Notice) : Composed (Reader.raise notice)
  | take (what : String) (count : Nat) : Composed (Reader.take what count)
  | uleb128 : Composed Reader.uleb128
  | uleb128p1 : Composed Reader.uleb128p1
  | sleb128 : Composed Reader.sleb128
  | text : Composed Reader.text

namespace Composed

variable {α β : Type}

theorem ensure {condition : Prop} [Decidable condition] {cause : Cause}
    (malformed : cause.kind = .malformed) : Composed (Reader.ensure condition cause) := by
  unfold Reader.ensure
  split
  · exact pure ()
  · exact fail malformed

theorem map {reader : Reader α} (f : α → β) (inner : Composed reader) :
    Composed (f <$> reader) := by
  rw [map_eq_pure_bind]
  exact bind inner fun a => pure (f a)

theorem collect {item : Nat → Reader α} (count : Nat) (each : ∀ i, Composed (item i)) :
    Composed (Reader.collect count item) :=
  collect_of_bind Composed pure (fun i _ others => bind (each i) others) count

theorem uint (what : String) (width : Nat) : Composed (Reader.uint what width) :=
  bind (take what width) fun _ => pure _

theorem u2 : Composed Reader.u2 := uint "u2" 2

theorem u4 : Composed Reader.u4 := uint "u4" 4

end Composed

end Reader

open Reader (Composed)

/-! ### Tables -/

namespace Tables

theorem composed_checkId (what : String) (size id : Nat) : Composed (checkId what size id) :=
  .ensure rfl

theorem composed_optionalId (what : String) (size id : Nat) :
    Composed (optionalId what size id) := by
  unfold optionalId
  split
  · exact .pure none
  · exact .bind (composed_checkId what size id) fun _ => .pure (some id)

theorem composed_enter (what : String) (width : Nat) (extent : Extent) :
    Composed (enter what width extent) := by
  refine .limit (fun _ => rfl) (fun size larger grown inside => ?_) (.seek extent.offset)
  exact inside.imp_right fun inside => ⟨inside.1, Nat.le_trans inside.2 grown⟩

theorem composed_typeList (types : Nat) : Composed (typeList types) := by
  refine .bind .u4 fun count => ?_
  refine .bind .position fun here => ?_
  refine .limit (fun _ => rfl) (fun _ _ grown inside => Nat.le_trans inside grown) ?_
  refine .bind (.collect count fun _ => ?_) fun ids => .pure ids.toList
  refine .bind .u2 fun id => ?_
  exact .bind (composed_checkId _ types id) fun _ => .pure id

theorem composed_typeListAt (types offset : Nat) : Composed (typeListAt types offset) := by
  unfold typeListAt
  split
  · exact .pure []
  · exact .elsewhere offset (composed_typeList types)

theorem composed_strings (extent : Extent) : Composed (strings extent) := by
  refine .bind (composed_enter _ 4 extent) fun _ => .collect _ fun i => ?_
  refine .bind .u4 fun offset => ?_
  exact .within _ (.elsewhere offset .text)

theorem composed_types (extent : Extent) (strings : Nat) : Composed (types extent strings) := by
  refine .bind (composed_enter _ 4 extent) fun _ => .collect _ fun i => ?_
  refine .bind .u4 fun id => ?_
  exact .bind (composed_checkId _ strings id) fun _ => .pure id

theorem composed_protos (extent : Extent) (strings types : Nat) :
    Composed (protos extent strings types) := by
  refine .bind (composed_enter _ 12 extent) fun _ => .collect _ fun i => ?_
  refine .bind .u4 fun shorty => ?_
  refine .bind (composed_checkId _ strings shorty) fun _ => ?_
  refine .bind .u4 fun result => ?_
  refine .bind (composed_checkId _ types result) fun _ => ?_
  refine .bind .u4 fun offset => ?_
  exact .bind (.within _ (composed_typeListAt types offset)) fun parameters => .pure _

theorem composed_fieldItem : Composed fieldItem := by
  refine .bind .u2 fun owner => ?_
  refine .bind .u2 fun type => ?_
  exact .bind .u4 fun name => .pure _

theorem composed_methodItem : Composed methodItem := by
  refine .bind .u2 fun owner => ?_
  refine .bind .u2 fun proto => ?_
  exact .bind .u4 fun name => .pure _

theorem composed_fields (extent : Extent) (strings types : Nat) :
    Composed (fields extent strings types) := by
  refine .bind (composed_enter _ 8 extent) fun _ => .collect _ fun i => ?_
  refine .bind composed_fieldItem fun item => ?_
  refine .bind (composed_checkId _ types item.owner) fun _ => ?_
  refine .bind (composed_checkId _ types item.type) fun _ => ?_
  exact .bind (composed_checkId _ strings item.name) fun _ => .pure item

theorem composed_methods (extent : Extent) (strings types protos : Nat) :
    Composed (methods extent strings types protos) := by
  refine .bind (composed_enter _ 8 extent) fun _ => .collect _ fun i => ?_
  refine .bind composed_methodItem fun item => ?_
  refine .bind (composed_checkId _ types item.owner) fun _ => ?_
  refine .bind (composed_checkId _ protos item.proto) fun _ => ?_
  exact .bind (composed_checkId _ strings item.name) fun _ => .pure item

theorem composed_pools (header : Header) : Composed (pools header) := by
  refine .bind (composed_strings header.strings) fun strings => ?_
  refine .bind (composed_types header.types strings.size) fun types => ?_
  refine .bind (composed_protos header.protos strings.size types.size) fun protos => ?_
  refine .bind (composed_fields header.fields strings.size types.size) fun fields => ?_
  exact .bind (composed_methods header.methods strings.size types.size protos.size)
    fun methods => .pure _

end Tables

/-! ### Code items -/

theorem DebugInfo.composed_parameterName (strings : Nat) : Composed (parameterName strings) := by
  refine .bind .uleb128p1 fun id => ?_
  split
  · exact .pure none
  · exact .bind (Tables.composed_checkId _ strings _) fun _ => .pure _

theorem DebugInfo.composed_read (strings : Nat) : Composed (read strings) := by
  refine .bind .uleb128 fun lineStart => ?_
  refine .bind .uleb128 fun count => ?_
  refine .limit (fun _ => rfl) (fun _ _ grown inside => Nat.le_trans inside grown) ?_
  exact .bind (.collect count fun _ => composed_parameterName strings) fun names => .pure _

theorem CatchHandler.composed_typedHandler (types : Nat) : Composed (typedHandler types) := by
  refine .bind .uleb128 fun type => ?_
  refine .bind (Tables.composed_checkId _ types type) fun _ => ?_
  exact .bind .uleb128 fun address => .pure _

theorem CatchHandler.composed_read (types offset : Nat) : Composed (read types offset) := by
  refine .bind .sleb128 fun size => ?_
  refine .limit (fun _ => rfl) (fun _ _ grown inside => Nat.le_trans inside grown) ?_
  refine .bind (.collect _ fun _ => composed_typedHandler types) fun handlers => ?_
  split
  · exact .bind (.map some .uleb128) fun catchAll => .pure _
  · exact .bind (.pure none) fun catchAll => .pure _

namespace CodeItem

theorem composed_debugInfoAt (strings offset : Nat) : Composed (debugInfoAt strings offset) := by
  unfold debugInfoAt
  split
  · exact .pure none
  · exact .map some (.within _ (.elsewhere offset (DebugInfo.composed_read strings)))

theorem composed_padding (units : Nat) : Composed (padding units) := by
  unfold padding
  split
  · refine .bind .position fun here => ?_
    refine .bind .u2 fun value => ?_
    split
    · exact .raise _
    · exact .pure ()
  · exact .pure ()

theorem composed_tryBlock (item units : Nat) : Composed (tryBlock item units) := by
  have fields : Composed TryBlock.read := by
    refine .bind .u4 fun start => ?_
    refine .bind .u2 fun count => ?_
    exact .bind .u2 fun handlerOffset => .pure _
  refine .bind fields fun block => ?_
  exact .bind (.ensure rfl) fun _ => .pure block

theorem composed_handlerList (item types : Nat) : Composed (handlerList item types) := by
  refine .bind .position fun start => ?_
  refine .bind .uleb128 fun count => ?_
  refine .limit (fun _ => rfl) (fun _ _ grown inside => Nat.le_trans inside grown) ?_
  refine .bind (.collect count fun place => ?_) fun handlers => .pure _
  exact .bind .position fun here => .within _ (CatchHandler.composed_read types _)

theorem composed_guards (item types units count : Nat) :
    Composed (guards item types units count) := by
  unfold guards
  split
  · exact .pure _
  · refine .bind (composed_padding units) fun _ => ?_
    refine .bind (.collect count fun _ => composed_tryBlock item units) fun tries => ?_
    refine .bind (composed_handlerList item types) fun handlers => ?_
    split
    · exact .fail rfl
    · exact .pure _

theorem composed_read (strings types : Nat) : Composed (read strings types) := by
  refine .bind .position fun start => ?_
  refine .bind .u2 fun registers => ?_
  refine .bind .u2 fun ins => ?_
  refine .bind .u2 fun outs => ?_
  refine .bind .u2 fun tryCount => ?_
  refine .bind (.ensure rfl) fun _ => ?_
  refine .bind .u4 fun debugOffset => ?_
  refine .bind (composed_debugInfoAt strings debugOffset) fun debugInfo => ?_
  refine .bind .u4 fun units => ?_
  refine .bind (.take _ (units * 2)) fun raw => ?_
  exact .bind (composed_guards start types units tryCount) fun guards => .pure _

end CodeItem

/-! ### Class definitions -/

namespace ClassData

theorem nextId_error {what : String} {previous : Option Nat} {distance : Nat} {cause : Cause}
    (failed : nextId what previous distance = .error cause) : cause.kind = .malformed := by
  unfold nextId at failed
  split at failed
  · cases failed
  split at failed
  · cases failed
    rfl
  split at failed
  · cases failed
  · cases failed
    rfl

private theorem composed_more {α : Type} {what : String} {size : Nat} {entry : Nat → Reader α}
    (each : ∀ id, Composed (entry id)) (left : Nat) (previous : Option Nat) (done : Array α) :
    Composed (members.more what size entry left previous done) := by
  induction left generalizing previous done with
  | zero => exact .pure _
  | succ left ih =>
    refine .bind .uleb128 fun distance => ?_
    split
    next cause failed => exact .fail (nextId_error failed)
    next id _ =>
      refine .bind (Tables.composed_checkId what size id) fun _ => ?_
      exact .bind (each id) fun item => ih (some id) (done.push item)

/-- How many members are plausible depends on the size of the buffer. -/
theorem composed_members {α : Type} (what : String) (width size count : Nat)
    {entry : Nat → Reader α} (each : ∀ id, Composed (entry id)) :
    Composed (members what width size count entry) := by
  refine .limit (fun _ => rfl) (fun _ _ grown counted => ?_) (composed_more each count none #[])
  exact Nat.le_trans counted (Nat.div_le_div_right grown)

theorem composed_encodedMethod (what : String) (sizes : PoolSizes) (id : Nat) :
    Composed (encodedMethod what sizes id) := by
  refine .bind .uleb128 fun access => ?_
  refine .bind .uleb128 fun offset => ?_
  refine .bind ?_ fun code => .pure _
  unfold codeAt
  split
  · exact .pure none
  · exact .map some (.within _ (.elsewhere offset (CodeItem.composed_read _ _)))

theorem composed_read (sizes : PoolSizes) : Composed (read sizes) := by
  have fields (what : String) (count : Nat) : Composed (fieldList what sizes count) :=
    composed_members what 2 sizes.fields count fun id => .bind .uleb128 fun access => .pure _
  have methods (what : String) (count : Nat) : Composed (methodList what sizes count) :=
    composed_members what 3 sizes.methods count (composed_encodedMethod what sizes)
  refine .bind .uleb128 fun staticCount => ?_
  refine .bind .uleb128 fun instanceCount => ?_
  refine .bind .uleb128 fun directCount => ?_
  refine .bind .uleb128 fun virtualCount => ?_
  refine .bind (fields _ staticCount) fun staticFields => ?_
  refine .bind (fields _ instanceCount) fun instanceFields => ?_
  refine .bind (methods _ directCount) fun directMethods => ?_
  exact .bind (methods _ virtualCount) fun virtualMethods => .pure _

end ClassData

namespace ClassDef

theorem composed_dataAt (sizes : PoolSizes) (offset : Nat) : Composed (dataAt sizes offset) := by
  unfold dataAt
  split
  · exact .pure none
  · exact .map some (.elsewhere offset (ClassData.composed_read sizes))

theorem composed_read (sizes : PoolSizes) : Composed (read sizes) := by
  refine .bind .u4 fun type => ?_
  refine .bind (Tables.composed_checkId _ sizes.types type) fun _ => ?_
  refine .bind .u4 fun access => ?_
  refine .bind .u4 fun superclassId => ?_
  refine .bind (Tables.composed_optionalId _ sizes.types superclassId) fun superclass => ?_
  refine .bind .u4 fun interfacesOffset => ?_
  refine .bind (Tables.composed_typeListAt sizes.types interfacesOffset) fun interfaces => ?_
  refine .bind .u4 fun sourceFileId => ?_
  refine .bind (Tables.composed_optionalId _ sizes.strings sourceFileId) fun sourceFile => ?_
  refine .bind .u4 fun annotationsOffset => ?_
  refine .bind .u4 fun dataOffset => ?_
  refine .bind (composed_dataAt sizes dataOffset) fun data => ?_
  exact .bind .u4 fun staticValuesOffset => .pure _

end ClassDef

end DexAtlas
