import DexAtlas.Text.Numeral

/-!
Why an operation was refused. An error is a cause together with the contexts it was met in,
innermost first. Causes and contexts are data; their wording is fixed here and nowhere else, and
the kind of an error is a function of its cause alone, so a context can never change it.
-/
namespace DexAtlas

open Text (hex hexWord)

/-- Broad classification of what went wrong. -/
inductive ErrorKind where
  /-- The bytes are structurally invalid. -/
  | malformed
  /-- A recognised container of a version that is not handled. -/
  | unsupported
  /-- A consistency check of the analysis itself failed. -/
  | invariant
  /-- The caller asked to stop. -/
  | cancelled
  deriving DecidableEq, Repr, Inhabited

def ErrorKind.text : ErrorKind → String
  | .malformed => "malformed input"
  | .unsupported => "unsupported version"
  | .invariant => "invariant violation"
  | .cancelled => "cancelled"

/-- The two variable-length number forms. -/
inductive LebForm where
  | unsigned
  | signed
  deriving DecidableEq, Repr

def LebForm.text : LebForm → String
  | .unsigned => "uleb128"
  | .signed => "sleb128"

/-- The innermost reason for a failure. A field `what` names the thing that was being read. -/
inductive Cause where
  -- reading numbers and text
  | endOfStream (what : String) (pos : Nat)
  | lebEnd (form : LebForm)
  | lebTooLong (form : LebForm)
  | lebOverflow
  | unterminatedText (pos : Nat)
  | illFormedText (pos : Nat)
  | unitCount (pos declared decoded : Nat)
  -- ids and tables
  | indexRange (what : String) (index size : Nat)
  | sectionRange (what : String) (count offset : Nat)
  | typeListTruncated (count pos : Nat)
  | idOrder (what : String)
  | idOverflow (what : String)
  | countTooLarge (what : String) (count : Nat)
  -- code items
  | parameterCount (count : Nat)
  | handlerEntryCount (count : Nat)
  | handlerListSize (count : Nat)
  | insExceedRegisters (item ins registers : Nat)
  | tryRange (start count units item : Nat)
  | tryWithoutHandler (start handlerOffset : Nat)
  -- the header
  | headerTooShort (size : Nat)
  | magic
  | versionNumber (number : Nat)
  | bigEndian
  | endianTag (tag : Nat)
  | headerSize (size : Nat)
  | fileSize (declared present : Nat)
  -- class definitions
  | duplicateClass (descriptor : String) (position : Nat)
  | foreignMethod (position : Nat) (descriptor : String) (method : Nat)
  | foreignField (position : Nat) (descriptor : String) (field : Nat)
  -- instructions
  | unknownPayload (ident pc : Nat)
  | unknownOpcode (value pc version : Nat)
  | truncatedCode (what : String) (pc need remaining : Nat)
  | elementWidth (width : Nat)
  | registerCount (count : Nat)
  | noReferenceKind (index : Nat)
  | unresolved (pool : String) (index : Nat)
  | noFixedOperands (format : String)
  | payloadTarget (name : String) (offset : Nat) (expected : String)
  -- the analysis graph
  | alreadyBound (image id : Nat) (bound refused : String)
  | missing (what : String)
  | bodyVanished
  | cancelled
  -- what a caller outside this library reports
  | reported (kind : ErrorKind) (message : String)
  deriving DecidableEq, Repr

namespace Cause

def kind : Cause → ErrorKind
  | .versionNumber _ | .bigEndian => .unsupported
  | .alreadyBound .. | .missing _ | .bodyVanished => .invariant
  | .cancelled => .cancelled
  | .reported kind _ => kind
  | _ => .malformed

def message : Cause → String
  | .endOfStream what pos => s!"Unexpected end of stream reading {what} at index {pos}"
  | .lebEnd form => "Unexpected end of stream reading " ++ form.text
  | .lebTooLong form => form.text ++ " longer than 5 bytes"
  | .lebOverflow => "uleb128 value overflows 32 bits"
  | .unterminatedText pos => s!"Unterminated string data at index {pos}"
  | .illFormedText pos => s!"Invalid MUTF-8 string data at index {pos}"
  | .unitCount pos declared decoded =>
    s!"String data at index {pos} declares {declared} UTF-16 units but decodes to {decoded}"
  | .indexRange what index size => s!"{what} index {index} out of range ({size} entries)"
  | .sectionRange what count offset =>
    s!"{what} section of {count} entries at {hexWord 0 offset} lies outside the image"
  | .typeListTruncated count pos =>
    s!"type_list of {count} entries at {hexWord 0 pos} is truncated"
  | .idOrder what => s!"{what} ids are not strictly increasing"
  | .idOverflow what => s!"{what} id overflows"
  | .countTooLarge what count => s!"{what} count {count} is implausibly large"
  | .parameterCount count => s!"debug_info declares {count} parameters"
  | .handlerEntryCount count => s!"catch handler declares {count} entries"
  | .handlerListSize count => s!"encoded_catch_handler_list size {count} is implausibly large"
  | .insExceedRegisters item ins registers =>
    s!"code item at {hexWord 0 item} has {ins} ins but {registers} registers"
  | .tryRange start count units item =>
    s!"try block {hexWord 0 start}+{count} exceeds {units} code units in code item at " ++
      hexWord 0 item
  | .tryWithoutHandler start handlerOffset =>
    s!"try block at {hexWord 0 start} references missing handler offset {handlerOffset}"
  | .headerTooShort size => s!"Not enough bytes for header: {size} < 112"
  | .magic => "Invalid magic value"
  | .versionNumber number => "dex version " ++ Text.version number
  | .bigEndian => "big-endian dex image"
  | .endianTag tag => "Invalid endian tag " ++ hexWord 8 tag
  | .headerSize size => "Invalid header size " ++ hexWord 0 size
  | .fileSize declared present =>
    s!"Header declares {declared} bytes but only {present} are present"
  | .duplicateClass descriptor position =>
    s!"Duplicate class definition {descriptor} in class_def {position}"
  | .foreignMethod position descriptor method =>
    s!"class_def {position} ({descriptor}) lists method {method} of another class"
  | .foreignField position descriptor field =>
    s!"class_def {position} ({descriptor}) lists field {field} of another class"
  | .unknownPayload ident pc => s!"Unknown payload ident {hexWord 4 ident} at pc {pc}"
  | .unknownOpcode value pc version =>
    s!"Unknown opcode {hexWord 2 value} at pc {pc} for dex version {Text.version version}"
  | .truncatedCode what pc need remaining =>
    s!"Truncated {what} at pc {pc}: need {need} code units, have {remaining}"
  | .elementWidth width => s!"Unsupported array-data element width {width}"
  | .registerCount count => s!"Invalid register count {count} in invoke-style instruction"
  | .noReferenceKind index => s!"Opcode has no reference kind for index {index}"
  | .unresolved pool index => s!"{pool} index {index} out of range"
  | .noFixedOperands format => s!"Payload format {format} has no fixed operands"
  | .payloadTarget name offset expected =>
    s!"{name} at offset {offset} does not point at a {expected}"
  | .alreadyBound image id bound refused =>
    s!"record {image}:{id} already bound to {bound}, refusing {refused}"
  | .missing what => s!"{what} missing from the analysis graph"
  | .bodyVanished => "method body vanished from its class data"
  | .cancelled => "operation cancelled"
  | .reported _ message => message

end Cause

/-- Where a cause was met. -/
inductive Context where
  | index (pos : Nat)
  | stringItem (position : Nat)
  | protoItem (position : Nat)
  | classDef (position : Nat) (descriptor : Option String)
  | member (what : String) (id offset : Nat)
  | debugInfo (offset : Nat)
  | catchHandler (number total offset item : Nat)
  | codeItem (offset : Nat)
  | instruction (name : String) (pc : Nat)
  | method (id : Nat)
  | image (name : String)
  | reported (text : String)
  deriving DecidableEq, Repr

def Context.text : Context → String
  | .index pos => s!"index {pos}"
  | .stringItem position => s!"string {position}"
  | .protoItem position => s!"proto {position}"
  | .classDef position descriptor =>
    let shown := descriptor.getD "?"
    s!"class_def {position} ({shown})"
  | .member what id offset => s!"{what} {id} (code item at {hexWord 0 offset})"
  | .debugInfo offset => "debug info at " ++ hexWord 0 offset
  | .catchHandler number total offset item =>
    s!"catch handler #{number}/{total} at {hexWord 0 offset} in code item at {hexWord 0 item}"
  | .codeItem offset => "code item at " ++ hexWord 0 offset
  | .instruction name pc => s!"{name} at pc {pc}"
  | .method id => s!"method {id}"
  | .image name => s!"image {name}"
  | .reported text => text

/-- A cause and the contexts it was met in, innermost first. -/
structure Error where
  cause : Cause
  contexts : List Context
  deriving DecidableEq, Repr

namespace Error

/-- A bare cause. -/
def of (cause : Cause) : Error := ⟨cause, []⟩

/-- The same failure seen from one level further out. -/
def within (context : Context) (error : Error) : Error :=
  { error with contexts := error.contexts ++ [context] }

def kind (error : Error) : ErrorKind := error.cause.kind

def message (error : Error) : String := error.cause.message

/-- The contexts as a trailing clause: `for` before the innermost, `of` before the others. -/
def clause : List Context → String
  | [] => ""
  | inner :: outer =>
    outer.foldl (fun text context => text ++ " of " ++ context.text) (" for " ++ inner.text)

/-- The full text of an error. -/
def text (error : Error) : String :=
  error.kind.text ++ ": " ++ error.message ++ clause error.contexts

@[simp] theorem kind_within (context : Context) (error : Error) :
    (error.within context).kind = error.kind := rfl

@[simp] theorem message_within (context : Context) (error : Error) :
    (error.within context).message = error.message := rfl

end Error

/-- An image of a package that could not be loaded, with its place in the caller's input. -/
structure ImageFailure where
  name : String
  index : Nat
  error : Error
  deriving DecidableEq, Repr

def ImageFailure.text (failure : ImageFailure) : String :=
  s!"image {failure.index} ({failure.name}): {failure.error.text}"

end DexAtlas
