import DexAtlas.Error

/-!
What an operation reports besides its result. Notices are returned in the order they were raised,
also when the operation fails later on.
-/
namespace DexAtlas

open Text (hexWord)

inductive Level where
  | error
  | warn
  | info
  | debug
  deriving DecidableEq, Repr

def Level.text : Level → String
  | .error => "ERROR"
  | .warn => "WARN"
  | .info => "INFO"
  | .debug => "DEBUG"

inductive Notice where
  /-- The unit that aligns the try blocks of a code item is not zero. -/
  | padding (value offset : Nat)
  | parsed (version strings types protos fields methods classes : Nat)
  | loaded (name : String) (version classes bodies : Nat)
  | loadFailed (failure : ImageFailure)
  | declared (descriptor image : String)
  /-- A class defined a second time; its members join the first definition's. -/
  | redefined (descriptor image : String) (first : Nat)
  | alreadyDefined (method : String)
  | analysed (images classes methods fields strings : Nat)
  /-- An archive entry that no unbroken numbering reaches. -/
  | afterGap (entry : String) (expected : Nat)
  deriving DecidableEq, Repr

namespace Notice

def level : Notice → Level
  | .padding .. | .redefined .. => .warn
  | .loaded .. | .analysed .. => .info
  | .loadFailed _ => .error
  | .parsed .. | .declared .. | .alreadyDefined _ | .afterGap .. => .debug

def message : Notice → String
  | .padding value offset =>
    s!"[codeitem] non-zero padding {hexWord 4 value} at {hexWord 0 offset}"
  | .parsed version strings types protos fields methods classes =>
    s!"parsed dex {Text.version version}: {strings} strings, {types} types, {protos} protos, " ++
      s!"{fields} fields, {methods} methods, {classes} classes"
  | .loaded name version classes bodies =>
    s!"loaded {name} (dex {Text.version version}): {classes} classes, {bodies} methods with code"
  | .loadFailed failure => failure.text
  | .declared descriptor image => s!"declared class {descriptor} from {image}"
  | .redefined descriptor image first =>
    s!"class {descriptor} defined again in {image} (first definition in image {first}); " ++
      "merging members"
  | .alreadyDefined method => s!"method {method} already defined, keeping the first definition"
  | .analysed images classes methods fields strings =>
    s!"analysed {images} image(s): {classes} classes, {methods} methods, {fields} fields, " ++
      s!"{strings} strings"
  | .afterGap entry expected => s!"ignoring {entry} after the gap at classes{expected}.dex"

end Notice

/-- How an operation ended, with the notices raised on the way. -/
structure Journaled (ε α : Type) where
  outcome : Except ε α
  notices : Array Notice

end DexAtlas
