import DexAtlas.Container.Tables

/-!
The body of a method: its registers, its code units, and the blocks of code that exceptions leave
for a handler. A handler is known by what 32 bits keep of its distance in bytes from the start of the
handler list, and every try block names one that is there.
-/
namespace DexAtlas

/-- The head of the debug information; the line table that follows is not read. -/
structure DebugInfo where
  lineStart : Nat
  /-- Strings that name the parameters, as far as they have names. -/
  parameterNames : List (Option Nat)
  deriving DecidableEq, Repr

namespace DebugInfo

def parameterName (strings : Nat) : Reader (Option Nat) := do
  let id ← Reader.uleb128p1
  if id < 0 then return none
  Tables.checkId "debug_info parameter name" strings id.toNat
  return some id.toNat

def read (strings : Nat) : Reader DebugInfo := do
  let lineStart ← Reader.uleb128
  let count ← Reader.uleb128
  let size ← Reader.bufferSize
  Reader.ensure (count ≤ size) (.parameterCount count)
  let names ← Reader.collect count fun _ => parameterName strings
  return ⟨lineStart, names.toList⟩

end DebugInfo

/-- Code units from `start` on that are guarded by a handler. -/
structure TryBlock where
  start : Nat
  count : Nat
  handlerOffset : Nat
  deriving DecidableEq, Repr

def TryBlock.read : Reader TryBlock := do
  let start ← Reader.u4
  let count ← Reader.u2
  let handlerOffset ← Reader.u2
  return ⟨start, count, handlerOffset⟩

/-- Where control goes for exceptions of one type. -/
structure TypedHandler where
  type : Nat
  address : Nat
  deriving DecidableEq, Repr

structure CatchHandler where
  /-- Distance in bytes from the start of the handler list, in 32 bits. -/
  offset : Nat
  handlers : List TypedHandler
  /-- Where control goes for all other exceptions. -/
  catchAll : Option Nat
  deriving DecidableEq, Repr

namespace CatchHandler

def typedHandler (types : Nat) : Reader TypedHandler := do
  let type ← Reader.uleb128
  Tables.checkId "catch handler type" types type
  let address ← Reader.uleb128
  return ⟨type, address⟩

/-- The size is negated or zero when an address for all other exceptions follows. -/
def read (types offset : Nat) : Reader CatchHandler := do
  let size ← Reader.sleb128
  let count := size.natAbs
  let limit ← Reader.bufferSize
  Reader.ensure (count ≤ limit) (.handlerEntryCount count)
  let handlers ← Reader.collect count fun _ => typedHandler types
  let catchAll ← if size ≤ 0 then some <$> Reader.uleb128 else pure none
  return ⟨offset, handlers.toList, catchAll⟩

end CatchHandler

structure CodeItem where
  /-- Where the item starts in the image, in 32 bits. -/
  offset : Nat
  registers : Nat
  ins : Nat
  outs : Nat
  debugInfo : Option DebugInfo
  code : List UInt16
  tries : List TryBlock
  handlers : List CatchHandler
  deriving DecidableEq, Repr

namespace CodeItem

/-- The handler that a try block names. -/
def handlerFor? (item : CodeItem) (block : TryBlock) : Option CatchHandler :=
  item.handlers.find? fun handler => handler.offset == block.handlerOffset

def debugInfoAt (strings offset : Nat) : Reader (Option DebugInfo) :=
  if offset = 0 then pure none
  else some <$> Reader.within (.debugInfo offset) (Reader.elsewhere offset (DebugInfo.read strings))

/-- Try blocks start at an even number of units, so one unit may have to be passed over. It should
be zero, but need not be. -/
def padding (units : Nat) : Reader Unit := do
  if units % 2 = 1 then
    let here ← Reader.position
    let value ← Reader.u2
    if value ≠ 0 then Reader.raise (.padding value here)

def tryBlock (item units : Nat) : Reader TryBlock := do
  let block ← TryBlock.read
  Reader.ensure (block.start + block.count ≤ units)
    (.tryRange block.start block.count units item)
  return block

/-- The next handler of a list that starts at `start`. -/
def nextHandler (item types start count place : Nat) : Reader CatchHandler := do
  let here ← Reader.position
  Reader.within (.catchHandler (place + 1) count here item)
    (CatchHandler.read types ((here - start) % UInt32.size))

def handlerList (item types : Nat) : Reader (List CatchHandler) := do
  let start ← Reader.position
  let count ← Reader.uleb128
  let limit ← Reader.bufferSize
  Reader.ensure (count ≤ limit) (.handlerListSize count)
  let handlers ← Reader.collect count (nextHandler item types start count)
  return handlers.toList

/-- A try block that names no handler of the list. -/
def stray? (tries : List TryBlock) (handlers : List CatchHandler) : Option TryBlock :=
  tries.find? fun block => !handlers.any fun handler => handler.offset == block.handlerOffset

/-- Try blocks and handlers, absent where there are no blocks. -/
def guards (item types units count : Nat) : Reader (List TryBlock × List CatchHandler) := do
  if count = 0 then return ([], [])
  padding units
  let tries ← Reader.collect count fun _ => tryBlock item units
  let handlers ← handlerList item types
  match stray? tries.toList handlers with
  | some block => Reader.fail (.tryWithoutHandler block.start block.handlerOffset)
  | none => return (tries.toList, handlers)

def read (strings types : Nat) : Reader CodeItem := do
  let start ← Reader.position
  let registers ← Reader.u2
  let ins ← Reader.u2
  let outs ← Reader.u2
  let tryCount ← Reader.u2
  Reader.ensure (ins ≤ registers) (.insExceedRegisters start ins registers)
  let debugOffset ← Reader.u4
  let debugInfo ← debugInfoAt strings debugOffset
  let units ← Reader.u4
  let raw ← Reader.raw (units * 2)
  let (tries, handlers) ← guards start types units tryCount
  return { offset := start % UInt32.size, registers, ins, outs, debugInfo,
           code := Bytes.units raw.toList, tries, handlers }

end CodeItem

end DexAtlas
