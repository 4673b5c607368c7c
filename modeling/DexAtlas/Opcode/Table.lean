import DexAtlas.Opcode.Basic

/-!
The instruction set. Every value belongs to one row, in whichever version; a row that came later
says since when it is there. Tables placed between instructions count as rows too, under their
whole first unit.
-/
namespace DexAtlas.InstructionSet

/-! ## Common sets of effects -/

def proceeds : List Effect := [.canContinue]

def sets : List Effect := [.canContinue, .setsRegister]

def setsWide : List Effect := [.canContinue, .setsRegister, .setsWideRegister]

def riskySets : List Effect := [.canThrow, .canContinue, .setsRegister]

def riskySetsWide : List Effect := [.canThrow, .canContinue, .setsRegister, .setsWideRegister]

def risky : List Effect := [.canThrow, .canContinue]

def throws : List Effect := [.canThrow]

def mayBranch : List Effect := [.canContinue, .branch]

def jumps : List Effect := [.branch]

def yields : List Effect := [.canThrow, .canContinue, .setsResult]

def calls : List Effect := [.canThrow, .canContinue, .setsResult, .invoke]

def callsInitializer : List Effect :=
  [.canThrow, .canContinue, .setsResult, .invoke, .canInitializeReference]

def reads : List Effect := [.canThrow, .canContinue, .setsRegister, .fieldRead]

def readsWide : List Effect :=
  [.canThrow, .canContinue, .setsRegister, .fieldRead, .setsWideRegister]

def writes : List Effect := [.canThrow, .canContinue, .fieldWrite]

def readsStatic : List Effect :=
  [.canThrow, .canContinue, .setsRegister, .staticFieldAccessor, .fieldRead]

def readsStaticWide : List Effect :=
  [.canThrow, .canContinue, .setsRegister, .staticFieldAccessor, .fieldRead, .setsWideRegister]

def writesStatic : List Effect := [.canThrow, .canContinue, .staticFieldAccessor, .fieldWrite]

/-! ## Rows -/

/-- A row of every version whose operands hold no index. -/
def plain (value : Nat) (name : String) (format : Format) (effects : List Effect) : Opcode :=
  ⟨name, format, none, none, effects, [.always value]⟩

/-- A row of every version with an index into one pool. -/
def indexed (value : Nat) (name : String) (format : Format) (kind : PoolKind)
    (effects : List Effect) : Opcode :=
  ⟨name, format, some kind, none, effects, [.always value]⟩

/-- Moves between registers and out of results. -/
def moves : List Opcode := [
  plain 0x00 "nop" .f10x proceeds,
  plain 0x01 "move" .f12x sets,
  plain 0x02 "move/from16" .f22x sets,
  plain 0x03 "move/16" .f32x sets,
  plain 0x04 "move-wide" .f12x setsWide,
  plain 0x05 "move-wide/from16" .f22x setsWide,
  plain 0x06 "move-wide/16" .f32x setsWide,
  plain 0x07 "move-object" .f12x sets,
  plain 0x08 "move-object/from16" .f22x sets,
  plain 0x09 "move-object/16" .f32x sets,
  plain 0x0a "move-result" .f11x sets,
  plain 0x0b "move-result-wide" .f11x setsWide,
  plain 0x0c "move-result-object" .f11x sets,
  plain 0x0d "move-exception" .f11x sets]

/-- Returns. -/
def returns : List Opcode := [
  plain 0x0e "return-void" .f10x [],
  plain 0x0f "return" .f11x [],
  plain 0x10 "return-wide" .f11x [],
  plain 0x11 "return-object" .f11x []]

/-- Constants into registers. -/
def constants : List Opcode := [
  plain 0x12 "const/4" .f11n sets,
  plain 0x13 "const/16" .f21s sets,
  plain 0x14 "const" .f31i sets,
  plain 0x15 "const/high16" .f21ih sets,
  plain 0x16 "const-wide/16" .f21s setsWide,
  plain 0x17 "const-wide/32" .f31i setsWide,
  plain 0x18 "const-wide" .f51l setsWide,
  plain 0x19 "const-wide/high16" .f21lh setsWide,
  indexed 0x1a "const-string" .f21c .string riskySets,
  indexed 0x1b "const-string/jumbo" .f31c .string riskySets,
  indexed 0x1c "const-class" .f21c .type riskySets]

/-- Monitors, type tests, allocation and throwing. -/
def objects : List Opcode := [
  plain 0x1d "monitor-enter" .f11x risky,
  plain 0x1e "monitor-exit" .f11x risky,
  indexed 0x1f "check-cast" .f21c .type riskySets,
  indexed 0x20 "instance-of" .f22c .type riskySets,
  plain 0x21 "array-length" .f12x riskySets,
  indexed 0x22 "new-instance" .f21c .type riskySets,
  indexed 0x23 "new-array" .f22c .type riskySets,
  indexed 0x24 "filled-new-array" .f35c .type yields,
  indexed 0x25 "filled-new-array/range" .f3rc .type yields,
  plain 0x26 "fill-array-data" .f31t proceeds,
  plain 0x27 "throw" .f11x throws]

/-- Unconditional jumps and switches. -/
def jumpsAndSwitches : List Opcode := [
  plain 0x28 "goto" .f10t jumps,
  plain 0x29 "goto/16" .f20t jumps,
  plain 0x2a "goto/32" .f30t jumps,
  plain 0x2b "packed-switch" .f31t mayBranch,
  plain 0x2c "sparse-switch" .f31t mayBranch]

/-- Three-way comparisons. -/
def comparisons : List Opcode := [
  plain 0x2d "cmpl-float" .f23x sets,
  plain 0x2e "cmpg-float" .f23x sets,
  plain 0x2f "cmpl-double" .f23x sets,
  plain 0x30 "cmpg-double" .f23x sets,
  plain 0x31 "cmp-long" .f23x sets]

/-- Conditional jumps. -/
def conditions : List Opcode := [
  plain 0x32 "if-eq" .f22t mayBranch,
  plain 0x33 "if-ne" .f22t mayBranch,
  plain 0x34 "if-lt" .f22t mayBranch,
  plain 0x35 "if-ge" .f22t mayBranch,
  plain 0x36 "if-gt" .f22t mayBranch,
  plain 0x37 "if-le" .f22t mayBranch,
  plain 0x38 "if-eqz" .f21t mayBranch,
  plain 0x39 "if-nez" .f21t mayBranch,
  plain 0x3a "if-ltz" .f21t mayBranch,
  plain 0x3b "if-gez" .f21t mayBranch,
  plain 0x3c "if-gtz" .f21t mayBranch,
  plain 0x3d "if-lez" .f21t mayBranch]

/-- Array elements. -/
def arrayElements : List Opcode := [
  plain 0x44 "aget" .f23x riskySets,
  plain 0x45 "aget-wide" .f23x riskySetsWide,
  plain 0x46 "aget-object" .f23x riskySets,
  plain 0x47 "aget-boolean" .f23x riskySets,
  plain 0x48 "aget-byte" .f23x riskySets,
  plain 0x49 "aget-char" .f23x riskySets,
  plain 0x4a "aget-short" .f23x riskySets,
  plain 0x4b "aput" .f23x risky,
  plain 0x4c "aput-wide" .f23x risky,
  plain 0x4d "aput-object" .f23x risky,
  plain 0x4e "aput-boolean" .f23x risky,
  plain 0x4f "aput-byte" .f23x risky,
  plain 0x50 "aput-char" .f23x risky,
  plain 0x51 "aput-short" .f23x risky]

/-- Instance and static fields. -/
def fields : List Opcode := [
  indexed 0x52 "iget" .f22c .field reads,
  indexed 0x53 "iget-wide" .f22c .field readsWide,
  indexed 0x54 "iget-object" .f22c .field reads,
  indexed 0x55 "iget-boolean" .f22c .field reads,
  indexed 0x56 "iget-byte" .f22c .field reads,
  indexed 0x57 "iget-char" .f22c .field reads,
  indexed 0x58 "iget-short" .f22c .field reads,
  indexed 0x59 "iput" .f22c .field writes,
  indexed 0x5a "iput-wide" .f22c .field writes,
  indexed 0x5b "iput-object" .f22c .field writes,
  indexed 0x5c "iput-boolean" .f22c .field writes,
  indexed 0x5d "iput-byte" .f22c .field writes,
  indexed 0x5e "iput-char" .f22c .field writes,
  indexed 0x5f "iput-short" .f22c .field writes,
  indexed 0x60 "sget" .f21c .field readsStatic,
  indexed 0x61 "sget-wide" .f21c .field readsStaticWide,
  indexed 0x62 "sget-object" .f21c .field readsStatic,
  indexed 0x63 "sget-boolean" .f21c .field readsStatic,
  indexed 0x64 "sget-byte" .f21c .field readsStatic,
  indexed 0x65 "sget-char" .f21c .field readsStatic,
  indexed 0x66 "sget-short" .f21c .field readsStatic,
  indexed 0x67 "sput" .f21c .field writesStatic,
  indexed 0x68 "sput-wide" .f21c .field writesStatic,
  indexed 0x69 "sput-object" .f21c .field writesStatic,
  indexed 0x6a "sput-boolean" .f21c .field writesStatic,
  indexed 0x6b "sput-byte" .f21c .field writesStatic,
  indexed 0x6c "sput-char" .f21c .field writesStatic,
  indexed 0x6d "sput-short" .f21c .field writesStatic]

/-- Calls. -/
def invocations : List Opcode := [
  indexed 0x6e "invoke-virtual" .f35c .method calls,
  indexed 0x6f "invoke-super" .f35c .method calls,
  indexed 0x70 "invoke-direct" .f35c .method callsInitializer,
  indexed 0x71 "invoke-static" .f35c .method calls,
  indexed 0x72 "invoke-interface" .f35c .method calls,
  indexed 0x74 "invoke-virtual/range" .f3rc .method calls,
  indexed 0x75 "invoke-super/range" .f3rc .method calls,
  indexed 0x76 "invoke-direct/range" .f3rc .method callsInitializer,
  indexed 0x77 "invoke-static/range" .f3rc .method calls,
  indexed 0x78 "invoke-interface/range" .f3rc .method calls]

/-- Unary arithmetic and conversions. -/
def conversions : List Opcode := [
  plain 0x7b "neg-int" .f12x sets,
  plain 0x7c "not-int" .f12x sets,
  plain 0x7d "neg-long" .f12x setsWide,
  plain 0x7e "not-long" .f12x setsWide,
  plain 0x7f "neg-float" .f12x sets,
  plain 0x80 "neg-double" .f12x setsWide,
  plain 0x81 "int-to-long" .f12x setsWide,
  plain 0x82 "int-to-float" .f12x sets,
  plain 0x83 "int-to-double" .f12x setsWide,
  plain 0x84 "long-to-int" .f12x sets,
  plain 0x85 "long-to-float" .f12x sets,
  plain 0x86 "long-to-double" .f12x setsWide,
  plain 0x87 "float-to-int" .f12x sets,
  plain 0x88 "float-to-long" .f12x setsWide,
  plain 0x89 "float-to-double" .f12x setsWide,
  plain 0x8a "double-to-int" .f12x sets,
  plain 0x8b "double-to-long" .f12x setsWide,
  plain 0x8c "double-to-float" .f12x sets,
  plain 0x8d "int-to-byte" .f12x sets,
  plain 0x8e "int-to-char" .f12x sets,
  plain 0x8f "int-to-short" .f12x sets]

/-- Arithmetic on three registers. -/
def arithmetic : List Opcode := [
  plain 0x90 "add-int" .f23x sets,
  plain 0x91 "sub-int" .f23x sets,
  plain 0x92 "mul-int" .f23x sets,
  plain 0x93 "div-int" .f23x riskySets,
  plain 0x94 "rem-int" .f23x riskySets,
  plain 0x95 "and-int" .f23x sets,
  plain 0x96 "or-int" .f23x sets,
  plain 0x97 "xor-int" .f23x sets,
  plain 0x98 "shl-int" .f23x sets,
  plain 0x99 "shr-int" .f23x sets,
  plain 0x9a "ushr-int" .f23x sets,
  plain 0x9b "add-long" .f23x setsWide,
  plain 0x9c "sub-long" .f23x setsWide,
  plain 0x9d "mul-long" .f23x setsWide,
  plain 0x9e "div-long" .f23x riskySetsWide,
  plain 0x9f "rem-long" .f23x riskySetsWide,
  plain 0xa0 "and-long" .f23x setsWide,
  plain 0xa1 "or-long" .f23x setsWide,
  plain 0xa2 "xor-long" .f23x setsWide,
  plain 0xa3 "shl-long" .f23x setsWide,
  plain 0xa4 "shr-long" .f23x setsWide,
  plain 0xa5 "ushr-long" .f23x setsWide,
  plain 0xa6 "add-float" .f23x sets,
  plain 0xa7 "sub-float" .f23x sets,
  plain 0xa8 "mul-float" .f23x sets,
  plain 0xa9 "div-float" .f23x sets,
  plain 0xaa "rem-float" .f23x sets,
  plain 0xab "add-double" .f23x setsWide,
  plain 0xac "sub-double" .f23x setsWide,
  plain 0xad "mul-double" .f23x setsWide,
  plain 0xae "div-double" .f23x setsWide,
  plain 0xaf "rem-double" .f23x setsWide]

/-- Arithmetic on two registers. -/
def arithmeticInPlace : List Opcode := [
  plain 0xb0 "add-int/2addr" .f12x sets,
  plain 0xb1 "sub-int/2addr" .f12x sets,
  plain 0xb2 "mul-int/2addr" .f12x sets,
  plain 0xb3 "div-int/2addr" .f12x riskySets,
  plain 0xb4 "rem-int/2addr" .f12x riskySets,
  plain 0xb5 "and-int/2addr" .f12x sets,
  plain 0xb6 "or-int/2addr" .f12x sets,
  plain 0xb7 "xor-int/2addr" .f12x sets,
  plain 0xb8 "shl-int/2addr" .f12x sets,
  plain 0xb9 "shr-int/2addr" .f12x sets,
  plain 0xba "ushr-int/2addr" .f12x sets,
  plain 0xbb "add-long/2addr" .f12x setsWide,
  plain 0xbc "sub-long/2addr" .f12x setsWide,
  plain 0xbd "mul-long/2addr" .f12x setsWide,
  plain 0xbe "div-long/2addr" .f12x riskySetsWide,
  plain 0xbf "rem-long/2addr" .f12x riskySetsWide,
  plain 0xc0 "and-long/2addr" .f12x setsWide,
  plain 0xc1 "or-long/2addr" .f12x setsWide,
  plain 0xc2 "xor-long/2addr" .f12x setsWide,
  plain 0xc3 "shl-long/2addr" .f12x setsWide,
  plain 0xc4 "shr-long/2addr" .f12x setsWide,
  plain 0xc5 "ushr-long/2addr" .f12x setsWide,
  plain 0xc6 "add-float/2addr" .f12x sets,
  plain 0xc7 "sub-float/2addr" .f12x sets,
  plain 0xc8 "mul-float/2addr" .f12x sets,
  plain 0xc9 "div-float/2addr" .f12x sets,
  plain 0xca "rem-float/2addr" .f12x sets,
  plain 0xcb "add-double/2addr" .f12x setsWide,
  plain 0xcc "sub-double/2addr" .f12x setsWide,
  plain 0xcd "mul-double/2addr" .f12x setsWide,
  plain 0xce "div-double/2addr" .f12x setsWide,
  plain 0xcf "rem-double/2addr" .f12x setsWide]

/-- Arithmetic with a literal. -/
def arithmeticLiteral : List Opcode := [
  plain 0xd0 "add-int/lit16" .f22s sets,
  plain 0xd1 "rsub-int" .f22s sets,
  plain 0xd2 "mul-int/lit16" .f22s sets,
  plain 0xd3 "div-int/lit16" .f22s riskySets,
  plain 0xd4 "rem-int/lit16" .f22s riskySets,
  plain 0xd5 "and-int/lit16" .f22s sets,
  plain 0xd6 "or-int/lit16" .f22s sets,
  plain 0xd7 "xor-int/lit16" .f22s sets,
  plain 0xd8 "add-int/lit8" .f22b sets,
  plain 0xd9 "rsub-int/lit8" .f22b sets,
  plain 0xda "mul-int/lit8" .f22b sets,
  plain 0xdb "div-int/lit8" .f22b riskySets,
  plain 0xdc "rem-int/lit8" .f22b riskySets,
  plain 0xdd "and-int/lit8" .f22b sets,
  plain 0xde "or-int/lit8" .f22b sets,
  plain 0xdf "xor-int/lit8" .f22b sets,
  plain 0xe0 "shl-int/lit8" .f22b sets,
  plain 0xe1 "shr-int/lit8" .f22b sets,
  plain 0xe2 "ushr-int/lit8" .f22b sets]

/-- What later versions added. -/
def newer : List Opcode := [
  ⟨"invoke-polymorphic", .f45cc, some .method, some .proto, calls, [.since 38 0xfa]⟩,
  ⟨"invoke-polymorphic/range", .f4rcc, some .method, some .proto, calls, [.since 38 0xfb]⟩,
  ⟨"invoke-custom", .f35c, some .callSite, none, yields, [.since 38 0xfc]⟩,
  ⟨"invoke-custom/range", .f3rc, some .callSite, none, yields, [.since 38 0xfd]⟩,
  ⟨"const-method-handle", .f21c, some .methodHandle, none, riskySets, [.since 39 0xfe]⟩,
  ⟨"const-method-type", .f21c, some .proto, none, riskySets, [.since 39 0xff]⟩]

/-- Tables in the code, known by their whole first unit. -/
def payloads : List Opcode := [
  plain 0x100 "packed-switch-payload" .packedSwitchPayload [],
  plain 0x200 "sparse-switch-payload" .sparseSwitchPayload [],
  plain 0x300 "array-payload" .arrayPayload []]

/-- All rows. -/
def all : List Opcode :=
  moves ++ returns ++ constants ++ objects ++ jumpsAndSwitches ++ comparisons ++
    conditions ++ arrayElements ++ fields ++ invocations ++ conversions ++ arithmetic ++
    arithmeticInPlace ++ arithmeticLiteral ++ newer ++ payloads

/-- The row that a value stands for in a version. -/
def lookup? (version value : Nat) : Option Opcode :=
  all.find? fun opcode => opcode.valueAt? version == some value

/-- The rows of one version. -/
def inVersion (version : Nat) : List Opcode :=
  all.filter fun opcode => (opcode.valueAt? version).isSome

end DexAtlas.InstructionSet
