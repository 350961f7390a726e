import LuaBytecode.Reader.Cursor

/-!
Reading the parts of a chunk, from constants up to the whole chunk.
-/

namespace LuaBytecode

open ReadM

def Header.readSize (what : String) (valid : UInt8 → Option α) : ReadM α := do
  let start ← offset
  let b ← inside (.part (what ++ " size")) byte
  match valid b with
  | some a => return a
  | none => fail start (.numericSize what b)

def Header.sampleOrder? (sample : Bytes) : Option ByteOrder :=
  if ByteOrder.little.decode sample = integerSampleValue then some .little
  else if ByteOrder.big.decode sample = integerSampleValue then some .big
  else none

def Header.read (limits : Limits) : ReadM Header := do
  expect signature 0 .notAChunk
  let versionOffset ← offset
  let version : Version := ⟨← inside (.part "version") byte⟩
  if version ≠ .lua54 then
    fail versionOffset (.version version)
  let formatOffset ← offset
  let format ← inside (.part "format") byte
  if format ≠ formatByte then
    fail formatOffset (.format format)
  expect conversionCheck (← offset) .corruptedCheck
  let instructionSize ←
    readSize "instruction" fun n => if n = instructionBytes then some n else none
  let integerSize ← readSize "integer" Width.ofByte?
  let numberSize ← readSize "float" Width.ofByte?
  -- The byte order is known only from the sample, which is as wide as integers are.
  let before ← ReadM.platform
  setPlatform { before with integerSize, numberSize }
  let sampleOffset ← offset
  let sample ← inside (.part "integer sample") (bytes integerSize.bytes)
  match sampleOrder? sample with
  | none => fail sampleOffset .integerSample
  | some byteOrder =>
    setPlatform { byteOrder, integerSize, numberSize }
    let numberOffset ← offset
    let numberSample ← inside (.part "number sample") number
    let header : Header :=
      { version, format, instructionSize, integerSize, numberSize, byteOrder,
        integerSample := Int64.ofNat integerSampleValue, numberSample }
    if limits.strictPlatform && !header.numberSampleMatches then
      fail numberOffset (.floatSample numberSample)
    else
      return header

def Constant.readString (long : Bool) : ReadM Constant := do
  let start ← offset
  match ← ReadM.string? with
  | some value => return .string value long
  | none => fail start .absentConstantString

def Constant.read : ReadM Constant := do
  let start ← offset
  match ← byte with
  | 0x00 => return .nil
  | 0x01 => return .boolean false
  | 0x11 => return .boolean true
  | 0x03 => return .integer (← ReadM.integer)
  | 0x13 => return .float (← number)
  | 0x04 => readString false
  | 0x14 => readString true
  | tag => fail start (.constantTag tag)

def Upvalue.read : ReadM Upvalue := do
  match ← bytes 3 with
  | [inStack, index, kind] =>
    match VariableKind.ofCode? kind with
    | some variableKind => return ⟨inStack != 0, index, variableKind⟩
    | none => fail ((← offset) - 1) (.variableKind kind)
  | _ => fail (← offset) .endOfInput

def Instruction.read : ReadM Instruction := do
  let start ← offset
  match Instruction.ofWord (← word) with
  | .ok i => return i
  | .error e => fail start (.opcode e)

def Checkpoint.read : ReadM Checkpoint := do
  let pc ← inside (.part "pc") size
  let line ← inside (.part "line") size
  return ⟨Int64.ofNat pc, Int64.ofNat line⟩

def LocalVariable.read : ReadM LocalVariable := do
  let name ← inside (.part "name") string?
  let startPC ← inside (.part "start pc") size
  let endPC ← inside (.part "end pc") size
  -- A variable without a name has the empty one.
  return ⟨name.getD [], Int64.ofNat startPC, Int64.ofNat endPC⟩

/-! The least numbers of bytes that elements of tables take. -/

def Instruction.minSize : Nat := Header.instructionBytes.toNat

def Constant.minSize : Nat := 1

def Upvalue.minSize : Nat := 3

def Prototype.minSize : Nat := 14

def DebugInfo.minLineDeltaSize : Nat := 1

def Checkpoint.minSize : Nat := 2

def LocalVariable.minSize : Nat := 3

def DebugInfo.minUpvalueNameSize : Nat := 1

namespace DebugInfo

def lineDeltaTable : Table Int8 :=
  ⟨utf8 "line info", minLineDeltaSize, do return (← byte).toInt8⟩

def checkpointTable : Table Checkpoint :=
  ⟨utf8 "absolute line info", Checkpoint.minSize, Checkpoint.read⟩

def localTable : Table LocalVariable :=
  ⟨utf8 "local variables", LocalVariable.minSize, LocalVariable.read⟩

def upvalueNameTable : Table Bytes :=
  ⟨utf8 "upvalue names", minUpvalueNameSize, do return (← string?).getD []⟩

end DebugInfo

namespace Prototype

def codeTable : Table Instruction :=
  ⟨utf8 "code", Instruction.minSize, Instruction.read⟩

def constantTable : Table Constant :=
  ⟨utf8 "constants", Constant.minSize, Constant.read⟩

def upvalueTable : Table Upvalue :=
  ⟨utf8 "upvalues", Upvalue.minSize, Upvalue.read⟩

def functionTable (read : ReadM Prototype) : Table Prototype :=
  ⟨utf8 "functions", minSize, read⟩

end Prototype

def DebugInfo.read (limits : Limits) (codeSize upvalueCount : Int) : ReadM DebugInfo := do
  let lineOffset ← offset
  let lineDeltas ← lineDeltaTable.read limits
  if lineDeltas.length ≠ 0 && lineDeltas.length ≠ codeSize then
    inside (.part "line info") (fail lineOffset (.lineCount lineDeltas.length codeSize))
  let checkpointOffset ← offset
  let checkpoints ← checkpointTable.read limits
  if let .error problem := LineTable.check lineDeltas checkpoints then
    inside (.part "absolute line info") (fail checkpointOffset (.checkpoints problem))
  let locals ← localTable.read limits
  let nameOffset ← offset
  let upvalueNames ← upvalueNameTable.read limits
  if upvalueNames.length ≠ 0 && upvalueNames.length ≠ upvalueCount then
    inside (.part "upvalue names")
      (fail nameOffset (.upvalueNameCount upvalueNames.length upvalueCount))
  return { lineDeltas, checkpoints, locals, upvalueNames }

/--
Reads a function under which `levels` levels of functions, itself included, are still allowed.
-/
def Prototype.read (limits : Limits) : (levels : Nat) → ReadM Prototype
  | 0 => do fail (← offset) (.depth limits.maxDepth)
  | levels + 1 => do
    let name ← inside (.part "source") string?
    let lineDefined ← inside (.part "line defined") size
    let lastLineDefined ← inside (.part "last line defined") size
    let numParams ← inside (.part "number of parameters") byte
    let vararg ← inside (.part "is vararg") byte
    let maxStackSize ← inside (.part "max stack size") byte
    let code ← codeTable.read limits
    let constants ← constantTable.read limits
    let upvalues ← upvalueTable.read limits
    let functions ← (functionTable (Prototype.read limits levels)).read limits
    let debug ← inside (.part "debug") (DebugInfo.read limits code.length upvalues.length)
    return {
      name, lineDefined := Int64.ofNat lineDefined,
      lastLineDefined := Int64.ofNat lastLineDefined,
      numParams, vararg := .ofByte vararg, maxStackSize,
      code, constants, upvalues, functions, debug }

def Prototype.readAt (limits : Limits) (depth : Int) : ReadM Prototype := do
  -- No depth exceeds the greatest possible limit, and each level takes a byte at least.
  if limits.maxDepth = 0x7fffffffffffffff then
    Prototype.read limits ((← remaining) + 1)
  else
    Prototype.read limits (limits.maxDepth + 1 - depth).toNat

def Chunk.read (limits : Limits) : ReadM Chunk := do
  let header ← inside (.part "header") (Header.read limits)
  let countOffset ← offset
  let upvalueCount ← inside (.part "upvalue count") byte
  let main ← inside (.part "main function") (Prototype.read limits limits.maxDepth)
  if upvalueCount.toNat ≠ main.upvalues.length then
    fail countOffset (.upvalueCount upvalueCount main.upvalues.length)
  return { header, upvalueCount, main, trailingBytes := ← remaining }

def Chunk.decode (limits : Limits) (input : Bytes) : Except Fault Chunk :=
  match inside (.part "decode lua chunk") (Chunk.read limits) (Cursor.ofBytes input) with
  | .ok chunk _ => .ok chunk
  | .error fault _ => .error fault

/--
Decodes a chunk in place of the one that is there, which stays if the input is refused.
-/
def Chunk.decodeInto (current : Option Chunk) (input : Bytes) : Except Fault Unit × Option Chunk :=
  match decode {} input with
  | .ok chunk => (.ok (), some chunk)
  | .error fault => (.error fault, current)

end LuaBytecode
