import LuaBytecode.Writer.Field
import LuaBytecode.Chunk.Basic

/-!
Writing the parts of a chunk, from constants up to the whole chunk. What is written is what the compiler
of the language writes for the same functions.
-/

namespace LuaBytecode

def Constant.encode (p : Platform) : Constant → Bytes
  | .nil => [0x00]
  | .boolean false => [0x01]
  | .boolean true => [0x11]
  | .integer value => 0x03 :: p.integerBytes value
  | .float value => 0x13 :: p.numberBytes value
  | .string value false => 0x04 :: Bytes.ofString value
  | .string value true => 0x14 :: Bytes.ofString value

def Instruction.encode (p : Platform) (i : Instruction) : Bytes :=
  p.wordBytes i.toWord

def Upvalue.encode (u : Upvalue) : Bytes :=
  [u.inStack.toUInt8, u.index, u.kind.code]

def Checkpoint.encode (c : Checkpoint) : Bytes :=
  Bytes.ofSize c.pc ++ Bytes.ofSize c.line

def LocalVariable.encode (v : LocalVariable) : Bytes :=
  Bytes.ofString v.name ++ Bytes.ofSize v.startPC ++ Bytes.ofSize v.endPC

def DebugInfo.encode (info : DebugInfo) : Bytes :=
  Bytes.ofTable (fun delta => [delta.toUInt8]) info.lineDeltas
    ++ Bytes.ofTable Checkpoint.encode info.checkpoints
    ++ Bytes.ofTable LocalVariable.encode info.locals
    ++ Bytes.ofTable Bytes.ofString info.upvalueNames

mutual

def Prototype.encode (p : Platform) : Prototype → Bytes
  | f@{ functions, .. } =>
    Bytes.ofString? f.name ++ Bytes.ofSize f.lineDefined ++ Bytes.ofSize f.lastLineDefined
      ++ [f.numParams, f.vararg.bits, f.maxStackSize]
      ++ Bytes.ofTable (Instruction.encode p) f.code
      ++ Bytes.ofTable (Constant.encode p) f.constants
      ++ Bytes.ofTable Upvalue.encode f.upvalues
      ++ Bytes.ofVarint functions.length ++ encodeAll p functions
      ++ f.debug.encode

def Prototype.encodeAll (p : Platform) : List Prototype → Bytes
  | [] => []
  | f :: rest => f.encode p ++ encodeAll p rest

end

def Header.encode (h : Header) : Bytes :=
  signature ++ [h.version.byte, h.format] ++ conversionCheck
    ++ [h.instructionSize, h.integerSize.bytes.toUInt8, h.numberSize.bytes.toUInt8]
    ++ h.platform.integerBytes (Int64.ofNat integerSampleValue)
    ++ h.platform.numberBytes numberSampleValue

def Chunk.encode (header : Header) (main : Prototype) : Bytes :=
  header.encode ++ main.upvalues.length.toUInt8 :: main.encode header.platform

end LuaBytecode
