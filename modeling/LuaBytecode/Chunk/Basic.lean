import LuaBytecode.Chunk.Platform
import LuaBytecode.Chunk.Prototype

/-!
Binary chunks: a header that describes the platform, and the main function.
-/

namespace LuaBytecode

structure Version where
  byte : UInt8
  deriving DecidableEq

namespace Version

def major (v : Version) : Nat :=
  v.byte.toNat / 16

def minor (v : Version) : Nat :=
  v.byte.toNat % 16

def text (v : Version) : String :=
  s!"{v.major}.{v.minor}"

def lua54 : Version :=
  ⟨0x54⟩

end Version

structure Header where
  version : Version
  format : UInt8
  instructionSize : UInt8
  integerSize : Width
  numberSize : Width
  byteOrder : ByteOrder
  integerSample : Int64
  numberSample : Binary64
  deriving DecidableEq

namespace Header

def signature : Bytes :=
  [0x1b, 0x4c, 0x75, 0x61]

def formatByte : UInt8 := 0

/--
Bytes that careless copying of a chunk would change.
-/
def conversionCheck : Bytes :=
  [0x19, 0x93, 0x0d, 0x0a, 0x1a, 0x0a]

def instructionBytes : UInt8 := 4

def integerSampleValue : Nat := 0x5678

def numberSampleValue : Binary64 :=
  ⟨0x4077280000000000⟩

def numberSampleMatches (h : Header) : Bool :=
  h.numberSample == numberSampleValue

def platform (h : Header) : Platform where
  byteOrder := h.byteOrder
  integerSize := h.integerSize
  numberSize := h.numberSize

end Header

structure Chunk where
  header : Header
  upvalueCount : UInt8
  main : Prototype
  trailingBytes : Nat

end LuaBytecode
