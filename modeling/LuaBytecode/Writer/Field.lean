import LuaBytecode.Chunk.Platform
import LuaBytecode.Instruction.Basic
import LuaBytecode.Number.Binary64

/-!
Writing the fields that all parts of a chunk are made of.
-/

namespace LuaBytecode

def Bytes.ofVarint.high (x : Nat) : Bytes :=
  if x = 0 then [] else high (x / 128) ++ [(x % 128).toUInt8]
termination_by x

/--
A number in groups of seven bits, the most significant first and as few as possible. The high bit marks the
last group.
-/
def Bytes.ofVarint (x : Nat) : Bytes :=
  ofVarint.high (x / 128) ++ [(x % 128 + 128).toUInt8]

def Bytes.ofSize (n : Int64) : Bytes :=
  Bytes.ofVarint n.toUInt64.toNat

def Bytes.ofString (s : Bytes) : Bytes :=
  Bytes.ofVarint (s.length + 1) ++ s

def Bytes.ofString? : Option Bytes → Bytes
  | none => Bytes.ofVarint 0
  | some s => Bytes.ofString s

def Bytes.ofTable (f : α → Bytes) (table : List α) : Bytes :=
  Bytes.ofVarint table.length ++ table.flatMap f

namespace Platform

def integerBytes (p : Platform) (n : Int64) : Bytes :=
  p.byteOrder.encode p.integerSize.bytes n.toUInt64.toNat

def numberBytes (p : Platform) (x : Binary64) : Bytes :=
  match p.numberSize with
  | .four => p.byteOrder.encode 4 x.toSingle.toNat
  | .eight => p.byteOrder.encode 8 x.bits.toNat

def wordBytes (p : Platform) (w : Word) : Bytes :=
  p.byteOrder.encode 4 w.toNat

end Platform

end LuaBytecode
