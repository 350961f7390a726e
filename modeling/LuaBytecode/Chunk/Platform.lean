import LuaBytecode.Bytes

/-!
The platform of a chunk: the order of the bytes of a number and the sizes of integers and floats.
-/

namespace LuaBytecode

inductive ByteOrder where
  | little
  | big
  deriving DecidableEq

def ByteOrder.decode (order : ByteOrder) (bytes : Bytes) : Nat :=
  let mostFirst := match order with
    | .little => bytes.reverse
    | .big => bytes
  mostFirst.foldl (fun n b => n * 256 + b.toNat) 0

def ByteOrder.encode.leastFirst : (count n : Nat) → Bytes
  | 0, _ => []
  | count + 1, n => n.toUInt8 :: leastFirst count (n / 256)

def ByteOrder.encode (order : ByteOrder) (count n : Nat) : Bytes :=
  match order with
  | .little => encode.leastFirst count n
  | .big => (encode.leastFirst count n).reverse

inductive Width where
  | four
  | eight
  deriving DecidableEq

namespace Width

def bytes : Width → Nat
  | .four => 4
  | .eight => 8

def values : Width → Nat
  | .four => 0x100000000
  | .eight => 0x10000000000000000

def ofByte? : UInt8 → Option Width
  | 4 => some .four
  | 8 => some .eight
  | _ => none

end Width

structure Platform where
  byteOrder : ByteOrder := .little
  integerSize : Width := .eight
  numberSize : Width := .eight
  deriving DecidableEq

end LuaBytecode
