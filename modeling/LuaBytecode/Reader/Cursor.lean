import LuaBytecode.Text.Utf8
import LuaBytecode.Reader.Fault

/-!
The cursor over the bytes of a chunk and the fields that all parts of a chunk are made of. The cursor says
where reading stopped, whether a field was read or not. A field that is cut short is reported at its first
byte, except for the bytes of a string, which are a field of their own behind their number.
-/

namespace LuaBytecode

/--
A position in the input: the number of bytes before it, the bytes after it, and how numbers are stored from
here on.
-/
structure Cursor where
  offset : Nat
  rest : Bytes
  platform : Platform

def Cursor.ofBytes (input : Bytes) (platform : Platform := {}) : Cursor :=
  ⟨0, input, platform⟩

def Cursor.advance (c : Cursor) (n : Nat) (rest : Bytes) : Cursor :=
  { c with offset := c.offset + n, rest }

/--
The number of bytes that are left, counted no further than up to a bound.
-/
def Cursor.remainingUpTo (c : Cursor) (bound : Nat) : Nat :=
  (c.rest.take bound).length

abbrev ReadM := EStateM Fault Cursor

namespace ReadM

def fail (offset : Nat) (cause : Cause) : ReadM α := fun c =>
  .error { cause, offset } c

def inside (place : Place) (read : ReadM α) : ReadM α := fun c =>
  match read c with
  | .ok a c => .ok a c
  | .error fault c => .error (fault.within place) c

def offset : ReadM Nat := fun c =>
  .ok c.offset c

def remaining : ReadM Nat := fun c =>
  .ok c.rest.length c

def platform : ReadM Platform := fun c =>
  .ok c.platform c

def setPlatform (platform : Platform) : ReadM Unit := fun c =>
  .ok () { c with platform }

def byte : ReadM UInt8 := fun c =>
  match c.rest with
  | [] => .error { cause := .endOfInput, offset := c.offset } c
  | b :: rest => .ok b (c.advance 1 rest)

def bytes (n : Int) : ReadM Bytes := fun c =>
  if n < 0 then .error { cause := .endOfInput, offset := c.offset } c
  else
    match Bytes.splitExact? n.toNat c.rest with
    | some (head, rest) => .ok head (c.advance n.toNat rest)
    | none => .error { cause := .endOfInput, offset := c.offset } c

def literal (expected : Bytes) : ReadM Bool := fun c =>
  match Bytes.splitExact? expected.length c.rest with
  | some (head, rest) =>
    if head = expected then .ok true (c.advance expected.length rest) else .ok false c
  | none => .ok false c

/--
Passes over the given bytes. Other bytes are the fault `cause` at `offset`; input that ends before they are
complete is truncated there.
-/
def expect (expected : Bytes) (offset : Nat) (cause : Cause) : ReadM Unit := do
  if ← literal expected then
    return
  let c ← get
  if c.rest.isPrefixOf expected then
    fail offset .endOfInput
  else
    fail offset cause

def fixed (width : Width) : ReadM Nat := do
  let group ← bytes width.bytes
  return (← platform).byteOrder.decode group

def integer : ReadM Int64 := do
  let width := (← platform).integerSize
  let n ← fixed width
  return Int64.ofInt (Int.bmod n width.values)

def number : ReadM Binary64 := do
  let width := (← platform).numberSize
  let n ← fixed width
  match width with
  | .four => return .ofSingle n.toUInt32
  | .eight => return ⟨n.toUInt64⟩

def word : ReadM Word := do
  let n ← fixed .four
  return n.toUInt32

def varint.go (start x offset : Nat) (platform : Platform) : Bytes → EStateM.Result Fault Cursor Nat
  | [] => .error { cause := .endOfInput, offset := start } ⟨offset, [], platform⟩
  | b :: rest =>
    -- One more group takes the value out of 64 bits, even if the group is zero.
    if 0x200000000000000 ≤ x then .error { cause := .longVarint, offset := start } ⟨offset + 1, rest, platform⟩
    else
      let x := x * 128 + b.toNat % 128
      if 128 ≤ b.toNat then .ok x ⟨offset + 1, rest, platform⟩
      else go start x (offset + 1) platform rest

/--
An integer in groups of seven bits, the most significant first. The high bit marks the last group. The value
has at most 64 bits.
-/
def varint : ReadM Nat := fun c =>
  varint.go c.offset 0 c.offset c.platform c.rest

def size : ReadM Nat := do
  let start ← offset
  let x ← varint
  if x < 0x8000000000000000 then
    return x
  else
    fail start (.largeSize x)

/--
Bytes with their number in front, which counts one more than there are. A number of zero means that there is
no string.
-/
def rawString? : ReadM (Option Bytes) := do
  let n ← size
  if n = 0 then
    return none
  else
    return some (← bytes (n - 1 : Nat))

def string? : ReadM (Option Bytes) := do
  match ← rawString? with
  | none => return none
  | some text => return some (if Utf8.isValid text then text else Utf8.repair text)

end ReadM

def defaultMaxDepth : Nat := 200

def defaultMaxCount : Nat := 33554432

structure Limits where
  maxDepth : Nat := defaultMaxDepth
  maxCount : Nat := defaultMaxCount
  strictPlatform : Bool := false
  deriving DecidableEq

def Limits.ofRequest (maxDepth maxCount : Int) (strictPlatform : Bool) : Limits where
  maxDepth := if maxDepth ≤ 0 then defaultMaxDepth else maxDepth.toNat
  maxCount := if maxCount ≤ 0 then defaultMaxCount else maxCount.toNat
  strictPlatform := strictPlatform

namespace ReadM

/--
How many elements a table of `count` elements can have at most, if each takes `minSize` bytes or more and
`left` bytes are left.
-/
def capacity (count minSize left : Nat) : Nat :=
  if minSize = 0 then count else min count (left / minSize)

/--
How a table was read: the room that was made for its elements, those that were found, and the result.
-/
structure Trace (α : Type) where
  room : Nat
  found : Array α
  result : EStateM.Result Fault Cursor (List α)

def traceElements (table : Bytes) (read : ReadM α) (room : Nat) :
    (left index : Nat) → Array α → Cursor → Trace α
  | 0, _, found, c => ⟨room, found, .ok found.toList c⟩
  | left + 1, index, found, c =>
    match read c with
    | .ok a c => traceElements table read room left (index + 1) (found.push a) c
    | .error fault c => ⟨room, found, .error (fault.within (.element table index)) c⟩

/--
A table: the number of its elements, then the elements. Room is made only for as many elements as the rest of
the input can hold, whatever the number says.
-/
def trace (limits : Limits) (table : Bytes) (minSize : Nat) (read : ReadM α) (c : Cursor) : Trace α :=
  match inside (.table table) (inside (.part "size") size) c with
  | .error fault c' => ⟨0, #[], .error fault c'⟩
  | .ok count c' =>
    if limits.maxCount < count then
      ⟨0, #[], inside (.table table) (fail c.offset (.tableSize count limits.maxCount)) c'⟩
    else if count = 0 then
      ⟨0, #[], .ok [] c'⟩
    else
      let room := capacity count minSize (c'.remainingUpTo (count * minSize))
      traceElements table read room count 0 (Array.emptyWithCapacity room) c'

def vector (limits : Limits) (table : Bytes) (minSize : Nat) (read : ReadM α) : ReadM (List α) :=
  fun c => (trace limits table minSize read c).result

end ReadM

/--
A table of a function: its name in faults, the least number of bytes that an element takes, and how an element
is read.
-/
structure Table (α : Type) where
  name : Bytes
  minSize : Nat
  element : ReadM α

namespace Table

def trace (t : Table α) (limits : Limits) (c : Cursor) : ReadM.Trace α :=
  ReadM.trace limits t.name t.minSize t.element c

def read (t : Table α) (limits : Limits) : ReadM (List α) :=
  ReadM.vector limits t.name t.minSize t.element

end Table

end LuaBytecode
