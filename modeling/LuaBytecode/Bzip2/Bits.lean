import LuaBytecode.Bytes

/-!
Reading a compressed file bit by bit, the most significant bit of each byte first.
-/

namespace LuaBytecode.Bzip2

inductive Problem where
  | endOfInput
  | streamHeader
  | blockHeader
  | randomized
  | noSymbols
  | treeCount
  | selector
  | codeLength
  | unassignedCode
  | tooFewSelectors
  | blockTooLarge
  | origin
  | runWithoutLength
  | blockChecksum
  | streamChecksum
  deriving DecidableEq

/--
A position between two bits: the bytes from the current one on, and how many bits of it were read.
-/
structure BitCursor where
  rest : Bytes
  used : Nat

abbrev BitM := EStateM Problem BitCursor

namespace BitM

def fail (problem : Problem) : BitM α := fun c =>
  .error problem c

def bit : BitM Bool := fun c =>
  match c.rest with
  | [] => .error .endOfInput c
  | b :: rest =>
    let value := b.toNat.testBit (7 - c.used)
    if c.used < 7 then .ok value { c with used := c.used + 1 } else .ok value ⟨rest, 0⟩

def bitsAfter : (count high : Nat) → BitM Nat
  | 0, high => pure high
  | count + 1, high => do bitsAfter count (2 * high + (← bit).toNat)

def bits (count : Nat) : BitM Nat :=
  bitsAfter count 0

def align : BitM Unit := fun c =>
  if c.used = 0 then .ok () c else .ok () ⟨c.rest.drop 1, 0⟩

def atEnd : BitM Bool := fun c =>
  .ok c.rest.isEmpty c

def repeated (read : BitM α) : (count : Nat) → (found : Array α) → BitM (Array α)
  | 0, found => pure found
  | count + 1, found => do repeated read count (found.push (← read))

end BitM

end LuaBytecode.Bzip2
