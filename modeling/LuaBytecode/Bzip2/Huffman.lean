import LuaBytecode.Bzip2.Bits

/-!
Canonical codes. Only the length of each symbol's code is stored: the codes of one length are
consecutive numbers in the order of the symbols, and follow those of the shorter lengths.
-/

namespace LuaBytecode.Bzip2

structure Code where
  counts : List Nat
  symbols : Array Nat

def maxCodeLength : Nat := 20

def Code.ofLengths (lengths : Array Nat) : Code :=
  let ofLength (n : Nat) : List Nat := lengths.toList.zipIdx.filterMap fun (length, symbol) =>
    if length = n then some symbol else none
  let groups := (List.range maxCodeLength).map fun i => ofLength (i + 1)
  ⟨groups.map List.length, groups.flatten.toArray⟩

/--
Reads the rest of a code: `value` are its bits so far, `first` is the least code of their length, and `index`
symbols have shorter codes.
-/
def Code.readAfter (symbols : Array Nat) : List Nat → (value first index : Nat) → BitM Nat
  | [], _, _, _ => BitM.fail .unassignedCode
  | count :: longer, value, first, index => do
    let value := 2 * value + (← BitM.bit).toNat
    if value < first + count then
      match symbols[index + (value - first)]? with
      | some symbol => return symbol
      | none => BitM.fail .unassignedCode
    else
      readAfter symbols longer value (2 * (first + count)) (index + count)

def Code.read (code : Code) : BitM Nat :=
  readAfter code.symbols code.counts 0 0 0

/--
Reads the length of one code, which is stored as steps up or down from `length`. Each step takes two bits, so
`room`, the number of bits in the file, is more than there are steps.
-/
def readLength : (room : Nat) → (length : Nat) → BitM Nat
  | 0, _ => BitM.fail .endOfInput
  | room + 1, length => do
    if length < 1 || maxCodeLength < length then
      BitM.fail .codeLength
    else if ← BitM.bit then
      if ← BitM.bit then readLength room (length - 1) else readLength room (length + 1)
    else
      return length

def readLengths (room : Nat) : (count length : Nat) → (found : Array Nat) → BitM (Array Nat)
  | 0, _, found => pure found
  | count + 1, length, found => do
    let length ← readLength room length
    readLengths room count length (found.push length)

def Code.readTree (room count : Nat) : BitM Code := do
  let length ← BitM.bits 5
  return Code.ofLengths (← readLengths room count length #[])

end LuaBytecode.Bzip2
