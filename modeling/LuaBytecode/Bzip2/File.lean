import LuaBytecode.Bzip2.Block

/-!
Compressed files: one or more streams of blocks. Each stream ends with a checksum over its blocks and
is filled up to a whole byte.
-/

namespace LuaBytecode.Bzip2

def magic : Bytes :=
  utf8 "BZh"

def blockMagic : Nat := 0x314159265359

def footerMagic : Nat := 0x177245385090

def combine (stream block : UInt32) : UInt32 :=
  ((stream <<< 1) ||| (stream >>> 31)) ^^^ block

/--
Reads the blocks of a stream and its footer. Each block takes at least one bit, so that there are fewer than
`room`, the number of bits in the file.
-/
def readBlocks (bits blockSize : Nat) :
    (room : Nat) → (stream : UInt32) → (out : Array UInt8) → BitM (Array UInt8)
  | 0, _, _ => BitM.fail .endOfInput
  | room + 1, stream, out => do
    let number ← BitM.bits 48
    if number = blockMagic then
      let block ← Block.read bits blockSize
      readBlocks bits blockSize room (combine stream block.checksum) (out ++ block.text)
    else if number = footerMagic then
      let expected ← BitM.bits 32
      if stream ≠ expected.toUInt32 then
        BitM.fail .streamChecksum
      BitM.align
      return out
    else
      BitM.fail .blockHeader

def readStreamHeader : BitM Nat := do
  for expected in magic do
    if (← BitM.bits 8) ≠ expected.toNat then
      BitM.fail .streamHeader
  let level ← BitM.bits 8
  if level < 0x31 || 0x39 < level then
    BitM.fail .streamHeader
  return (level - 0x30) * 100000

def readStreams (bits : Nat) : (room : Nat) → (out : Array UInt8) → BitM (Array UInt8)
  | 0, _ => BitM.fail .endOfInput
  | room + 1, out => do
    let blockSize ← readStreamHeader
    let out ← readBlocks bits blockSize bits 0 out
    if ← BitM.atEnd then return out
    else readStreams bits room out

def decompress (file : Bytes) : Except Problem Bytes :=
  let bits := 8 * file.length
  match readStreams bits bits #[] ⟨file, 0⟩ with
  | .ok text _ => .ok text.toList
  | .error problem _ => .error problem

def decompressIfNeeded (file : Bytes) : Except Problem Bytes :=
  if magic.isPrefixOf file then decompress file else .ok file

end LuaBytecode.Bzip2
