import LuaBytecode.Bytes

/-!
UTF-8 as segments: a byte string is cut into the encodings of Unicode scalar values and the bytes
that belong to none. Validity, repair and quoting are all read off this one view.
-/

namespace LuaBytecode.Utf8

inductive Segment where
  | scalar (code : Nat) (encoding : Bytes)
  | stray (byte : UInt8)
  deriving DecidableEq, Repr

namespace Segment

def bytes : Segment → Bytes
  | .scalar _ encoding => encoding
  | .stray byte => [byte]

def isScalar : Segment → Bool
  | .scalar .. => true
  | .stray _ => false

end Segment

def isTail (b : UInt8) : Bool :=
  0x80 ≤ b && b ≤ 0xbf

/--
The first two bytes of a three-byte encoding that is neither overlong nor a surrogate.
-/
def isTripleStart (b₀ b₁ : UInt8) : Bool :=
  if b₀ == 0xe0 then 0xa0 ≤ b₁ && b₁ ≤ 0xbf
  else if b₀ == 0xed then 0x80 ≤ b₁ && b₁ ≤ 0x9f
  else 0xe1 ≤ b₀ && b₀ ≤ 0xef && isTail b₁

/--
The first two bytes of a four-byte encoding that is neither overlong nor above `10ffff`.
-/
def isQuadStart (b₀ b₁ : UInt8) : Bool :=
  if b₀ == 0xf0 then 0x90 ≤ b₁ && b₁ ≤ 0xbf
  else if b₀ == 0xf4 then 0x80 ≤ b₁ && b₁ ≤ 0x8f
  else 0xf1 ≤ b₀ && b₀ ≤ 0xf3 && isTail b₁

def tailBits (b : UInt8) : Nat :=
  b.toNat - 0x80

def first (b₀ : UInt8) (rest : Bytes) : Segment :=
  if b₀ < 0x80 then .scalar b₀.toNat [b₀]
  else
    match rest with
    | [] => .stray b₀
    | b₁ :: rest =>
      if 0xc2 ≤ b₀ && b₀ ≤ 0xdf && isTail b₁ then
        .scalar ((b₀.toNat - 0xc0) * 64 + tailBits b₁) [b₀, b₁]
      else
        match rest with
        | [] => .stray b₀
        | b₂ :: rest =>
          if isTripleStart b₀ b₁ && isTail b₂ then
            .scalar ((b₀.toNat - 0xe0) * 4096 + tailBits b₁ * 64 + tailBits b₂) [b₀, b₁, b₂]
          else
            match rest with
            | [] => .stray b₀
            | b₃ :: _ =>
              if isQuadStart b₀ b₁ && isTail b₂ && isTail b₃ then
                .scalar ((b₀.toNat - 0xf0) * 262144 + tailBits b₁ * 4096 + tailBits b₂ * 64
                  + tailBits b₃) [b₀, b₁, b₂, b₃]
              else .stray b₀

/--
Cuts `bytes` into segments behind those of `done`, passing over the `skip` bytes that the last of them covers.
-/
def segments.go (done : List Segment) (skip : Nat) : Bytes → List Segment
  | [] => done.reverse
  | b :: rest =>
    match skip with
    | skip + 1 => go done skip rest
    | 0 =>
      let segment := first b rest
      go (segment :: done) (segment.bytes.length - 1) rest

def segments (bytes : Bytes) : List Segment :=
  segments.go [] 0 bytes

def isValid (bytes : Bytes) : Bool :=
  (segments bytes).all Segment.isScalar

def replacement : Bytes :=
  [0xef, 0xbf, 0xbd]

def repair.go (inRun : Bool) : List Segment → List Bytes
  | [] => []
  | .scalar _ encoding :: rest => encoding :: go false rest
  | .stray _ :: rest => if inRun then go true rest else replacement :: go true rest

def repair (bytes : Bytes) : Bytes :=
  (repair.go false (segments bytes)).flatten

def encode (code : Nat) : Bytes :=
  if code < 0x80 then [code.toUInt8]
  else if code < 0x800 then [(0xc0 + code / 64).toUInt8, (0x80 + code % 64).toUInt8]
  else if code < 0x10000 then
    [(0xe0 + code / 4096).toUInt8, (0x80 + code / 64 % 64).toUInt8, (0x80 + code % 64).toUInt8]
  else
    [(0xf0 + code / 262144).toUInt8, (0x80 + code / 4096 % 64).toUInt8,
      (0x80 + code / 64 % 64).toUInt8, (0x80 + code % 64).toUInt8]

end LuaBytecode.Utf8
