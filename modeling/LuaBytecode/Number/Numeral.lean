import LuaBytecode.Bytes

/-!
Integers as a user writes them: an optional sign, a mark for the base, and digits that underscores may
set apart.
-/

namespace LuaBytecode.Numeral

inductive Problem where
  | malformed
  | outOfRange
  deriving DecidableEq

def Problem.message : Problem → String
  | .malformed => "invalid syntax"
  | .outOfRange => "value out of range"

def digit? (b : UInt8) : Option Nat :=
  if 0x30 ≤ b && b ≤ 0x39 then some (b.toNat - 0x30)
  else if 0x41 ≤ b && b ≤ 0x5a then some (b.toNat - 0x41 + 10)
  else if 0x61 ≤ b && b ≤ 0x7a then some (b.toNat - 0x61 + 10)
  else none

def base : Bytes → Nat × Bytes
  | 0x30 :: letter :: d :: rest =>
    if letter = 0x62 || letter = 0x42 then (2, d :: rest)
    else if letter = 0x6f || letter = 0x4f then (8, d :: rest)
    else if letter = 0x78 || letter = 0x58 then (16, d :: rest)
    else (8, letter :: d :: rest)
  | 0x30 :: rest => (8, rest)
  | digits => (10, digits)

/--
The value of digits behind those of value `n`. The first byte that is no digit of the base, or that takes the
value out of 64 bits, settles the complaint.
-/
def value (base : Nat) (n : Nat) : Bytes → Except Problem Nat
  | [] => .ok n
  | 0x5f :: rest => value base n rest
  | b :: rest =>
    match digit? b with
    | none => .error .malformed
    | some d =>
      if base ≤ d then .error .malformed
      else if 0x10000000000000000 ≤ n * base + d then .error .outOfRange
      else value base (n * base + d) rest

def separated (afterDigit : Bool) : Bytes → Bool
  | [] => true
  | 0x5f :: b :: rest => afterDigit && b != 0x5f && separated true rest
  | [0x5f] => false
  | _ :: rest => separated true rest

/--
The value of a numeral without a sign. A mark for the base counts as a digit where underscores are concerned.
-/
def natural (text : Bytes) : Except Problem Nat := do
  if text = [] then throw .malformed
  let (radix, digits) := base text
  let n ← value radix 0 digits
  if separated (digits.length < text.length) digits then return n else throw .malformed

def integer (text : Bytes) : Except Problem Int64 := do
  let (negative, digits) := match text with
    | 0x2d :: digits => (true, digits)
    | 0x2b :: digits => (false, digits)
    | digits => (false, digits)
  let n ← natural digits
  if negative then
    if n ≤ 0x8000000000000000 then return Int64.ofInt (-n) else throw .outOfRange
  else
    if n < 0x8000000000000000 then return Int64.ofNat n else throw .outOfRange

end LuaBytecode.Numeral
