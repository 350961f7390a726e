/-!
Double precision numbers as their bits. Numbers of a chunk are only moved, compared by their bits and
printed, so no arithmetic on them is needed beyond widening and narrowing to single precision.
-/

namespace LuaBytecode

structure Binary64 where
  bits : UInt64
  deriving DecidableEq

namespace Binary64

inductive Value where
  | nan
  | infinite (negative : Bool)
  | finite (negative : Bool) (mantissa : Nat) (exponent : Int)
  deriving DecidableEq

def fractionSize : Nat := 0x10000000000000

def signUnit : Nat := 0x8000000000000000

def ofFields (sign exponent fraction : Nat) : Binary64 :=
  ⟨(sign * signUnit + exponent * fractionSize + fraction).toUInt64⟩

def isNegative (x : Binary64) : Bool :=
  signUnit ≤ x.bits.toNat

def exponentField (x : Binary64) : Nat :=
  x.bits.toNat / fractionSize % 2048

def fractionField (x : Binary64) : Nat :=
  x.bits.toNat % fractionSize

def value (x : Binary64) : Value :=
  if x.exponentField = 2047 then
    if x.fractionField = 0 then .infinite x.isNegative else .nan
  else if x.exponentField = 0 then .finite x.isNegative x.fractionField (-1074)
  else .finite x.isNegative (x.fractionField + fractionSize) (x.exponentField - 1075)

def isFinite (x : Binary64) : Bool :=
  x.exponentField != 2047

def isNaN (x : Binary64) : Bool :=
  x.exponentField == 2047 && x.fractionField != 0

/--
Widens the single precision number with the given bits. A number that is not one keeps its payload and becomes
quiet.
-/
def ofSingle (bits : UInt32) : Binary64 :=
  let sign := bits.toNat / 0x80000000
  let exponent := bits.toNat / 0x800000 % 256
  let fraction := bits.toNat % 0x800000
  if exponent = 255 then
    if fraction = 0 then ofFields sign 2047 0
    else ofFields sign 2047 (fraction % 0x400000 * 0x20000000 + 0x8000000000000)
  else if exponent = 0 then
    if fraction = 0 then ofFields sign 0 0
    else
      let top := fraction.log2
      ofFields sign (top + 874) ((fraction - Nat.pow 2 top) * Nat.pow 2 (52 - top))
  else ofFields sign (exponent + 896) (fraction * 0x20000000)

/--
The quotient of `n` by `2 ^ shift`, rounded to the nearest integer and a half to the even one.
-/
def shiftRightRound (n shift : Nat) : Nat :=
  let unit := Nat.pow 2 shift
  let quotient := n / unit
  let twice := 2 * (n % unit)
  if unit < twice || (twice == unit && quotient % 2 == 1) then quotient + 1 else quotient

def toSingle (x : Binary64) : UInt32 :=
  let sign := if x.isNegative then 0x80000000 else 0
  match x.value with
  | .nan => (sign + 0x7fc00000 + x.fractionField % 0x8000000000000 / 0x20000000).toUInt32
  | .infinite _ => (sign + 0x7f800000).toUInt32
  | .finite _ mantissa exponent =>
    if mantissa = 0 then sign.toUInt32
    else
      let unit := max (mantissa.log2 + exponent - 23) (-149)
      let rounded :=
        if exponent ≤ unit then shiftRightRound mantissa (unit - exponent).toNat
        else mantissa * Nat.pow 2 (exponent - unit).toNat
      let magnitude := (unit + 149).toNat * 0x800000 + rounded
      (sign + min magnitude 0x7f800000).toUInt32

end Binary64

end LuaBytecode
