import LuaBytecode.Number.Binary64

/-!
The shortest decimal that reads back as a given double. A double stands for every real number that
rounds to it; among the decimals in that interval the one with the fewest digits is taken, of those the
nearest to the double, and of two equally near ones the one with an even last digit.
-/

namespace LuaBytecode

/--
The decimal `d₀.d₁d₂… * 10 ^ exponent` or its negative. The first digit is zero only for zero.
-/
structure Decimal where
  negative : Bool
  digits : List Nat
  exponent : Int
  deriving DecidableEq

namespace Decimal

def floorLog (mantissa : Nat) (exponent : Int) : Int :=
  -- The guess is off by one at most.
  let guess := (mantissa.log2 + exponent) * 30103 / 100000
  let reaches (e : Int) : Bool :=
    Nat.pow 10 e.toNat * Nat.pow 2 (-exponent).toNat
      ≤ mantissa * Nat.pow 2 exponent.toNat * Nat.pow 10 (-e).toNat
  if reaches (guess + 1) then guess + 1
  else if reaches guess then guess
  else guess - 1

/--
Compares decimals of one length with a double: the double is `value * scale / grid` units of the last digit,
and the numbers that round to it lie between `lower` and `upper` in the same measure.
-/
structure Grid where
  value : Nat
  lower : Nat
  upper : Nat
  closed : Bool
  scale : Nat
  grid : Nat

def Grid.holds (g : Grid) (n : Nat) : Bool :=
  if g.closed then g.lower * g.scale ≤ n * g.grid && n * g.grid ≤ g.upper * g.scale
  else g.lower * g.scale < n * g.grid && n * g.grid < g.upper * g.scale

def Grid.nearest? (g : Grid) : Option Nat :=
  let below := g.value * g.scale / g.grid
  let twice := 2 * (g.value * g.scale % g.grid)
  let (near, far) :=
    if twice < g.grid || (twice == g.grid && below % 2 == 0) then (below, below + 1)
    else (below + 1, below)
  if g.holds near then some near
  else if g.holds far then some far
  else none

/--
The grid of the decimals whose last digit has the weight `10 ^ unit`. The bounds are kept in quarters of the
last place of the mantissa, because below a power of two the numbers are twice as dense.
-/
def gridAt (mantissa : Nat) (exponent unit : Int) : Grid where
  value := 4 * mantissa
  lower := if mantissa = Binary64.fractionSize && exponent ≠ -1074 then 4 * mantissa - 1 else 4 * mantissa - 2
  upper := 4 * mantissa + 2
  closed := mantissa % 2 == 0
  scale := Nat.pow 2 (exponent - 2).toNat * Nat.pow 10 (-unit).toNat
  grid := Nat.pow 2 (2 - exponent).toNat * Nat.pow 10 unit.toNat

def shortestUnits (mantissa : Nat) (exponent : Int) : (left : Nat) → (unit : Int) → Nat × Int
  | 0, unit => (mantissa, unit)
  | left + 1, unit =>
    match (gridAt mantissa exponent unit).nearest? with
    | some n => (n, unit)
    | none => shortestUnits mantissa exponent left (unit - 1)

def digitsOf (n : Nat) : List Nat :=
  (Nat.toDigits 10 n).map fun c => c.toNat - '0'.toNat

def shortest (negative : Bool) (mantissa : Nat) (exponent : Int) : Decimal :=
  if mantissa = 0 then ⟨negative, [0], 0⟩
  else
    -- Seventeen digits always suffice.
    let (n, unit) := shortestUnits mantissa exponent 17 (floorLog mantissa exponent)
    let digits := digitsOf n
    let trimmed := (digits.reverse.dropWhile (· == 0)).reverse
    ⟨negative, trimmed, unit + (digits.length - 1 : Nat)⟩

end Decimal

/--
How a decimal is written: in full if the exponent of its first digit is at least `least` and below `bound`,
and else with an exponent of at least `exponentDigits` digits.
-/
structure FloatStyle where
  least : Int
  bound : Int
  exponentDigits : Nat

namespace FloatStyle

def digitText (digits : List Nat) : String :=
  String.ofList (digits.map Nat.digitChar)

def placePoint (digits : List Nat) (n : Int) : String :=
  if n ≤ 0 then "0." ++ digitText (List.replicate (-n).toNat 0 ++ digits)
  else if digits.length ≤ n.toNat then
    digitText (digits ++ List.replicate (n.toNat - digits.length) 0)
  else digitText (digits.take n.toNat) ++ "." ++ digitText (digits.drop n.toNat)

def render (style : FloatStyle) (d : Decimal) : String :=
  let sign := if d.negative then "-" else ""
  if style.least ≤ d.exponent && d.exponent < style.bound then
    sign ++ placePoint d.digits (d.exponent + 1)
  else
    let power := digitText (Decimal.digitsOf d.exponent.natAbs)
    let zeros := String.ofList (List.replicate (style.exponentDigits - power.length) '0')
    sign ++ placePoint d.digits 1 ++ "e" ++ (if d.exponent < 0 then "-" else "+") ++ zeros ++ power

def general : FloatStyle :=
  ⟨-4, 6, 2⟩

end FloatStyle

def Binary64.text (x : Binary64) : String :=
  match x.value with
  | .nan => "NaN"
  | .infinite false => "+Inf"
  | .infinite true => "-Inf"
  | .finite negative mantissa exponent =>
    FloatStyle.general.render (Decimal.shortest negative mantissa exponent)

end LuaBytecode
