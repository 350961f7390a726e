import LuaBytecode.Bytes
import LuaBytecode.Instruction.Opcode

/-!
Instructions and the 32-bit words that hold them.

The opcode is in the low 7 bits of a word. Above it stand `A` (8 bits), the flag `k` (1 bit), `B` and
`C` (8 bits each); or `A` and `Bx` (17 bits); or a single field of 25 bits. A signed operand is stored
with an excess of half of the greatest value of its field.
-/

namespace LuaBytecode

abbrev Word := UInt32

namespace Word

def field (w : Word) (unit size : Nat) : Nat :=
  w.toNat / unit % size

def opcode (w : Word) : Nat :=
  w.field 1 0x80

def a (w : Word) : UInt8 :=
  (w.field 0x80 0x100).toUInt8

def k (w : Word) : Bool :=
  w.field 0x8000 2 == 1

def b (w : Word) : UInt8 :=
  (w.field 0x10000 0x100).toUInt8

def c (w : Word) : UInt8 :=
  (w.field 0x1000000 0x100).toUInt8

def bx (w : Word) : Nat :=
  w.field 0x8000 0x20000

def ax (w : Word) : Nat :=
  w.field 0x80 0x2000000

def excessC : Nat := 127

def excessBx : Nat := 65535

def excessSJ : Nat := 16777215

def signedArg (arg : UInt8) : Int :=
  arg.toNat - excessC

def sbx (w : Word) : Int :=
  w.bx - excessBx

def sj (w : Word) : Int :=
  w.ax - excessSJ

end Word

inductive Operands where
  | none
  | a (a : UInt8)
  | ab (a b : UInt8)
  | abc (a b c : UInt8)
  | absc (a b : UInt8) (sc : Int)
  | abck (a b c : UInt8) (k : Bool)
  | asbck (a : UInt8) (sb : Int) (c : UInt8) (k : Bool)
  | abk (a b : UInt8) (k : Bool)
  /--
  A comparison with a number; `float` tells that it was written as a float.
  -/
  | asbk (a : UInt8) (sb : Int) (float : Bool) (k : Bool)
  | ak (a : UInt8) (k : Bool)
  | ac (a c : UInt8)
  | abx (a : UInt8) (bx : Nat)
  | asbx (a : UInt8) (sbx : Int)
  | sj (sj : Int)
  | ax (ax : Nat)
  deriving DecidableEq

namespace Operands

def shape : Operands → Shape
  | .none => .none
  | .a .. => .a
  | .ab .. => .ab
  | .abc .. => .abc
  | .absc .. => .absc
  | .abck .. => .abck
  | .asbck .. => .asbck
  | .abk .. => .abk
  | .asbk .. => .asbk
  | .ak .. => .ak
  | .ac .. => .ac
  | .abx .. => .abx
  | .asbx .. => .asbx
  | .sj .. => .sj
  | .ax .. => .ax

def ofWord (w : Word) : Shape → Operands
  | .none => .none
  | .a => .a w.a
  | .ab => .ab w.a w.b
  | .abc => .abc w.a w.b w.c
  | .absc => .absc w.a w.b (Word.signedArg w.c)
  | .abck => .abck w.a w.b w.c w.k
  | .asbck => .asbck w.a (Word.signedArg w.b) w.c w.k
  | .abk => .abk w.a w.b w.k
  | .asbk => .asbk w.a (Word.signedArg w.b) (w.c != 0) w.k
  | .ak => .ak w.a w.k
  | .ac => .ac w.a w.c
  | .abx => .abx w.a w.bx
  | .asbx => .asbx w.a w.sbx
  | .sj => .sj w.sj
  | .ax => .ax w.ax

def packABC (a b c : Nat) (k : Bool) : Nat :=
  a * 0x80 + k.toNat * 0x8000 + b * 0x10000 + c * 0x1000000

def packABx (a bx : Nat) : Nat :=
  a * 0x80 + bx * 0x8000

def bits : Operands → Nat
  | .none => 0
  | .a ra => packABC ra.toNat 0 0 false
  | .ab ra b => packABC ra.toNat b.toNat 0 false
  | .abc ra b c => packABC ra.toNat b.toNat c.toNat false
  | .absc ra b sc => packABC ra.toNat b.toNat (sc + Word.excessC).toNat false
  | .abck ra b c k => packABC ra.toNat b.toNat c.toNat k
  | .asbck ra sb c k => packABC ra.toNat (sb + Word.excessC).toNat c.toNat k
  | .abk ra b k => packABC ra.toNat b.toNat 0 k
  | .asbk ra sb float k => packABC ra.toNat (sb + Word.excessC).toNat float.toNat k
  | .ak ra k => packABC ra.toNat 0 0 k
  | .ac ra c => packABC ra.toNat 0 c.toNat false
  | .abx ra bx => packABx ra.toNat bx
  | .asbx ra sbx => packABx ra.toNat (sbx + Word.excessBx).toNat
  | .sj offset => (offset + Word.excessSJ).toNat * 0x80
  | .ax arg => arg * 0x80

def FitsC (sc : Int) : Prop :=
  -127 ≤ sc ∧ sc ≤ 128

def InRange : Operands → Prop
  | .absc _ _ sc => FitsC sc
  | .asbck _ sb _ _ => FitsC sb
  | .asbk _ sb _ _ => FitsC sb
  | .abx _ bx => bx < 0x20000
  | .asbx _ sbx => -65535 ≤ sbx ∧ sbx ≤ 65536
  | .sj offset => -16777215 ≤ offset ∧ offset ≤ 16777216
  | .ax arg => arg < 0x2000000
  | _ => True

/--
The operands as they are listed, in order. A flag counts as one or zero, except that the `k` of `abck` is a
mark behind them and that `float` is not shown.
-/
def listed : Operands → List Int
  | .none => []
  | .a ra => [ra.toNat]
  | .ab ra b => [ra.toNat, b.toNat]
  | .abc ra b c => [ra.toNat, b.toNat, c.toNat]
  | .absc ra b sc => [ra.toNat, b.toNat, sc]
  | .abck ra b c _ => [ra.toNat, b.toNat, c.toNat]
  | .asbck ra sb c k => [ra.toNat, sb, c.toNat, k.toNat]
  | .abk ra b k => [ra.toNat, b.toNat, k.toNat]
  | .asbk ra sb _ k => [ra.toNat, sb, k.toNat]
  | .ak ra k => [ra.toNat, k.toNat]
  | .ac ra c => [ra.toNat, c.toNat]
  | .abx ra bx => [ra.toNat, bx]
  | .asbx ra sbx => [ra.toNat, sbx]
  | .sj offset => [offset]
  | .ax arg => [arg]

def mark : Operands → String
  | .abck _ _ _ true => "k"
  | _ => ""

end Operands

structure Instruction where
  op : Opcode
  operands : Operands
  deriving DecidableEq

structure UnknownOpcode where
  word : Word
  deriving DecidableEq

def UnknownOpcode.message (e : UnknownOpcode) : String :=
  let digits := String.ofList (Nat.toDigits 16 e.word.toNat)
  let zeros := String.ofList (List.replicate (8 - digits.length) '0')
  s!"decode instruction 0x{zeros}{digits}: unknown opcode {e.word.opcode}"

namespace Instruction

def WellFormed (i : Instruction) : Prop :=
  i.operands.shape = i.op.shape ∧ i.operands.InRange

def ofWord (w : Word) : Except UnknownOpcode Instruction :=
  match Opcode.ofCode? w.opcode with
  | some op => .ok ⟨op, .ofWord w op.shape⟩
  | none => .error ⟨w⟩

def toWord (i : Instruction) : Word :=
  (i.op.code + i.operands.bits).toUInt32

def text (i : Instruction) : Bytes :=
  let name := utf8 i.op.name
  name ++ List.replicate (9 - name.length) (Bytes.ofChar ' ') ++ [Bytes.ofChar '\t']
    ++ Bytes.join (utf8 " ") (i.operands.listed.map Bytes.decimal) ++ utf8 i.operands.mark

end Instruction

end LuaBytecode
