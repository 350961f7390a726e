import Mathlib
import LuaBytecode.Listing.Comment
import LuaBytecode.Proofs.WordFields

/-!
The descriptions of the operations, and how the comments of a listing follow them. A description marks the
operands that are indices of constants, as `K[x]` or `RK(x)`, and those that number a metamethod. A comment
shows the constants and metamethods of these operands, with one exception: at `mmBinK` the two operands
are taken for each other.
-/

namespace LuaBytecode

/--
The operands of an operation, then its effect. `R` are the registers, `K` the constants, and `RK(x)` is
`K[x]` if the flag `k` is set and `R[x]` if not.
-/
def Opcode.description : Opcode → String
  | .move => "A B R[A] := R[B]"
  | .loadI => "A sBx R[A] := sBx"
  | .loadF => "A sBx R[A] := (lua_Number)sBx"
  | .loadK => "A Bx R[A] := K[Bx]"
  | .loadKX => "A R[A] := K[extra arg]"
  | .loadFalse => "A R[A] := false"
  | .lFalseSkip => "A R[A] := false; pc++"
  | .loadTrue => "A R[A] := true"
  | .loadNil => "A B R[A], R[A+1], ..., R[A+B] := nil"
  | .getUpval => "A B R[A] := UpValue[B]"
  | .setUpval => "A B UpValue[B] := R[A]"
  | .getTabUp => "A B C R[A] := UpValue[B][K[C]:string]"
  | .getTable => "A B C R[A] := R[B][R[C]]"
  | .getI => "A B C R[A] := R[B][C]"
  | .getField => "A B C R[A] := R[B][K[C]:string]"
  | .setTabUp => "A B C k UpValue[A][K[B]:string] := RK(C)"
  | .setTable => "A B C k R[A][R[B]] := RK(C)"
  | .setI => "A B C k R[A][B] := RK(C)"
  | .setField => "A B C k R[A][K[B]:string] := RK(C)"
  | .newTable => "A B C k R[A] := \x7b\x7d"
  | .self => "A B C k R[A+1] := R[B]; R[A] := R[B][RK(C):string]"
  | .addI => "A B sC R[A] := R[B] + sC"
  | .addK => "A B C R[A] := R[B] + K[C]:number"
  | .subK => "A B C R[A] := R[B] - K[C]:number"
  | .mulK => "A B C R[A] := R[B] * K[C]:number"
  | .modK => "A B C R[A] := R[B] % K[C]:number"
  | .powK => "A B C R[A] := R[B] ^ K[C]:number"
  | .divK => "A B C R[A] := R[B] / K[C]:number"
  | .idivK => "A B C R[A] := R[B] // K[C]:number"
  | .bandK => "A B C R[A] := R[B] & K[C]:integer"
  | .borK => "A B C R[A] := R[B] | K[C]:integer"
  | .bxorK => "A B C R[A] := R[B] ~ K[C]:integer"
  | .shrI => "A B sC R[A] := R[B] >> sC"
  | .shlI => "A B sC R[A] := sC << R[B]"
  | .add => "A B C R[A] := R[B] + R[C]"
  | .sub => "A B C R[A] := R[B] - R[C]"
  | .mul => "A B C R[A] := R[B] * R[C]"
  | .mod => "A B C R[A] := R[B] % R[C]"
  | .pow => "A B C R[A] := R[B] ^ R[C]"
  | .div => "A B C R[A] := R[B] / R[C]"
  | .idiv => "A B C R[A] := R[B] // R[C]"
  | .band => "A B C R[A] := R[B] & R[C]"
  | .bor => "A B C R[A] := R[B] | R[C]"
  | .bxor => "A B C R[A] := R[B] ~ R[C]"
  | .shl => "A B C R[A] := R[B] << R[C]"
  | .shr => "A B C R[A] := R[B] >> R[C]"
  | .mmBin => "A B C call C metamethod over R[A] and R[B]"
  | .mmBinI => "A sB C k call C metamethod over R[A] and sB"
  | .mmBinK => "A B C k call C metamethod over R[A] and K[B]"
  | .unm => "A B R[A] := -R[B]"
  | .bnot => "A B R[A] := ~R[B]"
  | .not => "A B R[A] := not R[B]"
  | .len => "A B R[A] := #R[B] (length operator)"
  | .concat => "A B R[A] := R[A].. ... ..R[A + B - 1]"
  | .close => "A close all upvalues >= R[A]"
  | .tbc => "A mark variable A \"to be closed\""
  | .jmp => "sJ pc += sJ"
  | .eq => "A B k if ((R[A] == R[B]) ~= k) then pc++"
  | .lt => "A B k if ((R[A] <  R[B]) ~= k) then pc++"
  | .le => "A B k if ((R[A] <= R[B]) ~= k) then pc++"
  | .eqK => "A B k if ((R[A] == K[B]) ~= k) then pc++"
  | .eqI => "A sB k if ((R[A] == sB) ~= k) then pc++"
  | .ltI => "A sB k if ((R[A] < sB) ~= k) then pc++"
  | .leI => "A sB k if ((R[A] <= sB) ~= k) then pc++"
  | .gtI => "A sB k if ((R[A] > sB) ~= k) then pc++"
  | .geI => "A sB k if ((R[A] >= sB) ~= k) then pc++"
  | .test => "A k if (not R[A] == k) then pc++"
  | .testSet => "A B k if (not R[B] == k) then pc++ else R[A] := R[B]"
  | .call => "A B C R[A], ... ,R[A+C-2] := R[A](R[A+1], ... ,R[A+B-1])"
  | .tailCall => "A B C k return R[A](R[A+1], ... ,R[A+B-1])"
  | .ret => "A B C k return R[A], ... ,R[A+B-2]"
  | .ret0 => "return"
  | .ret1 => "A return R[A]"
  | .forLoop => "A Bx update counters; if loop continues then pc-=Bx;"
  | .forPrep => "A Bx <check values and prepare counters>; if not to run then pc+=Bx+1;"
  | .tforPrep => "A Bx create upvalue for R[A + 3]; pc+=Bx"
  | .tforCall => "A C R[A+4], ... ,R[A+3+C] := R[A](R[A+1], R[A+2]);"
  | .tforLoop => "A Bx if R[A+2] ~= nil then \x7b R[A]=R[A+2]; pc -= Bx \x7d"
  | .setList => "A B C k R[A][C+i] := R[A+i], 1 <= i <= B"
  | .closure => "A Bx R[A] := closure(KPROTO[Bx])"
  | .vararg => "A C R[A], R[A+1], ..., R[A+C-2] = vararg"
  | .varargPrep => "A (adjust vararg parameters)"
  | .extraArg => "Ax extra (larger) argument for previous opcode"

namespace Operands

def b? : Operands → Option UInt8
  | .ab _ b | .abc _ b _ | .absc _ b _ | .abck _ b _ _ | .abk _ b _ => some b
  | _ => .none

def c? : Operands → Option UInt8
  | .abc _ _ c | .abck _ _ c _ | .asbck _ _ c _ | .ac _ c => some c
  | _ => .none

def bx? : Operands → Option Nat
  | .abx _ bx => some bx
  | _ => .none

def ax? : Operands → Option Nat
  | .ax arg => some arg
  | _ => .none

def flag : Operands → Bool
  | .abck _ _ _ k | .asbck _ _ _ k | .abk _ _ k | .asbk _ _ _ k | .ak _ k => k
  | _ => false

end Operands

/--
An operand that a description can mark; `extra` is that of the instruction behind.
-/
inductive MarkedOperand where
  | b | c | bx | extra
  deriving DecidableEq

namespace MarkedOperand

def name : MarkedOperand → List Char
  | .b => ['B']
  | .c => ['C']
  | .bx => ['B', 'x']
  | .extra => "extra arg".toList

def value? (f : Prototype) (pc : Nat) (i : Instruction) : MarkedOperand → Option Nat
  | .b => i.operands.b?.map UInt8.toNat
  | .c => i.operands.c?.map UInt8.toNat
  | .bx => i.operands.bx?
  | .extra => (f.code[pc + 1]?).bind fun next => next.operands.ax?

end MarkedOperand

inductive Mark where
  /-- `K[x]` -/
  | constant (operand : MarkedOperand)
  /-- `RK(x)` -/
  | flaggedConstant (operand : MarkedOperand)
  /-- `call x metamethod` -/
  | event (operand : MarkedOperand)
  deriving DecidableEq

namespace Mark

def text : Mark → List Char
  | .constant operand => ['K', '['] ++ operand.name ++ [']']
  | .flaggedConstant operand => ['R', 'K', '('] ++ operand.name ++ [')']
  | .event operand => "call ".toList ++ operand.name ++ [' ']

def scan : List Char → List (List Char)
  | [] => []
  | 'R' :: 'K' :: '(' :: text => (['R', 'K', '('] ++ text.takeWhile (· != ')') ++ [')']) :: scan text
  | 'K' :: '[' :: text => (['K', '['] ++ text.takeWhile (· != ']') ++ [']']) :: scan text
  | 'c' :: 'a' :: 'l' :: 'l' :: ' ' :: text =>
    ("call ".toList ++ text.takeWhile (· != ' ') ++ [' ']) :: scan text
  | _ :: text => scan text

end Mark

def Opcode.marks : Opcode → List Mark
  | .loadK => [.constant .bx]
  | .loadKX => [.constant .extra]
  | .getTabUp | .getField => [.constant .c]
  | .addK | .subK | .mulK | .modK | .powK | .divK | .idivK | .bandK | .borK | .bxorK => [.constant .c]
  | .setTabUp | .setField => [.constant .b, .flaggedConstant .c]
  | .setTable | .setI | .self => [.flaggedConstant .c]
  | .eqK => [.constant .b]
  | .mmBin | .mmBinI => [.event .c]
  | .mmBinK => [.event .c, .constant .b]
  | _ => []

theorem Opcode.scan_description (op : Opcode) :
    Mark.scan op.description.toList = op.marks.map Mark.text := by
  cases op <;> decide +kernel

namespace Listing

def Remark.isMarked : Remark → Bool
  | .constant _ => true
  | .event _ => true
  | _ => false

def shown (f : Prototype) (pc : Nat) (i : Instruction) : List Remark :=
  (remarks f pc i).filter Remark.isMarked

def markedRemark (f : Prototype) (pc : Nat) (i : Instruction) : Mark → Option Remark
  | .constant operand => (operand.value? f pc i).map .constant
  | .flaggedConstant operand => if i.operands.flag then (operand.value? f pc i).map .constant else none
  | .event operand => (operand.value? f pc i).map fun code => .event code.toUInt8

/--
The constants and metamethods of the operands that the description marks, in order.
-/
def described (f : Prototype) (pc : Nat) (i : Instruction) : List Remark :=
  i.op.marks.filterMap (markedRemark f pc i)

theorem event_toNat (code : UInt8) : Remark.event code.toNat.toUInt8 = .event code := by
  simp

theorem shown_ofWord (f : Prototype) (pc : Nat) {op : Opcode} (w : Word) (h : op ≠ .mmBinK)
    : shown f pc ⟨op, .ofWord w op.shape⟩ = described f pc ⟨op, .ofWord w op.shape⟩ := by
  cases op with
  | mmBinK => exact absurd rfl h
  | loadKX =>
    simp only [shown, remarks, described, Opcode.marks, Opcode.shape, Opcode.info, Operands.ofWord]
    cases hnext : f.code[pc + 1]? with
    | none => simp [markedRemark, MarkedOperand.value?, hnext]
    | some next =>
      cases hoperands : next.operands
        <;> simp [markedRemark, MarkedOperand.value?, hnext, hoperands, Operands.ax?, Remark.isMarked]
  | closure =>
    change List.filter Remark.isMarked (if w.bx < f.functions.length then [.function w.bx] else []) = []
    split <;> rfl
  | mmBin => exact congrArg (fun word => [word]) (event_toNat w.c).symm
  | mmBinI =>
    simp only [Opcode.shape, Opcode.info, Operands.ofWord]
    cases w.k <;> exact congrArg (fun word => [word]) (event_toNat w.c).symm
  | setTabUp | setField | setTable | setI | self =>
    simp only [Opcode.shape, Opcode.info, Operands.ofWord]
    cases w.k <;> rfl
  | _ => rfl

theorem shown_mmBinK (f : Prototype) (pc : Nat) (ra b c : UInt8) (k : Bool) :
    shown f pc ⟨.mmBinK, .abck ra b c k⟩ = [.event b, .constant c.toNat] := by
  cases k <;> rfl

theorem described_mmBinK (f : Prototype) (pc : Nat) (ra b c : UInt8) (k : Bool) :
    described f pc ⟨.mmBinK, .abck ra b c k⟩ = [.event c, .constant b.toNat] := by
  rw [← event_toNat c]
  rfl

theorem shown_eq_described {i : Instruction} (f : Prototype) (pc : Nat) (h : i.WellFormed)
    (hop : i.op ≠ .mmBinK) : shown f pc i = described f pc i := by
  have hi := Instruction.eq_mk_ofWord h
  rw [hi]
  exact shown_ofWord f pc i.toWord hop

/--
The constants and metamethods that a comment names are those that the description marks, unless the
operation is `mmBinK` and its operands `B` and `C` read differently in each other's place.
-/
theorem comment_follows_description_iff (opts : Options) (names : Names) (f : Prototype)
    (path : List Nat) (pc : Nat) (i : Instruction) (h : i.WellFormed)
    : (∀ op : Opcode, Mark.scan op.description.toList = op.marks.map Mark.text)
        ∧ ((shown f pc i).map (Remark.text opts names f path)
              = (described f pc i).map (Remark.text opts names f path)
            ↔
          ∀ ra b c k, i = ⟨.mmBinK, .abck ra b c k⟩ →
            eventText b = eventText c ∧ constantText f c.toNat = constantText f b.toNat)
        ∧ (i.op ≠ .mmBinK → shown f pc i = described f pc i)
        ∧ (∀ ra b c k, i = ⟨.mmBinK, .abck ra b c k⟩ → shown f pc i = [.event b, .constant c.toNat])
        ∧ ∀ index, f.constants.length ≤ index →
            Remark.text opts names f path (.constant index) = utf8 "?" := by
  refine ⟨Opcode.scan_description, ?_, shown_eq_described f pc h, ?_, ?_⟩
  . constructor
    . rintro htexts ra b c k rfl
      rw [shown_mmBinK, described_mmBinK] at htexts
      simpa [Remark.text] using htexts
    . intro hread
      by_cases hop : i.op = .mmBinK
      . have hi := Instruction.eq_mk_ofWord h
        rw [hop] at hi
        change i = ⟨.mmBinK, .abck _ _ _ _⟩ at hi
        obtain ⟨hevent, hconstant⟩ := hread _ _ _ _ hi
        rw [hi, shown_mmBinK, described_mmBinK]
        simp [Remark.text, hevent, hconstant]
      . rw [shown_eq_described f pc h hop]
  . rintro ra b c k rfl
    exact shown_mmBinK f pc ra b c k
  . intro index hindex
    rw [Remark.text, constantText, List.getElem?_eq_none_iff.mpr hindex]

def sampleArithmetic : Prototype where
  code := [⟨.mmBinK, .abck 0 1 7 false⟩, ⟨.setField, .abck 0 0 1 true⟩]
  constants := [.string (utf8 "x") false, .integer 2]

theorem comment_mmBinK_differs
    : comment {} .empty sampleArithmetic [] 0 ⟨.mmBinK, .abck 0 1 7 false⟩ = utf8 "__newindex ?"
        ∧ (described sampleArithmetic 0 ⟨.mmBinK, .abck 0 1 7 false⟩).map
              (Remark.text {} .empty sampleArithmetic [])
            = [utf8 "__sub", utf8 "2"]
        ∧ ¬(shown sampleArithmetic 0 ⟨.mmBinK, .abck 0 1 7 false⟩).map
              (Remark.text {} .empty sampleArithmetic [])
            = (described sampleArithmetic 0 ⟨.mmBinK, .abck 0 1 7 false⟩).map
                (Remark.text {} .empty sampleArithmetic []) := by
  decide +kernel

theorem comment_follows_description_setField
    : comment {} .empty sampleArithmetic [] 1 ⟨.setField, .abck 0 0 1 true⟩ = utf8 "\"x\" 2"
        ∧ (shown sampleArithmetic 1 ⟨.setField, .abck 0 0 1 true⟩).map
              (Remark.text {} .empty sampleArithmetic [])
            = (described sampleArithmetic 1 ⟨.setField, .abck 0 0 1 true⟩).map
                (Remark.text {} .empty sampleArithmetic []) := by
  refine ⟨by decide +kernel, ?_⟩
  have h := comment_follows_description_iff {} .empty sampleArithmetic [] 1
    ⟨.setField, .abck 0 0 1 true⟩ ⟨rfl, trivial⟩
  apply h.2.1.mpr
  rintro ra b c k ⟨⟩

end Listing

end LuaBytecode
