/-!
The instruction set of Lua 5.4: the opcodes in numeric order, with the name, the word layout and the
operands of each.
-/

namespace LuaBytecode

inductive WordLayout where
  | abc | abx | asbx | ax | sj
  deriving DecidableEq

/--
The operands that an instruction carries. An `s` marks a signed operand, `k` a flag.
-/
inductive Shape where
  | none | a | ab | abc | absc | abck | asbck | abk | asbk | ak | ac | abx | asbx | sj | ax
  deriving DecidableEq

inductive Opcode where
  | move | loadI | loadF | loadK | loadKX | loadFalse | lFalseSkip | loadTrue | loadNil | getUpval
  | setUpval | getTabUp | getTable | getI | getField | setTabUp | setTable | setI | setField
  | newTable | self | addI | addK | subK | mulK | modK | powK | divK | idivK | bandK | borK | bxorK
  | shrI | shlI | add | sub | mul | mod | pow | div | idiv | band | bor | bxor | shl | shr | mmBin
  | mmBinI | mmBinK | unm | bnot | not | len | concat | close | tbc | jmp | eq | lt | le | eqK | eqI
  | ltI | leI | gtI | geI | test | testSet | call | tailCall | ret | ret0 | ret1 | forLoop | forPrep
  | tforPrep | tforCall | tforLoop | setList | closure | vararg | varargPrep | extraArg
  deriving DecidableEq

namespace WordLayout

def all : List WordLayout :=
  [.abc, .abx, .asbx, .ax, .sj]

def code : WordLayout → Nat
  | .abc => 1
  | .abx => 2
  | .asbx => 3
  | .ax => 4
  | .sj => 5

def name : WordLayout → String
  | .abc => "iABC"
  | .abx => "iABx"
  | .asbx => "iAsBx"
  | .ax => "iAx"
  | .sj => "isJ"

def ofCode? (code : UInt8) : Option WordLayout :=
  all.find? (·.code == code.toNat)

def nameOfCode (code : UInt8) : String :=
  match ofCode? code with
  | some layout => layout.name
  | none => s!"OpMode({code})"

end WordLayout

namespace Shape

def all : List Shape :=
  [.none, .a, .ab, .abc, .absc, .abck, .asbck, .abk, .asbk, .ak, .ac, .abx, .asbx, .sj, .ax]

def code (shape : Shape) : Nat :=
  all.idxOf shape + 1

def name : Shape → String
  | .none => "NoArgs"
  | .a => "A"
  | .ab => "AB"
  | .abc => "ABC"
  | .absc => "ABsC"
  | .abck => "ABCk"
  | .asbck => "AsBCk"
  | .abk => "ABk"
  | .asbk => "AsBk"
  | .ak => "Ak"
  | .ac => "AC"
  | .abx => "ABx"
  | .asbx => "AsBx"
  | .sj => "SJ"
  | .ax => "Ax"

def layout : Shape → WordLayout
  | .abx => .abx
  | .asbx => .asbx
  | .sj => .sj
  | .ax => .ax
  | _ => .abc

def ofCode? (code : UInt8) : Option Shape :=
  if code = 0 then Option.none else all[code.toNat - 1]?

end Shape

structure Opcode.Info where
  name : String
  layout : WordLayout
  shape : Shape

namespace Opcode

def all : List Opcode :=
  [.move, .loadI, .loadF, .loadK, .loadKX, .loadFalse, .lFalseSkip, .loadTrue, .loadNil, .getUpval,
   .setUpval, .getTabUp, .getTable, .getI, .getField, .setTabUp, .setTable, .setI, .setField,
   .newTable, .self, .addI, .addK, .subK, .mulK, .modK, .powK, .divK, .idivK, .bandK, .borK, .bxorK,
   .shrI, .shlI, .add, .sub, .mul, .mod, .pow, .div, .idiv, .band, .bor, .bxor, .shl, .shr, .mmBin,
   .mmBinI, .mmBinK, .unm, .bnot, .not, .len, .concat, .close, .tbc, .jmp, .eq, .lt, .le, .eqK,
   .eqI, .ltI, .leI, .gtI, .geI, .test, .testSet, .call, .tailCall, .ret, .ret0, .ret1, .forLoop,
   .forPrep, .tforPrep, .tforCall, .tforLoop, .setList, .closure, .vararg, .varargPrep, .extraArg]

/--
The opcode table. The constant index of `loadKX` is in the `extraArg` that follows, so its words have room for
more than its shape uses.
-/
def info : Opcode → Info
  | .move => ⟨"MOVE", .abc, .ab⟩
  | .loadI => ⟨"LOADI", .asbx, .asbx⟩
  | .loadF => ⟨"LOADF", .asbx, .asbx⟩
  | .loadK => ⟨"LOADK", .abx, .abx⟩
  | .loadKX => ⟨"LOADKX", .abx, .a⟩
  | .loadFalse => ⟨"LOADFALSE", .abc, .a⟩
  | .lFalseSkip => ⟨"LFALSESKIP", .abc, .a⟩
  | .loadTrue => ⟨"LOADTRUE", .abc, .a⟩
  | .loadNil => ⟨"LOADNIL", .abc, .ab⟩
  | .getUpval => ⟨"GETUPVAL", .abc, .ab⟩
  | .setUpval => ⟨"SETUPVAL", .abc, .ab⟩
  | .getTabUp => ⟨"GETTABUP", .abc, .abc⟩
  | .getTable => ⟨"GETTABLE", .abc, .abc⟩
  | .getI => ⟨"GETI", .abc, .abc⟩
  | .getField => ⟨"GETFIELD", .abc, .abc⟩
  | .setTabUp => ⟨"SETTABUP", .abc, .abck⟩
  | .setTable => ⟨"SETTABLE", .abc, .abck⟩
  | .setI => ⟨"SETI", .abc, .abck⟩
  | .setField => ⟨"SETFIELD", .abc, .abck⟩
  | .newTable => ⟨"NEWTABLE", .abc, .abck⟩
  | .self => ⟨"SELF", .abc, .abck⟩
  | .addI => ⟨"ADDI", .abc, .absc⟩
  | .addK => ⟨"ADDK", .abc, .abc⟩
  | .subK => ⟨"SUBK", .abc, .abc⟩
  | .mulK => ⟨"MULK", .abc, .abc⟩
  | .modK => ⟨"MODK", .abc, .abc⟩
  | .powK => ⟨"POWK", .abc, .abc⟩
  | .divK => ⟨"DIVK", .abc, .abc⟩
  | .idivK => ⟨"IDIVK", .abc, .abc⟩
  | .bandK => ⟨"BANDK", .abc, .abc⟩
  | .borK => ⟨"BORK", .abc, .abc⟩
  | .bxorK => ⟨"BXORK", .abc, .abc⟩
  | .shrI => ⟨"SHRI", .abc, .absc⟩
  | .shlI => ⟨"SHLI", .abc, .absc⟩
  | .add => ⟨"ADD", .abc, .abc⟩
  | .sub => ⟨"SUB", .abc, .abc⟩
  | .mul => ⟨"MUL", .abc, .abc⟩
  | .mod => ⟨"MOD", .abc, .abc⟩
  | .pow => ⟨"POW", .abc, .abc⟩
  | .div => ⟨"DIV", .abc, .abc⟩
  | .idiv => ⟨"IDIV", .abc, .abc⟩
  | .band => ⟨"BAND", .abc, .abc⟩
  | .bor => ⟨"BOR", .abc, .abc⟩
  | .bxor => ⟨"BXOR", .abc, .abc⟩
  | .shl => ⟨"SHL", .abc, .abc⟩
  | .shr => ⟨"SHR", .abc, .abc⟩
  | .mmBin => ⟨"MMBIN", .abc, .abc⟩
  | .mmBinI => ⟨"MMBINI", .abc, .asbck⟩
  | .mmBinK => ⟨"MMBINK", .abc, .abck⟩
  | .unm => ⟨"UNM", .abc, .ab⟩
  | .bnot => ⟨"BNOT", .abc, .ab⟩
  | .not => ⟨"NOT", .abc, .ab⟩
  | .len => ⟨"LEN", .abc, .ab⟩
  | .concat => ⟨"CONCAT", .abc, .ab⟩
  | .close => ⟨"CLOSE", .abc, .a⟩
  | .tbc => ⟨"TBC", .abc, .a⟩
  | .jmp => ⟨"JMP", .sj, .sj⟩
  | .eq => ⟨"EQ", .abc, .abk⟩
  | .lt => ⟨"LT", .abc, .abk⟩
  | .le => ⟨"LE", .abc, .abk⟩
  | .eqK => ⟨"EQK", .abc, .abk⟩
  | .eqI => ⟨"EQI", .abc, .asbk⟩
  | .ltI => ⟨"LTI", .abc, .asbk⟩
  | .leI => ⟨"LEI", .abc, .asbk⟩
  | .gtI => ⟨"GTI", .abc, .asbk⟩
  | .geI => ⟨"GEI", .abc, .asbk⟩
  | .test => ⟨"TEST", .abc, .ak⟩
  | .testSet => ⟨"TESTSET", .abc, .abk⟩
  | .call => ⟨"CALL", .abc, .abc⟩
  | .tailCall => ⟨"TAILCALL", .abc, .abck⟩
  | .ret => ⟨"RETURN", .abc, .abck⟩
  | .ret0 => ⟨"RETURN0", .abc, .none⟩
  | .ret1 => ⟨"RETURN1", .abc, .a⟩
  | .forLoop => ⟨"FORLOOP", .abx, .abx⟩
  | .forPrep => ⟨"FORPREP", .abx, .abx⟩
  | .tforPrep => ⟨"TFORPREP", .abx, .abx⟩
  | .tforCall => ⟨"TFORCALL", .abc, .ac⟩
  | .tforLoop => ⟨"TFORLOOP", .abx, .abx⟩
  | .setList => ⟨"SETLIST", .abc, .abck⟩
  | .closure => ⟨"CLOSURE", .abx, .abx⟩
  | .vararg => ⟨"VARARG", .abc, .ac⟩
  | .varargPrep => ⟨"VARARGPREP", .abc, .a⟩
  | .extraArg => ⟨"EXTRAARG", .ax, .ax⟩

def name (op : Opcode) : String :=
  op.info.name

def layout (op : Opcode) : WordLayout :=
  op.info.layout

def shape (op : Opcode) : Shape :=
  op.info.shape

def code (op : Opcode) : Nat :=
  op.ctorIdx

def ofCode? (code : Nat) : Option Opcode :=
  all[code]?

def nameOfCode (code : UInt8) : String :=
  match ofCode? code.toNat with
  | some op => op.name
  | none => s!"OpCode({code})"

structure Invalid where
  code : UInt8

def Invalid.message (e : Invalid) : String :=
  s!"marshal opcode: invalid opcode {e.code}"

def textOfCode (code : UInt8) : Except Invalid String :=
  match ofCode? code.toNat with
  | some op => .ok op.name
  | none => .error ⟨code⟩

theorem ofCode?_code (op : Opcode) : ofCode? op.code = some op := by
  cases op <;> rfl

theorem ofCode?_eq_none_iff (code : Nat) : ofCode? code = none ↔ 83 ≤ code := by
  simp [ofCode?, all]

end Opcode

end LuaBytecode
