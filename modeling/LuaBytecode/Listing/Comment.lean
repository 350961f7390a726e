import LuaBytecode.Listing.Names

/-!
The comments of a listing: for instructions that name constants, upvalues, functions or addresses, what
these are.
-/

namespace LuaBytecode.Listing

structure Options where
  full : Bool := false
  rawPC : Bool := false
  deriving DecidableEq

def Options.base (opts : Options) : Nat :=
  if opts.rawPC then 0 else 1

def constantText (f : Prototype) (index : Nat) : Bytes :=
  match f.constants[index]? with
  | some constant => constant.text
  | none => utf8 "?"

def upvalueText (f : Prototype) (index : Nat) : Bytes :=
  match f.debug.upvalueName index with
  | [] => utf8 "-"
  | name => name

/--
A number of values, stored as one more than it is; zero stands for as many as there are.
-/
def countedText (n : UInt8) (what : String) : Bytes :=
  match n.toNat with
  | 0 => utf8 ("all " ++ what)
  | n + 1 => Bytes.digits 10 n ++ utf8 (" " ++ what)

def events : List String :=
  ["index", "newindex", "gc", "mode", "len", "eq", "add", "sub", "mul", "mod", "pow", "div", "idiv",
   "band", "bor", "bxor", "shl", "shr", "unm", "bnot", "lt", "le", "concat", "call", "close"]

def eventText (event : UInt8) : Bytes :=
  match events[event.toNat]? with
  | some name => utf8 ("__" ++ name)
  | none => utf8 "?"

inductive Remark where
  | constant (index : Nat)
  | upvalue (index : Nat)
  | event (code : UInt8)
  | address (target : Int)
  | function (index : Nat)
  | count (n : UInt8) (what : String)
  | number (value : Int)
  | word (text : String)
  deriving DecidableEq

def Remark.text (opts : Options) (names : Names) (f : Prototype) (path : List Nat) : Remark → Bytes
  | .constant index => constantText f index
  | .upvalue index => upvalueText f index
  | .event code => eventText code
  | .address target => Bytes.decimal (opts.base + target)
  | .function index => names.get (path ++ [index])
  | .count n what => countedText n what
  | .number value => Bytes.decimal value
  | .word text => utf8 text

def flipMark (k : Bool) : List Remark :=
  if k then [.word "flip"] else []

def flaggedConstant (k : Bool) (index : UInt8) : List Remark :=
  if k then [.constant index.toNat] else []

def remarks (f : Prototype) (pc : Nat) (i : Instruction) : List Remark :=
  match i.op, i.operands with
  | .loadK, .abx _ bx => [.constant bx]
  | .forLoop, .abx _ bx => [.word "to", .address (pc + 1 - bx)]
  | .tforLoop, .abx _ bx => [.word "to", .address (pc + 1 - bx)]
  | .forPrep, .abx _ bx => [.word "exit to", .address (pc + bx + 2)]
  | .tforPrep, .abx _ bx => [.word "to", .address (pc + bx + 1)]
  | .closure, .abx _ bx => if bx < f.functions.length then [.function bx] else []
  | .loadKX, .a _ =>
    match (f.code[pc + 1]?).map Instruction.operands with
    | some (.ax index) => [.constant index]
    | _ => []
  | .getUpval, .ab _ b => [.upvalue b.toNat]
  | .setUpval, .ab _ b => [.upvalue b.toNat]
  | .getTabUp, .abc _ b c => [.upvalue b.toNat, .constant c.toNat]
  | .getField, .abc _ _ c => [.constant c.toNat]
  | .addK, .abc _ _ c => [.constant c.toNat]
  | .subK, .abc _ _ c => [.constant c.toNat]
  | .mulK, .abc _ _ c => [.constant c.toNat]
  | .modK, .abc _ _ c => [.constant c.toNat]
  | .powK, .abc _ _ c => [.constant c.toNat]
  | .divK, .abc _ _ c => [.constant c.toNat]
  | .idivK, .abc _ _ c => [.constant c.toNat]
  | .bandK, .abc _ _ c => [.constant c.toNat]
  | .borK, .abc _ _ c => [.constant c.toNat]
  | .bxorK, .abc _ _ c => [.constant c.toNat]
  | .mmBin, .abc _ _ c => [.event c]
  | .call, .abc _ b c => [.count b "in", .count c "out"]
  | .setTabUp, .abck ra b c k => .upvalue ra.toNat :: .constant b.toNat :: flaggedConstant k c
  | .setField, .abck _ b c k => .constant b.toNat :: flaggedConstant k c
  | .setTable, .abck _ _ c k => flaggedConstant k c
  | .setI, .abck _ _ c k => flaggedConstant k c
  | .self, .abck _ _ c k => flaggedConstant k c
  | .mmBinK, .abck _ b c k => .event b :: .constant c.toNat :: flipMark k
  | .tailCall, .abck _ b _ _ => [.count b "in"]
  | .ret, .abck _ b _ _ => [.count b "out"]
  | .mmBinI, .asbck _ sb c k => .event c :: .number sb :: flipMark k
  | .eqK, .abk _ b _ => [.constant b.toNat]
  | .vararg, .ac _ c => [.count c "out"]
  | _, .sj offset => [.word "to", .address (pc + 1 + offset)]
  | _, _ => []

def comment (opts : Options) (names : Names) (f : Prototype) (path : List Nat) (pc : Nat)
    (i : Instruction) : Bytes :=
  Bytes.join (utf8 " ") ((remarks f pc i).map (Remark.text opts names f path))

end LuaBytecode.Listing
