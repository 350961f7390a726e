import LuaBytecode.Chunk.Name
import LuaBytecode.Chunk.Constant
import LuaBytecode.Chunk.LineTable
import LuaBytecode.Instruction.Basic

/-!
Function prototypes: the tree of functions that a chunk holds.
-/

namespace LuaBytecode

structure VarargFlags where
  bits : UInt8
  deriving DecidableEq

namespace VarargFlags

def ofByte (b : UInt8) : VarargFlags :=
  ⟨b &&& 7⟩

def isVararg (flags : VarargFlags) : Bool :=
  flags.bits != 0

def names (flags : VarargFlags) : List String :=
  [((1 : UInt8), "hasarg"), (2, "isvararg"), (4, "needsarg")].filterMap fun (bit, name) =>
    if flags.bits &&& bit != 0 then some name else none

def text (flags : VarargFlags) : String :=
  if flags.bits = 0 then "0" else String.intercalate "|" flags.names

end VarargFlags

inductive VariableKind where
  | regular
  | const
  | toClose
  | compileTimeConst
  deriving DecidableEq

namespace VariableKind

def code : VariableKind → UInt8
  | .regular => 0
  | .const => 1
  | .toClose => 2
  | .compileTimeConst => 3

def ofCode? : UInt8 → Option VariableKind
  | 0 => some .regular
  | 1 => some .const
  | 2 => some .toClose
  | 3 => some .compileTimeConst
  | _ => none

def name : VariableKind → String
  | .regular => "regular"
  | .const => "const"
  | .toClose => "close"
  | .compileTimeConst => "compile-time const"

def nameOfCode (code : UInt8) : String :=
  match ofCode? code with
  | some kind => kind.name
  | none => s!"VariableKind({code})"

structure Invalid where
  code : UInt8

def Invalid.message (e : Invalid) : String :=
  s!"marshal variable kind: invalid value {e.code}"

def textOfCode (code : UInt8) : Except Invalid String :=
  match ofCode? code with
  | some kind => .ok kind.name
  | none => .error ⟨code⟩

end VariableKind

/--
Where a closure finds a variable of the function around it: in its stack or among its upvalues.
-/
structure Upvalue where
  inStack : Bool
  index : UInt8
  kind : VariableKind
  deriving DecidableEq

/--
A function. A function without a name of its own shares the name of the function around it.
-/
structure Prototype where
  name : Option ChunkName := none
  lineDefined : Int64 := 0
  lastLineDefined : Int64 := 0
  numParams : UInt8 := 0
  vararg : VarargFlags := ⟨0⟩
  maxStackSize : UInt8 := 0
  code : List Instruction := []
  constants : List Constant := []
  upvalues : List Upvalue := []
  functions : List Prototype := []
  debug : DebugInfo := {}

namespace Prototype

def isMain (f : Prototype) : Bool :=
  f.lineDefined == 0

def line? (f : Prototype) (pc : Int64) : Option Int64 :=
  LineTable.line? f.debug f.lineDefined pc

def lines (f : Prototype) : List (Nat × Int64) :=
  LineTable.lines f.debug f.lineDefined

mutual

def count : Prototype → Nat
  | { functions, .. } => 1 + countAll functions

def countAll : List Prototype → Nat
  | [] => 0
  | f :: rest => f.count + countAll rest

end

end Prototype

end LuaBytecode
