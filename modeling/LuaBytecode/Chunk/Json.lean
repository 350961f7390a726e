import LuaBytecode.Chunk.Basic
import LuaBytecode.Json.Basic

/-!
Chunks as JSON values.
-/

namespace LuaBytecode

def Operands.members : Operands → List (String × Json)
  | .none => []
  | .a ra => [("a", .int ra.toNat)]
  | .ab ra b => [("a", .int ra.toNat), ("b", .int b.toNat)]
  | .abc ra b c => [("a", .int ra.toNat), ("b", .int b.toNat), ("c", .int c.toNat)]
  | .absc ra b sc => [("a", .int ra.toNat), ("b", .int b.toNat), ("sc", .int sc)]
  | .abck ra b c k => [("a", .int ra.toNat), ("b", .int b.toNat), ("c", .int c.toNat), ("k", .bool k)]
  | .asbck ra sb c k => [("a", .int ra.toNat), ("sb", .int sb), ("c", .int c.toNat), ("k", .bool k)]
  | .abk ra b k => [("a", .int ra.toNat), ("b", .int b.toNat), ("k", .bool k)]
  | .asbk ra sb float k =>
    [("a", .int ra.toNat), ("sb", .int sb), ("float", .bool float), ("k", .bool k)]
  | .ak ra k => [("a", .int ra.toNat), ("k", .bool k)]
  | .ac ra c => [("a", .int ra.toNat), ("c", .int c.toNat)]
  | .abx ra bx => [("a", .int ra.toNat), ("bx", .int bx)]
  | .asbx ra sbx => [("a", .int ra.toNat), ("sbx", .int sbx)]
  | .sj offset => [("sj", .int offset)]
  | .ax arg => [("ax", .int arg)]

def Instruction.toJson (i : Instruction) : Json :=
  .object (("op", .text i.op.name) :: i.operands.members)

def Constant.valueMembers : Constant → List (String × Json)
  | .nil => []
  | .boolean value => [("value", .bool value)]
  | .integer value => [("value", .int value.toInt)]
  | .float value => [("value", if value.isFinite then .float value else .text value.literal)]
  | .string value long =>
    ("value", .string value) :: if long then [("long", .bool true)] else []

def Constant.toJson (c : Constant) : Json :=
  .object (("type", .text c.kind.name) :: c.valueMembers)

def Upvalue.toJson (u : Upvalue) : Json :=
  .object [("inStack", .bool u.inStack), ("index", .int u.index.toNat), ("kind", .text u.kind.name)]

def Checkpoint.toJson (c : Checkpoint) : Json :=
  .object [("pc", .int c.pc.toInt), ("line", .int c.line.toInt)]

def LocalVariable.toJson (v : LocalVariable) : Json :=
  .object [("name", .string v.name), ("startPC", .int v.startPC.toInt), ("endPC", .int v.endPC.toInt)]

def DebugInfo.toJson (info : DebugInfo) : Json :=
  .object [
    ("lineInfo", .list (fun delta => .int delta.toInt) info.lineDeltas),
    ("absLineInfo", .list Checkpoint.toJson info.checkpoints),
    ("localVariables", .list LocalVariable.toJson info.locals),
    ("upvalueNames", .list .string info.upvalueNames)]

mutual

def Prototype.toJson : Prototype → Json
  | { name, lineDefined, lastLineDefined, numParams, vararg, maxStackSize, code, constants, upvalues,
      functions, debug } =>
    .object [
      ("source", match name with | some name => .string name | none => .null),
      ("lineDefined", .int lineDefined.toInt),
      ("lastLineDefined", .int lastLineDefined.toInt),
      ("numParams", .int numParams.toNat),
      ("vararg", .int vararg.bits.toNat),
      ("maxStackSize", .int maxStackSize.toNat),
      ("code", .list Instruction.toJson code),
      ("constants", .list Constant.toJson constants),
      ("upvalues", .list Upvalue.toJson upvalues),
      ("functions", .array (Prototype.allToJson functions)),
      ("debug", debug.toJson)]

def Prototype.allToJson : List Prototype → List Json
  | [] => []
  | f :: rest => f.toJson :: Prototype.allToJson rest

end

def Binary64.sampleJson (x : Binary64) : Json :=
  match x.value with
  | .nan => .text "NaN"
  | .infinite false => .text "Infinity"
  | .infinite true => .text "-Infinity"
  | .finite .. => .float x

def Header.toJson (h : Header) : Json :=
  .object [
    ("version", .text h.version.text),
    ("format", .int h.format.toNat),
    ("instructionSize", .int h.instructionSize.toNat),
    ("integerSize", .int h.integerSize.bytes),
    ("numberSize", .int h.numberSize.bytes),
    ("bigEndian", .bool (h.byteOrder == .big)),
    ("integerSample", .int h.integerSample.toInt),
    ("numberSample", h.numberSample.sampleJson)]

def Chunk.toJson (c : Chunk) : Json :=
  .object [
    ("header", c.header.toJson),
    ("upvalueCount", .int c.upvalueCount.toNat),
    ("main", c.main.toJson),
    ("trailingBytes", .int c.trailingBytes)]

end LuaBytecode
