import LuaBytecode.Text.Printable
import LuaBytecode.Text.Quoted
import LuaBytecode.Number.Decimal

/-!
The constants of a function and how they are written in a program.
-/

namespace LuaBytecode

inductive ConstantKind where
  | nil | boolean | integer | float | string
  deriving DecidableEq

namespace ConstantKind

def name : ConstantKind → String
  | .nil => "nil"
  | .boolean => "boolean"
  | .integer => "integer"
  | .float => "float"
  | .string => "string"

def ofCode? : UInt8 → Option ConstantKind
  | 0 => some .nil
  | 1 => some .boolean
  | 2 => some .integer
  | 3 => some .float
  | 4 => some .string
  | _ => none

def nameOfCode (code : UInt8) : String :=
  match ofCode? code with
  | some kind => kind.name
  | none => s!"ConstantKind({code})"

end ConstantKind

inductive Constant where
  | nil
  | boolean (value : Bool)
  | integer (value : Int64)
  | float (value : Binary64)
  | string (value : Bytes) (long : Bool)
  deriving DecidableEq

namespace Constant

def kind : Constant → ConstantKind
  | .nil => .nil
  | .boolean _ => .boolean
  | .integer _ => .integer
  | .float _ => .float
  | .string .. => .string

def isLong : Constant → Bool
  | .string _ long => long
  | _ => false

/--
Whether any bit of the stored value is set. Strings have no such value.
-/
def isTruthy : Constant → Bool
  | .boolean value => value
  | .integer value => value != 0
  | .float value => value.bits != 0
  | _ => false

def integer? : Constant → Option Int64
  | .integer value => some value
  | _ => none

def float? : Constant → Option Binary64
  | .float value => some value
  | _ => none

def string? : Constant → Option Bytes
  | .string value _ => some value
  | _ => none

end Constant

/--
A float as it is written in a program: it always has a point or an exponent, and what is not a finite number
is written as an expression that gives it.
-/
def Binary64.literal (x : Binary64) : String :=
  match x.value with
  | .nan => "(0/0)"
  | .infinite false => "1e9999"
  | .infinite true => "-1e9999"
  | .finite .. => if x.text.toList.any (fun c => c == '.' || c == 'e') then x.text else x.text ++ ".0"

def Constant.text : Constant → Bytes
  | .nil => utf8 "nil"
  | .boolean value => utf8 (if value then "true" else "false")
  | .integer value => Bytes.decimal value.toInt
  | .float value => utf8 value.literal
  | .string value _ => Text.quote Text.isPrintable value

end LuaBytecode
