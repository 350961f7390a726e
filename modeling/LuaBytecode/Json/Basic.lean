import LuaBytecode.Text.Utf8
import LuaBytecode.Number.Decimal

/-!
JSON values and their text, compact or indented with tabs. A value has a text if its strings are valid
UTF-8, its numbers are finite and its arrays and objects are not nested too deep.
-/

namespace LuaBytecode

inductive Json where
  | null
  | bool (value : Bool)
  | int (value : Int)
  | float (value : Binary64)
  | string (value : Bytes)
  | array (elements : List Json)
  | object (members : List (String × Json))

namespace Json

def text (value : String) : Json :=
  .string (utf8 value)

def list (f : α → Json) (values : List α) : Json :=
  .array (values.map f)

mutual

def isWritable : Json → Bool
  | .float value => value.isFinite
  | .string value => Utf8.isValid value
  | .array elements => allWritable elements
  | .object members => membersWritable members
  | _ => true

def allWritable : List Json → Bool
  | [] => true
  | v :: rest => v.isWritable && allWritable rest

def membersWritable : List (String × Json) → Bool
  | [] => true
  | (_, v) :: rest => v.isWritable && membersWritable rest

end

def floatStyle : FloatStyle :=
  ⟨-6, 21, 1⟩

def floatText (x : Binary64) : String :=
  match x.value with
  | .finite negative mantissa exponent =>
    floatStyle.render (Decimal.shortest negative mantissa exponent)
  | _ => "null"

def escapeByte (b : UInt8) : Bytes :=
  match b with
  | 0x08 => utf8 "\\b"
  | 0x09 => utf8 "\\t"
  | 0x0a => utf8 "\\n"
  | 0x0c => utf8 "\\f"
  | 0x0d => utf8 "\\r"
  | 0x22 => utf8 "\\\""
  | 0x5c => utf8 "\\\\"
  | b => if b < 0x20 then utf8 "\\u" ++ Bytes.hex 4 b.toNat else [b]

def quote (value : Bytes) : Bytes :=
  Bytes.ofChar '"' :: value.flatMap escapeByte ++ [Bytes.ofChar '"']

inductive Style where
  | compact
  | tabs
  deriving DecidableEq

mutual

/--
How many arrays and objects are nested in a value. An empty array counts only if elements have lines of their
own.
-/
def nesting (style : Style) : Json → Nat
  | .array [] => if style = .tabs then 1 else 0
  | .array (v :: rest) => max (v.nesting style) (elementNesting style rest) + 1
  | .object members => memberNesting style members + 1
  | _ => 0

def elementNesting (style : Style) : List Json → Nat
  | [] => 0
  | v :: rest => max (v.nesting style) (elementNesting style rest)

def memberNesting (style : Style) : List (String × Json) → Nat
  | [] => 0
  | (_, v) :: rest => max (v.nesting style) (memberNesting style rest)

end

def maxNesting : Nat := 10000

def Style.lineBreak (style : Style) (level : Nat) : Bytes :=
  match style with
  | .compact => []
  | .tabs => Bytes.ofChar '\n' :: List.replicate level (Bytes.ofChar '\t')

def Style.colon : Style → Bytes
  | .compact => utf8 ":"
  | .tabs => utf8 ": "

def push (reversed text : Bytes) : Bytes :=
  text.reverseAux reversed

mutual

def write (style : Style) (level : Nat) (out : Bytes) : Json → Bytes
  | .null => push out (utf8 "null")
  | .bool value => push out (utf8 (if value then "true" else "false"))
  | .int value => push out (Bytes.decimal value)
  | .float value => push out (utf8 (floatText value))
  | .string value => push out (quote value)
  | .array [] => push out (utf8 "[]")
  | .array (v :: rest) =>
    let out := push out (utf8 "[" ++ style.lineBreak (level + 1))
    let out := writeElements style (level + 1) (write style (level + 1) out v) rest
    push out (style.lineBreak level ++ utf8 "]")
  | .object [] => push out (utf8 "\x7b\x7d")
  | .object ((name, v) :: rest) =>
    let out := push out (utf8 "\x7b" ++ style.lineBreak (level + 1))
    let out := push out (quote (utf8 name) ++ style.colon)
    let out := writeMembers style (level + 1) (write style (level + 1) out v) rest
    push out (style.lineBreak level ++ utf8 "\x7d")

def writeElements (style : Style) (level : Nat) (out : Bytes) : List Json → Bytes
  | [] => out
  | v :: rest =>
    let out := push out (utf8 "," ++ style.lineBreak level)
    writeElements style level (write style level out v) rest

def writeMembers (style : Style) (level : Nat) (out : Bytes) : List (String × Json) → Bytes
  | [] => out
  | (name, v) :: rest =>
    let out := push out (utf8 "," ++ style.lineBreak level ++ quote (utf8 name) ++ style.colon)
    writeMembers style level (write style level out v) rest

end

def hasText (style : Style) (v : Json) : Bool :=
  v.isWritable && v.nesting style ≤ maxNesting

def render (style : Style) (v : Json) : Bytes :=
  (v.write style 0 []).reverse

def render? (style : Style) (v : Json) : Option Bytes :=
  if v.hasText style then some (v.render style) else none

end Json

end LuaBytecode
