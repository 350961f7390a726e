import LuaBytecode.Text.Quoted
import LuaBytecode.Text.Printable

/-!
How text that was given from outside is shown in a complaint about it: between quotes, with escapes for
all that would not be seen.
-/

namespace LuaBytecode.Text

open Utf8 (Segment)

def showScalar (code : Nat) (encoding : Bytes) : Bytes :=
  if isPrintable code then encoding
  else if code < 0x80 then utf8 "\\x" ++ Bytes.hex 2 code
  else if code < 0x10000 then utf8 "\\u" ++ Bytes.hex 4 code
  else utf8 "\\U" ++ Bytes.hex 8 code

def showSegment : Segment → Bytes
  | .stray byte => utf8 "\\x" ++ Bytes.hex 2 byte.toNat
  | .scalar code encoding =>
    match escapeLetter? code with
    | some letter => [Bytes.ofChar '\\', Bytes.ofChar letter]
    | none => showScalar code encoding

def showText (text : Bytes) : Bytes :=
  Bytes.ofChar '"' :: (Utf8.segments text).flatMap showSegment ++ [Bytes.ofChar '"']

/--
A letter of a group that was given as single bytes, between single quotes. The byte is taken for the number of
a character; shown is the character whose number is the first byte of its encoding.
-/
def showLetter (byte : UInt8) : Bytes :=
  let code := ((Utf8.encode byte.toNat).headD byte).toNat
  let shown :=
    if code = 0x27 then utf8 "\\'"
    else if code = 0x22 then utf8 "\""
    else showSegment (.scalar code (Utf8.encode code))
  Bytes.ofChar '\'' :: shown ++ [Bytes.ofChar '\'']

end LuaBytecode.Text
