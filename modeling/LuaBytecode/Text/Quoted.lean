import LuaBytecode.Text.Utf8

/-!
Short string literals of Lua: how a byte string is written between double quotes so that reading the
literal gives the same bytes back.
-/

namespace LuaBytecode.Text

open Utf8 (Segment)

def escapeLetter? (code : Nat) : Option Char :=
  match code with
  | 0x07 => some 'a'
  | 0x08 => some 'b'
  | 0x09 => some 't'
  | 0x0a => some 'n'
  | 0x0b => some 'v'
  | 0x0c => some 'f'
  | 0x0d => some 'r'
  | 0x22 => some '"'
  | 0x5c => some '\\'
  | _ => none

/--
A segment inside a literal. `raw` tells which scalar values are written as they are; others get a numeric
escape, and so does every stray byte.
-/
def quoteSegment (raw : Nat → Bool) : Segment → Bytes
  | .stray byte => utf8 "\\x" ++ Bytes.hex 2 byte.toNat
  | .scalar code encoding =>
    match escapeLetter? code with
    | some letter => [Bytes.ofChar '\\', Bytes.ofChar letter]
    | none =>
      if raw code then encoding
      else utf8 "\\u\x7b" ++ Bytes.digits 16 code ++ utf8 "\x7d"

def quote (raw : Nat → Bool) (bytes : Bytes) : Bytes :=
  Bytes.ofChar '"' :: (Utf8.segments bytes).flatMap (quoteSegment raw) ++ [Bytes.ofChar '"']

end LuaBytecode.Text
