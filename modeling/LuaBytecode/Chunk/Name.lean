import LuaBytecode.Bytes

/-!
Chunk names. The first byte of a name tells what it is: `@` introduces the name of a file, `=` a
description, and anything else is the text of the program itself.
-/

namespace LuaBytecode

abbrev ChunkName := Bytes

namespace ChunkName

def unknown : ChunkName :=
  utf8 "=?"

def after? (first : Char) : ChunkName → Option Bytes
  | b :: rest => if b = Bytes.ofChar first then some rest else none
  | [] => none

def fileName? (name : ChunkName) : Option Bytes :=
  name.after? '@'

def description? (name : ChunkName) : Option Bytes :=
  name.after? '='

def programText? (name : ChunkName) : Option Bytes :=
  match name.fileName?, name.description? with
  | none, none => some name
  | _, _ => none

def maxLength : Nat := 59

def ellipsis : Bytes :=
  utf8 "..."

def maxText : Nat := 48

/--
The abbreviated name that messages show: a description is cut at its end, a file name at its start, and of a
program text the first line is shown.
-/
def abbreviate (name : ChunkName) : Bytes :=
  match name.description? with
  | some text => text.take maxLength
  | none =>
    match name.fileName? with
    | some file =>
      if file.length ≤ maxLength then file
      else ellipsis ++ file.drop (file.length - (maxLength - ellipsis.length))
    | none =>
      let shown :=
        match name.cut (Bytes.ofChar '\n') with
        | (line, none) =>
          if line.length ≤ maxText then line
          else line.take (maxText - ellipsis.length) ++ ellipsis
        | (line, some _) => line.take (maxText - ellipsis.length) ++ ellipsis
      utf8 "[string \"" ++ shown ++ utf8 "\"]"

end ChunkName

end LuaBytecode
