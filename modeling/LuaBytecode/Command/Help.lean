import LuaBytecode.Command.Arguments
import LuaBytecode.Reader.Cursor

/-!
The description of the command and its options.
-/

namespace LuaBytecode.Command

def Flag.valueName? : Flag → Option String
  | .config => some "path"
  | .list => some "count"
  | .maxCount => some "number"
  | .maxDepth => some "depth"
  | _ => none

def Flag.default? : Flag → Option Nat
  | .maxCount => some defaultMaxCount
  | .maxDepth => some defaultMaxDepth
  | _ => none

def descriptionColumn : Nat := 27

def Flag.usageLine (flag : Flag) : String :=
  let letter := match flag.letter? with
    | some c => s!"  -{c}, "
    | none => "      "
  let value := match flag.valueName? with
    | some name => " " ++ name
    | none => ""
  let spelling := letter ++ "--" ++ flag.name ++ value
  let blanks := String.ofList (List.replicate (descriptionColumn - spelling.length) ' ')
  let purpose := String.ofList (flag.description.toList.filter (· ≠ Flag.valueMark))
  let default := match flag.default? with
    | some n => s!" (default {n})"
    | none => ""
  spelling ++ blanks ++ purpose ++ default ++ "\n"

def summary : String :=
  "decode Lua 5.4 binary chunks"

def usageText : String :=
  "Usage:\n  luadec [options] FILE [...]\n\nFlags:\n" ++ String.join (Flag.all.map Flag.usageLine)

def helpPieces : List String :=
  [summary, "\n\n", usageText]

end LuaBytecode.Command
