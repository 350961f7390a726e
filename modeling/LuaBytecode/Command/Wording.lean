import LuaBytecode.Bzip2.Bits
import LuaBytecode.Settings.Basic
import LuaBytecode.Text.Diagnostic

/-!
Who reads JSON or compressed files has words of its own for what is wrong with them. Messages of the command
quote these words and do not depend on them otherwise.
-/

namespace LuaBytecode

structure Wording where
  malformedFile : Bytes
  malformed : Bytes
  /--
  What stands behind the name of a setting whose value is refused.
  -/
  badValue : Bytes
  unwritable : Bytes
  compression : Bzip2.Problem → Bytes

def Settings.Problem.message (wording : Wording) : Settings.Problem → Bytes
  | .malformedFile => wording.malformedFile
  | .malformed => wording.malformed
  | .notAnObject kind => utf8 s!"config must be an object not a {kind}"
  | .badValue name => utf8 s!"unmarshal config.{name}" ++ wording.badValue
  | .unknownMember name => utf8 "unmarshal config: unknown field " ++ Text.showText name
  | .negative name value => utf8 s!"{name} ({value}) is negative"

end LuaBytecode
