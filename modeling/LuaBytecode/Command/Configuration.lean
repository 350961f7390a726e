import LuaBytecode.Command.Arguments
import LuaBytecode.Command.Files
import LuaBytecode.Command.Wording
import LuaBytecode.Reader.Cursor

/-!
Where the settings of a run come from: files that are named by the user, or else those in the places
where configuration is kept. What is asked for on the command line goes before any of them.
-/

namespace LuaBytecode.Command

inductive ConfigProblem where
  | missing (path : Bytes) (problem : FileProblem)
  | unreadable (path : Bytes) (problem : FileProblem)
  | refused (path : Bytes) (problem : Settings.Problem)
  | invalid (problem : Settings.Problem)

def ConfigProblem.message (wording : Wording) : ConfigProblem → Bytes
  | .missing path problem => problem.lookupMessage path
  | .unreadable path problem => problem.message path
  | .refused path problem => utf8 "read " ++ path ++ utf8 ": " ++ problem.message wording
  | .invalid problem => problem.message wording

def mergeFiles (files : Files) (s : Settings) : List Bytes → Except ConfigProblem Settings
  | [] => .ok s
  | path :: rest =>
    match files path with
    | .error .notFound => mergeFiles files s rest
    | .error problem => .error (.unreadable path problem)
    | .ok text =>
      match s.applyFile text with
      | (_, some problem) => .error (.refused path problem)
      | (s, none) => mergeFiles files s rest

def firstMissing (files : Files) : List Bytes → Except ConfigProblem Unit
  | [] => .ok ()
  | path :: rest =>
    match files.lookup path with
    | some problem => .error (.missing path problem)
    | none => firstMissing files rest

/--
The settings of a run. `usual` are the places where configuration is kept, the most preferred one first; they
count if the user names no files.
-/
def loadSettings (files : Files) (named usual : List Bytes) : Except ConfigProblem Settings := do
  firstMissing files named
  let s ← mergeFiles files {} (if named = [] then usual.reverse else named)
  match s.validate with
  | some problem => throw (.invalid problem)
  | none => return s

def Arguments.limits (a : Arguments) (s : Settings) : Limits :=
  let choose (given : Option Int64) (setting : Setting Int) : Int :=
    match given with
    | some n => n.toInt
    | none => setting.getD 0
  .ofRequest (choose a.maxDepth s.maxDepth) (choose a.maxCount s.maxCount) a.strictPlatform

end LuaBytecode.Command
