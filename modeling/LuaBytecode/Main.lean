import LuaBytecode.Command.Basic

/-!
The command itself: what a run needs is fetched before it, and what it wrote is printed after it.
-/

namespace LuaBytecode.Command

def FileProblem.ofError (error : IO.Error) : FileProblem :=
  match error with
  | .noFileOrDirectory .. => .notFound
  | .permissionDenied .. => .denied
  | .invalidArgument .. => .invalidPath
  | .inappropriateType _ code details =>
    if code = 20 then .notADirectory
    else if code = 21 then .isADirectory
    else .other details
  | error => .other (toString error)

def fetch (path : Bytes) : IO (Except FileProblem Bytes) := do
  match String.fromUTF8? ⟨path.toArray⟩ with
  | none => return .error .notFound
  | some name =>
    try
      return .ok (← IO.FS.readBinFile name).toList
    catch error =>
      return .error (.ofError error)

partial def readStream (stream : IO.FS.Stream) (before : ByteArray) : IO ByteArray := do
  let piece ← stream.read 65536
  if piece.isEmpty then return before else readStream stream (before ++ piece)

def fetchStandardInput : IO (Except String Bytes) := do
  try
    return .ok (← readStream (← IO.getStdin) .empty).toList
  catch error =>
    return .error (toString error)

def usualConfigPaths : IO (List Bytes) := do
  let user ← match ← IO.getEnv "XDG_CONFIG_HOME" with
    | some directory => pure [directory]
    | none => pure ((← IO.getEnv "HOME").toList.map (· ++ "/.config"))
  let system := ((← IO.getEnv "XDG_CONFIG_DIRS").getD "/etc/xdg").splitOn ":"
  return (user ++ system).map fun directory => utf8 (directory ++ "/luadec/config.jwcc")

def plainWording : Wording where
  malformedFile := utf8 "malformed configuration"
  malformed := utf8 "malformed JSON"
  badValue := []
  unwritable := utf8 "no JSON form"
  compression _ := utf8 "malformed compressed file"

def printEntry (text : Bytes) : IO Unit := do
  let stderr ← IO.getStderr
  stderr.write ⟨(utf8 "luadec: " ++ text ++ utf8 "\n").toArray⟩

def printProgress (p : Progress) : IO Unit := do
  let stdout ← IO.getStdout
  stdout.write ⟨p.output.text.toArray⟩
  stdout.flush
  (← IO.getStderr).write ⟨p.complaints.toArray⟩
  for entry in p.log do
    if entry.level = .warn || p.details = some true then
      printEntry entry.text

def start (arguments : List String) : IO UInt32 := do
  let arguments := arguments.map utf8
  let asked := (Arguments.parse arguments).toOption.getD {}
  let configPaths ← usualConfigPaths
  let contents ← (asked.configs ++ configPaths ++ asked.files).mapM fun path => do
    return (path, ← fetch path)
  let stdin ← if asked.files.contains standardInputName then fetchStandardInput else pure (.ok [])
  let environment : Environment :=
    { files := fun path => (contents.lookup path).getD (.error .notFound)
      stdin, configPaths
      terminal := ← (← IO.getStdout).isTty }
  match run environment arguments { output := {} } with
  | .ok _ p =>
    printProgress p
    return 0
  | .error error p =>
    printProgress p
    printEntry (error.message plainWording)
    return 1

end LuaBytecode.Command

def main (arguments : List String) : IO UInt32 :=
  LuaBytecode.Command.start arguments
