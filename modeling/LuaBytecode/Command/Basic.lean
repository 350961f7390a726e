import LuaBytecode.Command.Batch
import LuaBytecode.Command.Configuration
import LuaBytecode.Command.Completion
import LuaBytecode.Command.Help
import LuaBytecode.Chunk.Json
import LuaBytecode.Listing.Basic

/-!
A run of the command, from its arguments to what it writes. Files are read and decoded in any order, but
all that is seen of them comes in the order of the arguments.
-/

namespace LuaBytecode.Command

structure Environment where
  files : Files
  stdin : Except String Bytes := .ok []
  configPaths : List Bytes := []
  terminal : Bool := false
  cancelled : Bool := false
  schedule : List Nat := []

inductive Error where
  | usage (error : UsageError)
  | config (problem : ConfigProblem)
  | cancelled
  | input (name : Bytes) (problem : InputProblem)
  | unwritable (name : Bytes)
  | output (error : WriteError)

def Error.message (wording : Wording) : Error → Bytes
  | .usage error => error.message
  | .config problem => problem.message wording
  | .cancelled => utf8 "context canceled"
  | .input name problem => name ++ utf8 ": " ++ problem.message wording
  | .unwritable name => name ++ utf8 ": " ++ wording.unwritable
  | .output error => error.message

inductive Level where
  | debug
  | warn
  deriving DecidableEq

structure LogEntry where
  level : Level
  text : Bytes
  deriving DecidableEq

structure Progress where
  output : Sink
  complaints : Bytes := []
  entries : List LogEntry := []
  details : Option Bool := none

def Progress.log (p : Progress) : List LogEntry :=
  p.entries.reverse

abbrev RunM := EStateM Error Progress

namespace RunM

def require (f : ε → Error) : Except ε α → RunM α
  | .ok a => pure a
  | .error e => throw (f e)

def log (level : Level) (text : Bytes) : RunM Unit :=
  modify fun p => { p with entries := ⟨level, text⟩ :: p.entries }

def write (w : WriteM α) : RunM α := fun p =>
  match w p.output with
  | .ok a output => .ok a { p with output }
  | .error e output => .error (.output e) { p with output }

def writeOnDemand (piece : Unit → Bytes) : RunM Unit := do
  if (← get).output.isFull then throw (.output .refused)
  write (WriteM.write (piece ()))

def offer (lines : List Bytes) : RunM Unit := fun p =>
  match WriteM.writeAll (lines.map (· ++ utf8 "\n")) p.output with
  | .ok _ output | .error _ output => .ok () { p with output }

def complain (text : Bytes) : RunM Unit :=
  modify fun p => { p with complaints := p.complaints ++ text ++ utf8 "\n" }

end RunM

inductive Form where
  | json (style : Json.Style)
  | header
  | listing (options : Listing.Options)

def Arguments.form (a : Arguments) (indent : Bool) : Form :=
  if a.json then .json (if indent then .tabs else .compact)
  else if a.header then .header
  else .listing { full := 1 < a.list, rawPC := a.rawPC }

def fileJson (name : Bytes) (c : Chunk) : Json :=
  .object [("file", .string name), ("chunk", c.toJson)]

def Form.write (form : Form) (name : Bytes) (c : Chunk) : RunM Unit :=
  match form with
  | .json style =>
    let v := fileJson name c
    if v.hasText style then
      RunM.writeOnDemand fun _ => v.render style ++ utf8 "\n"
    else
      throw (.unwritable name)
  | .header => RunM.write (WriteM.write (Listing.headerText name c))
  | .listing options => RunM.write (Listing.write options c)

def displayName (name : Bytes) : Bytes :=
  if name = standardInputName then utf8 "stdin" else name

def logDecoded (name : Bytes) (d : Decoded) : RunM Unit := do
  RunM.log .debug (name ++ utf8 s!": decoded {d.size} bytes ({d.chunk.main.count} functions)")
  unless d.chunk.header.numberSampleMatches do
    RunM.log .warn (name ++ utf8 ": float sample is " ++ utf8 d.chunk.header.numberSample.text
      ++ utf8 " instead of 370.5; floats may be misread")
  if 0 < d.chunk.trailingBytes then
    RunM.log .warn (name ++ utf8 s!": {d.chunk.trailingBytes} trailing bytes after main function")

def showAll (form : Form) : List (Bytes × Except InputProblem Decoded) → RunM Unit
  | [] => pure ()
  | (name, result) :: rest => do
    let name := displayName name
    let decoded ← RunM.require (.input name) result
    logDecoded name decoded
    form.write name decoded.chunk
    showAll form rest

def runFiles (env : Environment) (limits : Limits) (form : Form) (names : List Bytes) : RunM Unit := do
  -- A run that was called off fails with its first task, and without files there is none.
  if env.cancelled && !names.isEmpty then throw .cancelled
  let batch := (Batch.start env.stdin names).complete env.files limits env.schedule
  showAll form (names.zip batch.results)

/--
Shows the description of the command. That it cannot be written is said, but is no failure.
-/
def showHelp : RunM Unit := fun p =>
  match WriteM.writeAll (helpPieces.map utf8) p.output with
  | .ok _ output => .ok () { p with output }
  | .error error output => RunM.complain error.message { p with output }

def showCompletion (request : CompletionRequest) : RunM Unit := do
  let completion ← RunM.require .usage request.answer
  RunM.offer completion.lines
  RunM.complain completion.remark

def Arguments.run (a : Arguments) (env : Environment) : RunM Unit := do
  RunM.require .usage a.check
  let s ← RunM.require .config (loadSettings env.files a.configs env.configPaths)
  modify fun p => { p with details := some (a.debug || s.debug) }
  runFiles env (a.limits s) (a.form (s.indentJSON.getD env.terminal)) a.files

def run (env : Environment) (arguments : List Bytes) : RunM Unit := do
  match CompletionRequest.ofArguments? arguments with
  | some request => showCompletion request
  | none =>
    let a ← RunM.require .usage (Arguments.parse arguments)
    if a.help then
      showHelp
    else
      a.run env

end LuaBytecode.Command
