import LuaBytecode.Command.Files
import LuaBytecode.Command.Wording
import LuaBytecode.Bzip2.File
import LuaBytecode.Reader.Chunk

/-!
Reading and decoding several files side by side. Each file is a task of two steps, and a schedule tells
whose turn it is. Standard input is there for all tasks, and is read by the first that asks for it.
-/

namespace LuaBytecode.Command

inductive InputProblem where
  | file (path : Bytes) (problem : FileProblem)
  | standardInput (reason : String)
  | compression (problem : Bzip2.Problem)
  | chunk (fault : Fault)

def InputProblem.message (wording : Wording) : InputProblem → Bytes
  | .file path problem => problem.message path
  | .standardInput reason => utf8 reason
  | .compression problem => utf8 "decompress: " ++ wording.compression problem
  | .chunk fault => fault.message

structure Decoded where
  chunk : Chunk
  size : Nat

def Decoded.ofContent (limits : Limits) (content : Bytes) : Except InputProblem Decoded := do
  let input ← (Bzip2.decompressIfNeeded content).mapError .compression
  let chunk ← (Chunk.decode limits input).mapError .chunk
  return { chunk, size := input.length }

def standardInputName : Bytes :=
  utf8 "-"

inductive Task where
  | waiting (name : Bytes)
  | loaded (content : Except InputProblem Bytes)
  | finished (result : Except InputProblem Decoded)

def Task.result? : Task → Option (Except InputProblem Decoded)
  | .finished result => some result
  | _ => none

structure StandardInput where
  stream : Except String Bytes
  seen : Option (Except String Bytes) := none
  readings : Nat := 0

/--
Reads standard input. The stream is at its end afterwards, and what it gave is kept.
-/
def StandardInput.read (input : StandardInput) : Except String Bytes × StandardInput :=
  match input.seen with
  | some content => (content, input)
  | none =>
    (input.stream,
      { stream := .ok [], seen := some input.stream, readings := input.readings + 1 })

structure Batch where
  input : StandardInput
  tasks : List Task

namespace Batch

def start (stdin : Except String Bytes) (names : List Bytes) : Batch where
  input := { stream := stdin }
  tasks := names.map .waiting

def load (files : Files) (name : Bytes) (input : StandardInput) :
    Except InputProblem Bytes × StandardInput :=
  if name = standardInputName then
    let (content, input) := input.read
    (content.mapError .standardInput, input)
  else ((files name).mapError (.file name), input)

def step (files : Files) (limits : Limits) (batch : Batch) (i : Nat) : Batch :=
  match batch.tasks[i]? with
  | some (.waiting name) =>
    let (content, input) := load files name batch.input
    { input, tasks := batch.tasks.set i (.loaded content) }
  | some (.loaded content) =>
    let result := content.bind (Decoded.ofContent limits)
    { batch with tasks := batch.tasks.set i (.finished result) }
  | some (.finished _) | none => batch

def follow (files : Files) (limits : Limits) (batch : Batch) (schedule : List Nat) : Batch :=
  schedule.foldl (step files limits) batch

def inOrder (batch : Batch) : List Nat :=
  (List.range batch.tasks.length).flatMap fun i => [i, i]

/--
Follows a schedule, and then brings the tasks that are left to their end.
-/
def complete (files : Files) (limits : Limits) (batch : Batch) (schedule : List Nat) : Batch :=
  let batch := batch.follow files limits schedule
  batch.follow files limits batch.inOrder

def results (batch : Batch) : List (Except InputProblem Decoded) :=
  batch.tasks.filterMap Task.result?

end Batch

end LuaBytecode.Command
