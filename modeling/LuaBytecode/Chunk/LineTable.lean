import LuaBytecode.Bytes

/-!
The debug tables of a function. A line number is stored as the difference to the line of the
instruction before, or, behind a marker, in a table of checkpoints.
-/

namespace LuaBytecode

structure Checkpoint where
  pc : Int64
  line : Int64
  deriving DecidableEq

/--
A local variable and the instructions during which it is active: from `startPC` up to, but without, `endPC`.
-/
structure LocalVariable where
  name : Bytes
  startPC : Int64
  endPC : Int64
  deriving DecidableEq

structure DebugInfo where
  /--
  One entry for each instruction: the difference to the line before, or `lineMarker`.
  -/
  lineDeltas : List Int8 := []
  checkpoints : List Checkpoint := []
  locals : List LocalVariable := []
  upvalueNames : List Bytes := []
  deriving DecidableEq

def lineMarker : Int8 := -128

inductive CheckpointProblem where
  | count (found markers : Nat)
  | notIncreasing
  | outOfRange (pc : Int64)
  | unexpected (pc : Int64)
  deriving DecidableEq

def CheckpointProblem.message : CheckpointProblem → String
  | .count found markers => s!"count incorrect ({found} vs. {markers} markers)"
  | .notIncreasing => "PCs not monotonically increasing"
  | .outOfRange pc => s!"PC {pc} out of range"
  | .unexpected pc => s!"absolute line information not expected for pc {pc}"

namespace LineTable

def markers (deltas : List Int8) : Nat :=
  deltas.count lineMarker

def check.go (deltas : List Int8) (prev : Int64) : List Checkpoint → Except CheckpointProblem Unit
  | [] => .ok ()
  | c :: rest =>
    if c.pc ≤ prev then .error .notIncreasing
    else
      match deltas[c.pc.toNatClampNeg]? with
      | none => .error (.outOfRange c.pc)
      | some delta => if delta = lineMarker then go deltas c.pc rest else .error (.unexpected c.pc)

def check (deltas : List Int8) (checkpoints : List Checkpoint) : Except CheckpointProblem Unit :=
  if checkpoints.length = markers deltas then check.go deltas (-1) checkpoints
  else .error (.count checkpoints.length (markers deltas))

def lowerBound (below : Nat → Bool) (lo hi : Nat) : Nat :=
  if lo < hi then
    let mid := (lo + hi) / 2
    if below mid then lowerBound below (mid + 1) hi else lowerBound below lo mid
  else lo
termination_by hi - lo

def checkpointIndex (checkpoints : List Checkpoint) (pc : Int64) : Nat :=
  lowerBound (fun i => (checkpoints[i]?).any (·.pc < pc)) 0 checkpoints.length

def advance (line : Int64) : List Int8 → Option Int64
  | [] => some line
  | delta :: rest =>
    if delta = lineMarker then none else advance (line + delta.toInt64) rest

/--
The line of the instruction at `pc`, where `start` is the instruction behind the one whose line is `line`.
-/
def lineFrom (deltas : List Int8) (start line pc : Int64) : Option Int64 :=
  if start < 0 then none
  else
    let first := start.toNatClampNeg
    advance line ((deltas.drop first).take (pc.toNatClampNeg + 1 - first))

def line? (info : DebugInfo) (lineDefined pc : Int64) : Option Int64 :=
  if pc < 0 || info.lineDeltas.length ≤ pc.toNatClampNeg then none
  else
    let i := checkpointIndex info.checkpoints pc
    match info.checkpoints[i]?.filter (·.pc == pc) with
    | some c => some c.line
    | none =>
      match if i = 0 then none else info.checkpoints[i - 1]? with
      | some c => lineFrom info.lineDeltas (c.pc + 1) c.line pc
      | none => lineFrom info.lineDeltas 0 lineDefined pc

def lines.go (pc : Nat) (line : Int64) : List Int8 → List Checkpoint → List (Nat × Int64)
  | [], _ => []
  | delta :: rest, checkpoints =>
    if delta = lineMarker then
      match checkpoints with
      | [] => []
      | c :: others =>
        if c.pc.toInt = pc then (pc, c.line) :: go (pc + 1) c.line rest others else []
    else
      let next := line + delta.toInt64
      (pc, next) :: go (pc + 1) next rest checkpoints

def lines (info : DebugInfo) (lineDefined : Int64) : List (Nat × Int64) :=
  lines.go 0 lineDefined info.lineDeltas info.checkpoints

end LineTable

namespace DebugInfo

def localName.go (pc : Int64) : (skip : Nat) → List LocalVariable → Bytes
  | _, [] => []
  | skip, v :: rest =>
    -- Variables are in the order in which they become active.
    if pc < v.startPC then []
    else if pc < v.endPC then
      match skip with
      | 0 => v.name
      | skip + 1 => go pc skip rest
    else go pc skip rest

def localName (info : DebugInfo) (register : UInt8) (pc : Int64) : Bytes :=
  localName.go pc register.toNat info.locals

def upvalueName (info : DebugInfo) (index : Int) : Bytes :=
  if index < 0 then [] else (info.upvalueNames[index.toNat]?).getD []

end DebugInfo

end LuaBytecode
