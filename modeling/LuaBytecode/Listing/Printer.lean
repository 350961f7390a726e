import LuaBytecode.Listing.Sink

/-!
Printing line by line: a line is put together before it is written, and each line is one write.
-/

namespace LuaBytecode

structure Printer where
  output : Sink
  line : Bytes := []

abbrev PrintM := EStateM WriteError Printer

namespace PrintM

def print (text : Bytes) : PrintM Unit :=
  modify fun p => { p with line := p.line ++ text }

/--
Writes the line. The next one is empty, whether this one was taken or not.
-/
def flush : PrintM Unit := fun p =>
  match WriteM.write (p.line ++ utf8 "\n") p.output with
  | .ok _ output => .ok () { output }
  | .error e output => .error e { output }

def printLine (text : Bytes) : PrintM Unit := do
  print text
  flush

def printEach (act : Nat → α → PrintM Unit) (i : Nat) : List α → PrintM Unit
  | [] => pure ()
  | a :: rest => do
    act i a
    printEach act (i + 1) rest

def run (m : PrintM Unit) : WriteM Unit := fun output =>
  match m { output } with
  | .ok _ p => .ok () p.output
  | .error e p => .error e p.output

end PrintM

end LuaBytecode
