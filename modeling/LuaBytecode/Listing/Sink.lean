import LuaBytecode.Bytes

/-!
Outputs that take text piece by piece and may stop taking it.
-/

namespace LuaBytecode

/--
An output that takes `left` more writes, or all of them. The pieces that it took and those that it refused are
kept with the last one first.
-/
structure Sink where
  left : Option Nat := none
  kept : List Bytes := []
  refused : List Bytes := []

def Sink.text (sink : Sink) : Bytes :=
  sink.kept.reverse.flatten

def Sink.isFull (sink : Sink) : Bool :=
  sink.left = some 0

inductive WriteError where
  | refused
  deriving DecidableEq

def WriteError.message : WriteError → Bytes
  | .refused => utf8 "write failed"

abbrev WriteM := EStateM WriteError Sink

def WriteM.write (piece : Bytes) : WriteM Unit := fun sink =>
  match sink.left with
  | none => .ok () { sink with kept := piece :: sink.kept }
  | some (left + 1) => .ok () { sink with left := some left, kept := piece :: sink.kept }
  | some 0 => .error .refused { sink with refused := piece :: sink.refused }

def WriteM.writeAll : List Bytes → WriteM Unit
  | [] => pure ()
  | piece :: rest => do
    write piece
    writeAll rest

end LuaBytecode
