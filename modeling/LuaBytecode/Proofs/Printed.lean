import Mathlib
import LuaBytecode.Listing.Basic

/-!
What is printed of a function. `Prints` says which lines a part of the printer writes, and that no text is
left over for a line behind them, whether all lines are taken or not. The lines of a function without those
inside it are its block.
-/

namespace LuaBytecode

theorem WriteM.writeAll_append (pieces pieces' : List Bytes) :
    writeAll (pieces ++ pieces') = (do writeAll pieces; writeAll pieces') := by
  induction pieces with
  | nil => simp [writeAll]
  | cons piece pieces ih =>
    rw [List.cons_append, writeAll, writeAll, ih]
    simp only [bind_assoc]

namespace PrintM

/--
Behind the text `start` in the line, these lines are written until one is refused, and the line is empty at the
end.
-/
structure Prints (start : Bytes) (m : PrintM Unit) (lines : List Bytes) : Prop where
  apply_eq : ∀ output, m ⟨output, start⟩
    = match WriteM.writeAll lines output with
      | .ok _ output => .ok () { output }
      | .error e output => .error e { output }

namespace Prints

theorem pure : Prints [] (pure ()) [] := by
  constructor
  intro output
  rfl

theorem flush {start line : Bytes} (h : line = start ++ utf8 "\n") : Prints start flush [line] := by
  subst h
  constructor
  intro output
  rw [PrintM.flush, WriteM.writeAll]
  simp only [bind, EStateM.bind]
  cases WriteM.write (start ++ utf8 "\n") output <;> rfl

theorem print {start text : Bytes} {f : Unit → PrintM Unit} {lines : List Bytes}
    (h : Prints (start ++ text) (f ()) lines) : Prints start (print text >>= f) lines := by
  constructor
  intro output
  exact h.apply_eq output

theorem bind {start : Bytes} {m : PrintM Unit} {f : Unit → PrintM Unit} {lines lines' : List Bytes}
    (first : Prints start m lines) (rest : Prints [] (f ()) lines') :
    Prints start (m >>= f) (lines ++ lines') := by
  constructor
  intro output
  rw [WriteM.writeAll_append]
  simp only [Bind.bind, EStateM.bind, first.apply_eq]
  cases WriteM.writeAll lines output with
  | ok _ output => exact rest.apply_eq output
  | error e output => rfl

theorem printLine (text : Bytes) : Prints [] (printLine text) [text ++ utf8 "\n"] :=
  .print (.flush rfl)

theorem printEach {act : Nat → α → PrintM Unit} {line : Nat → α → Bytes}
    (h : ∀ i a, Prints [] (act i a) [line i a]) (i : Nat) (as : List α)
    : Prints [] (printEach act i as) (as.mapIdx fun j a => line (i + j) a) := by
  induction as generalizing i with
  | nil => exact .pure
  | cons a as ih =>
    have hrest := ih (i + 1)
    simp only [Nat.add_assoc, Nat.add_comm 1] at hrest
    rw [List.mapIdx_cons]
    exact .bind (h i a) hrest

theorem run_eq {m : PrintM Unit} {lines : List Bytes} (h : Prints [] m lines) :
    run m = WriteM.writeAll lines := by
  funext output
  rw [run, h.apply_eq]
  cases WriteM.writeAll lines output <;> rfl

end Prints

end PrintM

open PrintM

namespace Listing

def headingLine (f : Prototype) (origin : ChunkName) (name : Bytes) : Bytes :=
  headingText f origin name ++ utf8 "\n"

def sizesLine (f : Prototype) : Bytes :=
  sizesText f ++ utf8 "\n"

def commentCell : Bytes → Bytes
  | [] => []
  | text => utf8 "\t; " ++ text

def codeLine (opts : Options) (names : Names) (f : Prototype) (path : List Nat) (i : Instruction)
    (pc : Nat) : Bytes :=
  utf8 "\t" ++ Bytes.digits 10 (opts.base + pc) ++ utf8 "\t" ++ lineCell f pc ++ i.text
    ++ commentCell (comment opts names f path pc i) ++ utf8 "\n"

def tableLines (what : String) (name : Bytes) (toRow : Nat → α → Bytes) (entries : List α) :
    List Bytes :=
  (tableHeading what entries.length name ++ utf8 "\n")
    :: entries.mapIdx fun i a => toRow i a ++ utf8 "\n"

def tables (opts : Options) (f : Prototype) (name : Bytes) : List Bytes :=
  tableLines "constants" name constantRow f.constants
    ++ tableLines "locals" name (localRow opts) f.debug.locals
    ++ tableLines "upvalues" name (upvalueRow f) f.upvalues

def block (opts : Options) (names : Names) (f : Prototype) (origin : ChunkName) (path : List Nat) :
    List Bytes :=
  headingLine f origin (names.get path) :: sizesLine f
    :: f.code.mapIdx (fun pc i => codeLine opts names f path i pc)
    ++ if opts.full then tables opts f (names.get path) else []

theorem printInstruction_prints (opts : Options) (names : Names) (path : List Nat) (f : Prototype)
    (pc : Nat) (i : Instruction)
    : Prints [] (printInstruction opts names path f pc i) [codeLine opts names f path i pc] := by
  rw [codeLine]
  apply Prints.print
  apply Prints.print
  apply Prints.print
  cases comment opts names f path pc i with
  | nil => exact .flush (by simp [commentCell])
  | cons b text =>
    apply Prints.print
    apply Prints.print
    exact .flush (by simp [commentCell])

theorem printTable_prints (what : String) (name : Bytes) (toRow : Nat → α → Bytes) (entries : List α)
    : Prints [] (printTable what name toRow entries) (tableLines what name toRow entries) := by
  have hrows := Prints.printEach (fun i a => Prints.printLine (toRow i a)) 0 entries
  simp only [Nat.zero_add] at hrows
  exact .bind (.printLine _) hrows

theorem printTables_prints (opts : Options) (names : Names) (path : List Nat) (f : Prototype)
    : Prints [] (printTables opts names path f) (tables opts f (names.get path)) := by
  rw [tables, List.append_assoc]
  exact .bind (printTable_prints ..) (.bind (printTable_prints ..) (printTable_prints ..))

end Listing

end LuaBytecode
