import Mathlib
import LuaBytecode.Proofs.Lines

/-!
The searches for lines over indices. Here every entry of a table is looked up by its index, and an index
that the table does not have ends the search with an error. In a table that passes the check this never
happens, so that the searches over indices give what the searches over lists give. In the check itself it
happens in no table.
-/

namespace LuaBytecode
namespace LineTable

structure OutOfRange where
  index : Int

def entry (table : List α) (index : Int) : Except OutOfRange α :=
  if index < 0 then .error ⟨index⟩
  else
    match table[index.toNat]? with
    | some a => .ok a
    | none => .error ⟨index⟩

def searchByIndex (checkpoints : List Checkpoint) (pc : Int64) (lo hi : Nat) :
    Except OutOfRange Nat :=
  if lo < hi then do
    let mid := (lo + hi) / 2
    let c ← entry checkpoints mid
    if c.pc < pc then searchByIndex checkpoints pc (mid + 1) hi
    else searchByIndex checkpoints pc lo mid
  else return lo
termination_by hi - lo

def advanceByIndex (deltas : List Int8) (line : Int64) (index : Int) :
    (steps : Nat) → Except OutOfRange (Option Int64)
  | 0 => return some line
  | steps + 1 => do
    let delta ← entry deltas index
    if delta = lineMarker then return none
    else advanceByIndex deltas (line + delta.toInt64) (index + 1) steps

def foundByIndex (checkpoints : List Checkpoint) (pc : Int64) (i : Nat) :
    Except OutOfRange (Option Checkpoint) :=
  if i < checkpoints.length then do
    let c ← entry checkpoints i
    return if c.pc == pc then some c else none
  else return none

def startByIndex (checkpoints : List Checkpoint) (lineDefined : Int64) (i : Nat) :
    Except OutOfRange (Int64 × Int64) :=
  if i = 0 then return (0, lineDefined)
  else do
    let c ← entry checkpoints (i - 1)
    return (c.pc + 1, c.line)

def lineByIndex (info : DebugInfo) (lineDefined pc : Int64) : Except OutOfRange (Option Int64) :=
  if pc < 0 || info.lineDeltas.length ≤ pc.toNatClampNeg then return none
  else do
    let i ← searchByIndex info.checkpoints pc 0 info.checkpoints.length
    match ← foundByIndex info.checkpoints pc i with
    | some c => return some c.line
    | none =>
      let (start, line) ← startByIndex info.checkpoints lineDefined i
      advanceByIndex info.lineDeltas line start.toInt (pc.toInt + 1 - start.toInt).toNat

def linesByIndex.go (info : DebugInfo) (pc i : Nat) (line : Int64) :
    (left : Nat) → Except OutOfRange (List (Nat × Int64))
  | 0 => return []
  | left + 1 => do
    let delta ← entry info.lineDeltas pc
    if delta = lineMarker then
      if i < info.checkpoints.length then
        let c ← entry info.checkpoints i
        if c.pc.toInt = pc then
          return (pc, c.line) :: (← go info (pc + 1) (i + 1) c.line left)
        else
          return []
      else
        return []
    else
      let next := line + delta.toInt64
      return (pc, next) :: (← go info (pc + 1) i next left)

def linesByIndex (info : DebugInfo) (lineDefined : Int64) : Except OutOfRange (List (Nat × Int64)) :=
  linesByIndex.go info 0 0 lineDefined info.lineDeltas.length

def checkByIndex.go (deltas : List Int8) (prev : Int64) :
    List Checkpoint → Except OutOfRange (Except CheckpointProblem Unit)
  | [] => return .ok ()
  | c :: rest =>
    if c.pc ≤ prev then return .error .notIncreasing
    else if (deltas.length : Int) ≤ c.pc.toInt then return .error (.outOfRange c.pc)
    else do
      let delta ← entry deltas c.pc.toInt
      if delta ≠ lineMarker then return .error (.unexpected c.pc)
      else go deltas c.pc rest

def checkByIndex (deltas : List Int8) (checkpoints : List Checkpoint) (markers : Nat) :
    Except OutOfRange (Except CheckpointProblem Unit) :=
  if checkpoints.length ≠ markers then return .error (.count checkpoints.length markers)
  else checkByIndex.go deltas (-1) checkpoints

theorem entry_eq_ok {table : List α} {index : Int} {a : α} (hindex : 0 ≤ index)
    (ha : table[index.toNat]? = some a) : entry table index = .ok a := by
  rw [entry, if_neg (by omega), ha]

theorem entry_natCast {table : List α} {i : Nat} {a : α} (ha : table[i]? = some a) :
    entry table i = .ok a := by
  apply entry_eq_ok (by omega)
  rw [Int.toNat_natCast, ha]

theorem searchByIndex_eq (checkpoints : List Checkpoint) (pc : Int64) (lo hi : Nat)
    (hhi : hi ≤ checkpoints.length)
    : searchByIndex checkpoints pc lo hi
        =
      .ok (lowerBound (fun i => (checkpoints[i]?).any (·.pc < pc)) lo hi) := by
  induction lo, hi using searchByIndex.induct with
  | case1 lo hi hlt mid ihabove ihbelow =>
    have hmid : mid < checkpoints.length := by omega
    have hentry := List.getElem?_eq_getElem hmid
    rw [searchByIndex, lowerBound, if_pos hlt, if_pos hlt]
    dsimp only
    rw [entry_natCast hentry, hentry]
    by_cases hbelow : checkpoints[mid].pc < pc
    . rw [Option.any_some, if_pos (decide_eq_true hbelow), ← ihabove hhi]
      exact if_pos hbelow
    . rw [Option.any_some, if_neg (by simpa using hbelow), ← ihbelow (by omega)]
      exact if_neg hbelow
  | case2 lo hi hlt =>
    rw [searchByIndex, if_neg hlt, lowerBound, if_neg hlt]
    rfl

theorem advanceByIndex_eq (deltas : List Int8) (line : Int64) (index : Int) (steps : Nat)
    (hindex : 0 ≤ index) (hlength : index.toNat + steps ≤ deltas.length)
    : advanceByIndex deltas line index steps
        =
      .ok (advance line ((deltas.drop index.toNat).take steps)) := by
  induction steps generalizing line index with
  | zero => rfl
  | succ steps ih =>
    have hlt : index.toNat < deltas.length := by omega
    have hnext : (index + 1).toNat = index.toNat + 1 := by omega
    have ih := fun line => ih line (index + 1) (by omega) (by omega)
    rw [hnext] at ih
    rw [advanceByIndex, entry_eq_ok hindex (List.getElem?_eq_getElem hlt),
      List.drop_eq_getElem_cons hlt, List.take_succ_cons, advance]
    by_cases hmarker : deltas[index.toNat] = lineMarker
    . rw [if_pos hmarker]
      exact if_pos hmarker
    . rw [if_neg hmarker, ← ih]
      exact if_neg hmarker

theorem linesByIndex.go_eq (info : DebugInfo) (pc i : Nat) (line : Int64) (left : Nat)
    (hleft : pc + left = info.lineDeltas.length)
    : go info pc i line left
        =
      .ok (lines.go pc line (info.lineDeltas.drop pc) (info.checkpoints.drop i)) := by
  induction left generalizing pc i line with
  | zero =>
    rw [List.drop_eq_nil_of_le (by omega)]
    simp [go, lines.go, pure, Except.pure]
  | succ left ih =>
    have hpc : pc < info.lineDeltas.length := by omega
    have ih := fun i line => ih (pc + 1) i line (by omega)
    rw [go, entry_natCast (List.getElem?_eq_getElem hpc), List.drop_eq_getElem_cons hpc]
    by_cases hmarker : info.lineDeltas[pc] = lineMarker
    . by_cases hi : i < info.checkpoints.length
      . rw [List.drop_eq_getElem_cons hi, entry_natCast (List.getElem?_eq_getElem hi)]
        by_cases hat : info.checkpoints[i].pc.toInt = pc
        . simp [hmarker, hi, hat, lines.go, ih, bind, Except.bind, pure, Except.pure]
        . simp [hmarker, hi, hat, lines.go, bind, Except.bind, pure, Except.pure]
      . rw [List.drop_eq_nil_of_le (Nat.le_of_not_lt hi)]
        simp [hmarker, hi, lines.go, bind, Except.bind, pure, Except.pure]
    . simp [hmarker, lines.go, ih, bind, Except.bind, pure, Except.pure]

theorem linesByIndex_eq (info : DebugInfo) (lineDefined : Int64) :
    linesByIndex info lineDefined = .ok (lines info lineDefined) := by
  rw [linesByIndex, linesByIndex.go_eq _ _ _ _ _ (by omega)]
  rfl

theorem foundByIndex_eq (checkpoints : List Checkpoint) (pc : Int64) (i : Nat)
    : foundByIndex checkpoints pc i = .ok (checkpoints[i]?.filter (·.pc == pc)) := by
  unfold foundByIndex
  split
  . next hi =>
    rw [entry_natCast (List.getElem?_eq_getElem hi), List.getElem?_eq_getElem hi, Option.filter_some]
    rfl
  . next hi =>
    rw [List.getElem?_eq_none (Nat.le_of_not_lt hi)]
    rfl

theorem advanceByIndex_eq_lineFrom {deltas : List Int8} {start pc : Int64} (line : Int64)
    (hstart : 0 ≤ start.toInt) (hle : start.toInt ≤ pc.toInt) (hpc : pc.toInt < deltas.length)
    : advanceByIndex deltas line start.toInt (pc.toInt + 1 - start.toInt).toNat
        =
      .ok (lineFrom deltas start line pc) := by
  have hneg : ¬start < 0 := by
    rw [Int64.lt_iff_toInt_lt, Int64.toInt_zero]
    omega
  have hsteps : (pc.toInt + 1 - start.toInt).toNat = pc.toInt.toNat + 1 - start.toInt.toNat := by
    omega
  rw [advanceByIndex_eq _ _ _ _ hstart (by omega), lineFrom, if_neg hneg, hsteps]
  dsimp only
  rw [Int64.toNat_toInt, Int64.toNat_toInt]

theorem lineByIndex_eq {info : DebugInfo} (h : InPlace info.lineDeltas info.checkpoints)
    (lineDefined pc : Int64)
    : lineByIndex info lineDefined pc = .ok (line? info lineDefined pc) := by
  rw [lineByIndex, line?]
  by_cases hout : (pc < 0 || decide (info.lineDeltas.length ≤ pc.toNatClampNeg)) = true
  . rw [if_pos hout, if_pos hout]
    rfl
  . have hin := hout
    rw [outside_iff, not_not] at hin
    rw [if_neg hout, if_neg hout, searchByIndex_eq _ _ _ _ (Nat.le_refl _), ← checkpointIndex]
    have hends := searchEnds h pc
    generalize checkpointIndex info.checkpoints pc = i at hends
    simp only [bind, Except.bind, foundByIndex_eq]
    cases hends with
    | found c hc hpc =>
      rw [hc, Option.filter_some, if_pos (by simpa using hpc)]
      rfl
    | first hfound hi hlater =>
      rw [hfound, startByIndex, if_pos hi, if_pos hi]
      exact advanceByIndex_eq_lineFrom lineDefined (by simp) (by simpa using hin.1) hin.2
    | behind c hfound hi hc hlt hlast =>
      have hnonneg := h.nonneg c (List.mem_of_getElem? hc)
      have hstart := toInt_add_one_of_lt hlt
      have hentry : entry info.checkpoints (i - 1) = .ok c := by
        apply entry_eq_ok (by omega)
        rw [← hc, show ((i : Int) - 1).toNat = i - 1 by omega]
      rw [Int64.lt_iff_toInt_lt] at hlt
      rw [hfound, startByIndex, if_neg hi, if_neg hi, hentry, hc]
      apply advanceByIndex_eq_lineFrom
      . rw [hstart]
        omega
      . rw [hstart]
        omega
      . exact hin.2

theorem checkByIndex.go_eq (deltas : List Int8) (prev : Int64) (checkpoints : List Checkpoint)
    (hprev : -1 ≤ prev.toInt)
    : go deltas prev checkpoints = .ok (check.go deltas prev checkpoints) := by
  induction checkpoints generalizing prev with
  | nil => rfl
  | cons c rest ih =>
    unfold go check.go
    by_cases hle : c.pc ≤ prev
    . rw [if_pos hle, if_pos hle]
      rfl
    . rw [if_neg hle, if_neg hle]
      -- An address behind `prev` is not negative.
      have hpc : 0 ≤ c.pc.toInt := by
        rw [Int64.le_iff_toInt_le] at hle
        omega
      rw [← Int64.toNat_toInt]
      by_cases hlength : (deltas.length : Int) ≤ c.pc.toInt
      . rw [if_pos hlength, List.getElem?_eq_none (by omega)]
        rfl
      . have hin : c.pc.toInt.toNat < deltas.length := by omega
        rw [if_neg hlength, entry_eq_ok hpc (List.getElem?_eq_getElem hin), List.getElem?_eq_getElem hin]
        by_cases hmarker : deltas[c.pc.toInt.toNat] = lineMarker
        . simp only [hmarker, bind, Except.bind, ne_eq, not_true_eq_false, if_false, if_true]
          exact ih c.pc (by omega)
        . simp only [hmarker, bind, Except.bind, ne_eq, not_false_eq_true, if_false, if_true]
          rfl

theorem checkByIndex_eq (deltas : List Int8) (checkpoints : List Checkpoint)
    : checkByIndex deltas checkpoints (markers deltas) = .ok (check deltas checkpoints) := by
  unfold checkByIndex check
  by_cases hlength : checkpoints.length = markers deltas
  . rw [if_neg (by simp [hlength]), if_pos hlength]
    apply checkByIndex.go_eq
    decide
  . rw [if_pos hlength, if_neg hlength]
    rfl

/--
The check passes exactly the tables whose addresses are those of all markers, in increasing order. Whatever
the addresses are, it looks up no difference that does not exist.
-/
theorem check_accepts_markedPCs (deltas : List Int8) (checkpoints : List Checkpoint)
    : (check deltas checkpoints = .ok ()
        ↔
      checkpoints.map (·.pc.toInt) = (markedPCs deltas).map Int.ofNat)
      ∧ (markedPCs deltas).Pairwise (· < ·)
      ∧ (∀ pc, pc ∈ markedPCs deltas ↔ deltas[pc]? = some (-128))
      ∧ checkByIndex deltas checkpoints (markers deltas) = .ok (check deltas checkpoints) :=
  ⟨check_eq_ok_iff, pairwise_markedPCs deltas, fun _ => mem_markedPCs,
    checkByIndex_eq deltas checkpoints⟩

end LineTable

open LineTable

/--
The lines of a function are the same in both searches, no instruction is left out, and no index is out of
range.
-/
structure Prototype.LinesAgree (f : Prototype) : Prop where
  line?_eq : ∀ pc : Int64,
    f.line? pc
      =
    if 0 ≤ pc.toInt ∧ pc.toInt < f.debug.lineDeltas.length then
      some (lineAt f.debug f.lineDefined pc.toNatClampNeg)
    else
      none
  lines_eq :
    f.lines
      =
    (List.range f.debug.lineDeltas.length).map fun pc => (pc, lineAt f.debug f.lineDefined pc)
  line?_of_mem_lines : ∀ pc line, (pc, line) ∈ f.lines → pc < 0x8000000000000000
    → f.line? (Int64.ofNat pc) = some line
  lineByIndex_eq : ∀ pc, lineByIndex f.debug f.lineDefined pc = .ok (f.line? pc)
  linesByIndex_eq : linesByIndex f.debug f.lineDefined = .ok f.lines

theorem Prototype.linesAgree_of_inPlace {f : Prototype}
    (h : InPlace f.debug.lineDeltas f.debug.checkpoints) : f.LinesAgree where
  line?_eq := LineTable.line?_eq h f.lineDefined
  lines_eq := LineTable.lines_eq h f.lineDefined
  line?_of_mem_lines := by
    intro pc line hmem hpc
    have hpc : (Int64.ofNat pc).toInt = pc := Int64.toInt_ofNat_of_lt hpc
    rw [lines, LineTable.lines_eq h, List.mem_map] at hmem
    obtain ⟨_, hrange, heq⟩ := hmem
    obtain ⟨rfl, rfl⟩ := Prod.mk.inj heq
    rw [List.mem_range] at hrange
    rw [line?, LineTable.line?_eq h, if_pos (by omega), ← Int64.toNat_toInt, hpc, Int.toNat_natCast]
  lineByIndex_eq := LineTable.lineByIndex_eq h f.lineDefined
  linesByIndex_eq := LineTable.linesByIndex_eq f.debug f.lineDefined

theorem Chunk.check_of_decode {limits : Limits} {input : Bytes} {chunk : Chunk} {f : Prototype}
    (h : decode limits input = .ok chunk) (hf : f ∈ chunk.main.preorder) :
    check f.debug.lineDeltas f.debug.checkpoints = .ok () := by
  obtain ⟨fields, rest, hlayout, _, _⟩ := decode_eq_ok_iff.mp h
  obtain ⟨_, _, _, hmain⟩ := (layout_ensures limits).of_fields hlayout
  exact check_eq_ok_iff.mpr (hmain f hf).debug.checkpointPCs

/--
Both searches find the same lines in every function whose line table passes the check, and so in every
function of a chunk that was decoded.
-/
theorem Prototype.linesAgree_of_check
    : (∀ f : Prototype, check f.debug.lineDeltas f.debug.checkpoints = .ok () → f.LinesAgree)
      ∧ ∀ limits input chunk, Chunk.decode limits input = .ok chunk
          → ∀ f ∈ chunk.main.preorder, f.LinesAgree := by
  constructor
  . intro f h
    exact linesAgree_of_inPlace (inPlace_of_check h)
  . intro limits input chunk h f hf
    exact linesAgree_of_inPlace (inPlace_of_check (Chunk.check_of_decode h hf))

theorem Prototype.linesAgree_sampleMain
    : check Chunk.sampleMain.debug.lineDeltas Chunk.sampleMain.debug.checkpoints = .ok ()
        ∧ Chunk.sampleMain.LinesAgree
        ∧ Chunk.decode { maxDepth := 2, maxCount := 3 } Chunk.sampleInput
            = .ok ⟨Chunk.sampleHeader, 1, Chunk.sampleMain, 0⟩
        ∧ ∀ f ∈ Chunk.sampleMain.preorder, f.LinesAgree :=
  ⟨rfl, linesAgree_of_check.1 _ rfl, Chunk.decode_sampleInput,
    linesAgree_of_check.2 _ _ _ Chunk.decode_sampleInput⟩

end LuaBytecode
