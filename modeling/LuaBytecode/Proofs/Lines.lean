import Mathlib
import LuaBytecode.Proofs.Accepted

/-!
The lines of instructions. One search starts at the checkpoint before an instruction, the other walks
through all instructions from the first one on. In a table that passes the check both find the same lines,
and neither of them looks for an entry that a table does not have.
-/

namespace LuaBytecode
namespace LineTable

def lastCheckpoint? (checkpoints : List Checkpoint) (pc : Nat) : Option Checkpoint :=
  (checkpoints.filter fun c => c.pc.toInt ≤ (pc : Int)).getLast?

def origin (info : DebugInfo) (lineDefined : Int64) (pc : Nat) : Nat × Int64 :=
  match lastCheckpoint? info.checkpoints pc with
  | some c => (c.pc.toNatClampNeg + 1, c.line)
  | none => (0, lineDefined)

def deltaAt (deltas : List Int8) (pc : Nat) : Int :=
  (deltas[pc]?.getD 0).toInt

/--
The line of the last checkpoint at or before `pc`, or the line on which the function starts, and the sum
of the differences from there on, as a number of 64 bits.
-/
def lineAt (info : DebugInfo) (lineDefined : Int64) (pc : Nat) : Int64 :=
  let (first, line) := origin info lineDefined pc
  Int64.ofInt (line.toInt + ∑ i ∈ Finset.Icc first pc, deltaAt info.lineDeltas i)

def lineBefore (info : DebugInfo) (lineDefined : Int64) : Nat → Int64
  | 0 => lineDefined
  | pc + 1 => lineAt info lineDefined pc

structure InPlace (deltas : List Int8) (checkpoints : List Checkpoint) : Prop where
  increasing : checkpoints.Pairwise fun c d => c.pc.toInt < d.pc.toInt
  nonneg : ∀ c ∈ checkpoints, 0 ≤ c.pc.toInt
  marked_iff : ∀ pc : Nat, deltas[pc]? = some lineMarker ↔ ∃ c ∈ checkpoints, c.pc.toInt = pc

theorem inPlace_of_check {deltas : List Int8} {checkpoints : List Checkpoint}
    (h : check deltas checkpoints = .ok ()) : InPlace deltas checkpoints := by
  rw [check_eq_ok_iff] at h
  have hmem : ∀ n : Int, (∃ c ∈ checkpoints, c.pc.toInt = n) ↔ ∃ pc ∈ markedPCs deltas, Int.ofNat pc = n := by
    intro n
    rw [← List.mem_map, ← List.mem_map, h]
  refine ⟨?_, ?_, ?_⟩
  . have hsorted : (checkpoints.map (·.pc.toInt)).Pairwise (· < ·) := by
      rw [h, List.pairwise_map]
      exact (pairwise_markedPCs deltas).imp Int.ofNat_lt.mpr
    rw [List.pairwise_map] at hsorted
    exact hsorted
  . intro c hc
    obtain ⟨pc, _, hpc⟩ := (hmem c.pc.toInt).mp ⟨c, hc, rfl⟩
    rw [← hpc]
    exact Int.natCast_nonneg pc
  . intro pc
    rw [hmem, ← mem_markedPCs]
    constructor
    . intro hpc
      exact ⟨pc, hpc, rfl⟩
    . rintro ⟨pc', hpc', heq⟩
      rw [← Int.ofNat.inj heq]
      exact hpc'

section Checkpoints

variable {deltas : List Int8} {checkpoints : List Checkpoint} (h : InPlace deltas checkpoints)

include h

theorem InPlace.not_marker_iff {pc : Nat}
    : deltas[pc]? ≠ some lineMarker ↔ ∀ c ∈ checkpoints, c.pc.toInt ≠ pc := by
  rw [ne_eq, h.marked_iff]
  push Not
  rfl

theorem InPlace.le_of_le {i j : Nat} {c d : Checkpoint} (hij : i ≤ j) (hc : checkpoints[i]? = some c)
    (hd : checkpoints[j]? = some d) : c.pc.toInt ≤ d.pc.toInt := by
  rw [List.getElem?_eq_some_iff] at hc hd
  obtain ⟨hi, rfl⟩ := hc
  obtain ⟨hj, rfl⟩ := hd
  cases Nat.eq_or_lt_of_le hij with
  | inl heq =>
    subst heq
    exact Int.le_refl _
  | inr hlt => exact Int.le_of_lt (List.pairwise_iff_getElem.mp h.increasing i j hi hj hlt)

theorem lastCheckpoint?_of_mem {c : Checkpoint} {pc : Nat} (hc : c ∈ checkpoints)
    (hpc : c.pc.toInt = pc) : lastCheckpoint? checkpoints pc = some c := by
  obtain ⟨before, after, rfl⟩ := List.append_of_mem hc
  have hsorted := h.increasing
  rw [List.pairwise_append, List.pairwise_cons] at hsorted
  have hbefore : (before.filter fun c => c.pc.toInt ≤ (pc : Int)) = before := by
    rw [List.filter_eq_self]
    intro d hd
    have := hsorted.2.2 d hd c (by simp)
    simp
    omega
  have hafter : (after.filter fun c => c.pc.toInt ≤ (pc : Int)) = [] := by
    rw [List.filter_eq_nil_iff]
    intro d hd
    have := hsorted.2.1.1 d hd
    simp
    omega
  rw [lastCheckpoint?, List.filter_append, List.filter_cons_of_pos (by simp [hpc]), hbefore, hafter]
  simp

theorem lastCheckpoint?_zero (hpc : deltas[0]? ≠ some lineMarker) :
    lastCheckpoint? checkpoints 0 = none := by
  rw [h.not_marker_iff] at hpc
  rw [lastCheckpoint?, List.getLast?_eq_none_iff, List.filter_eq_nil_iff]
  intro c hc
  have := h.nonneg c hc
  have := hpc c hc
  simp
  omega

theorem lastCheckpoint?_succ {pc : Nat} (hpc : deltas[pc + 1]? ≠ some lineMarker) :
    lastCheckpoint? checkpoints (pc + 1) = lastCheckpoint? checkpoints pc := by
  rw [h.not_marker_iff] at hpc
  unfold lastCheckpoint?
  apply congrArg
  apply List.filter_congr
  intro c hc
  have := hpc c hc
  rw [decide_eq_decide]
  push_cast at this ⊢
  omega

end Checkpoints

def checkpointsFrom (checkpoints : List Checkpoint) (pc : Nat) : List Checkpoint :=
  checkpoints.filter fun c => (pc : Int) ≤ c.pc.toInt

theorem checkpointsFrom_append (first second : List Checkpoint) (pc : Nat)
    : checkpointsFrom (first ++ second) pc = checkpointsFrom first pc ++ checkpointsFrom second pc := by
  apply List.filter_append

section Lines

variable {info : DebugInfo} (h : InPlace info.lineDeltas info.checkpoints) (lineDefined : Int64)

include h

theorem lineAt_of_checkpoint {c : Checkpoint} {pc : Nat} (hc : c ∈ info.checkpoints)
    (hpc : c.pc.toInt = pc) : lineAt info lineDefined pc = c.line := by
  have hfirst : c.pc.toNatClampNeg = pc := by
    rw [← Int64.toNat_toInt, hpc, Int.toNat_natCast]
  rw [lineAt, origin, lastCheckpoint?_of_mem h hc hpc]
  simp [hfirst]

theorem origin_le (pc : Nat) : (origin info lineDefined pc).1 ≤ pc + 1 := by
  unfold origin
  split
  . next c hlast =>
    have hmem := List.mem_of_getLast? hlast
    rw [List.mem_filter, decide_eq_true_iff] at hmem
    have := h.nonneg c hmem.1
    rw [← Int64.toNat_toInt]
    dsimp only
    omega
  . simp

theorem lineAt_of_delta {delta : Int8} {pc : Nat} (hpc : info.lineDeltas[pc]? = some delta)
    (hdelta : delta ≠ lineMarker)
    : lineAt info lineDefined pc = lineBefore info lineDefined pc + delta.toInt64 := by
  have hmarker : info.lineDeltas[pc]? ≠ some lineMarker := by
    rw [hpc]
    simpa using hdelta
  have hat : Int64.ofInt (deltaAt info.lineDeltas pc) = delta.toInt64 := by
    rw [deltaAt, hpc]
    exact Int64.ofInt_int8ToInt delta
  cases pc with
  | zero =>
    rw [lineAt, origin, lastCheckpoint?_zero h hmarker, lineBefore]
    simp [Int64.ofInt_add, hat]
  | succ pc =>
    -- Without a marker at `pc + 1` the differences count from the same place on.
    have horigin : origin info lineDefined (pc + 1) = origin info lineDefined pc := by
      unfold origin
      rw [lastCheckpoint?_succ h hmarker]
    rw [lineBefore, lineAt, lineAt, horigin]
    dsimp only
    rw [Finset.sum_Icc_succ_top (origin_le h lineDefined pc), ← Int.add_assoc, Int64.ofInt_add, hat]

theorem checkpointsFrom_of_marker {pc : Nat} (hpc : info.lineDeltas[pc]? = some lineMarker)
    : ∃ c ∈ info.checkpoints,
        c.pc.toInt = pc
          ∧ checkpointsFrom info.checkpoints pc = c :: checkpointsFrom info.checkpoints (pc + 1) := by
  obtain ⟨c, hc, heq⟩ := (h.marked_iff pc).mp hpc
  refine ⟨c, hc, heq, ?_⟩
  have hsorted := h.increasing
  obtain ⟨before, after, hsplit⟩ := List.append_of_mem hc
  rw [hsplit] at hsorted ⊢
  rw [List.pairwise_append, List.pairwise_cons] at hsorted
  have hbefore : ∀ n, pc ≤ n → checkpointsFrom before n = [] := by
    intro n hn
    rw [checkpointsFrom, List.filter_eq_nil_iff]
    intro d hd
    have := hsorted.2.2 d hd c (by simp)
    simp
    omega
  have hafter : ∀ n, n ≤ pc + 1 → checkpointsFrom after n = after := by
    intro n hn
    rw [checkpointsFrom, List.filter_eq_self]
    intro d hd
    have := hsorted.2.1.1 d hd
    simp
    omega
  have hself : checkpointsFrom [c] pc = [c] := by
    simp [checkpointsFrom, heq]
  have hself' : checkpointsFrom [c] (pc + 1) = [] := by
    simp [checkpointsFrom, heq]
  rw [← List.singleton_append, checkpointsFrom_append, checkpointsFrom_append,
    checkpointsFrom_append, checkpointsFrom_append, hself, hself', hbefore pc (by omega),
    hbefore (pc + 1) (by omega), hafter pc (by omega), hafter (pc + 1) (by omega)]
  rfl

theorem checkpointsFrom_of_not_marker {pc : Nat} (hpc : info.lineDeltas[pc]? ≠ some lineMarker)
    : checkpointsFrom info.checkpoints pc = checkpointsFrom info.checkpoints (pc + 1) := by
  rw [h.not_marker_iff] at hpc
  apply List.filter_congr
  intro c hc
  have := hpc c hc
  rw [decide_eq_decide]
  push_cast
  omega

theorem lines.go_eq (rest : List Int8) (pc : Nat) (hrest : info.lineDeltas.drop pc = rest)
    : lines.go pc (lineBefore info lineDefined pc) rest (checkpointsFrom info.checkpoints pc)
        =
      (List.range' pc rest.length).map fun pc => (pc, lineAt info lineDefined pc) := by
  induction rest generalizing pc with
  | nil => simp [go]
  | cons delta rest ih =>
    have hpc : info.lineDeltas[pc]? = some delta := by
      rw [← List.head?_drop, hrest, List.head?_cons]
    have hnext : info.lineDeltas.drop (pc + 1) = rest := by
      rw [← List.tail_drop, hrest, List.tail_cons]
    have ih := ih (pc + 1) hnext
    rw [lineBefore] at ih
    rw [List.length_cons, List.range'_succ, List.map_cons, ← ih]
    by_cases hmarker : delta = lineMarker
    . -- The first of the checkpoints from here on is the one of this instruction.
      rw [hmarker] at hpc ⊢
      obtain ⟨c, hc, heq, hfrom⟩ := checkpointsFrom_of_marker h hpc
      rw [hfrom, lineAt_of_checkpoint h lineDefined hc heq]
      simp only [go, heq, if_true]
    . rw [lineAt_of_delta h lineDefined hpc hmarker]
      rw [checkpointsFrom_of_not_marker h (by rw [hpc]; simpa using hmarker)]
      simp only [go, hmarker, if_false]

theorem lines_eq
    : lines info lineDefined
        =
      (List.range info.lineDeltas.length).map fun pc => (pc, lineAt info lineDefined pc) := by
  have hall : checkpointsFrom info.checkpoints 0 = info.checkpoints := by
    rw [checkpointsFrom, List.filter_eq_self]
    intro c hc
    simpa using h.nonneg c hc
  have hgo := lines.go_eq h lineDefined info.lineDeltas 0 (by simp)
  rw [hall, lineBefore] at hgo
  rw [lines, hgo, List.range_eq_range']

omit h in
theorem lowerBound_spec {below : Nat → Bool} (hmono : ∀ i j, i ≤ j → below j → below i) (lo hi : Nat)
    (hlo : ∀ i < lo, below i) (hhi : ∀ i, hi ≤ i → ¬below i) (i : Nat)
    : i < lowerBound below lo hi ↔ below i := by
  induction lo, hi using lowerBound.induct below with
  | case1 lo hi hlt mid hmid ih =>
    rw [lowerBound, if_pos hlt]
    dsimp only
    rw [if_pos hmid]
    apply ih _ hhi
    intro j hj
    exact hmono j mid (by omega) hmid
  | case2 lo hi hlt mid hmid ih =>
    rw [lowerBound, if_pos hlt]
    dsimp only
    rw [if_neg hmid]
    apply ih hlo
    intro j hj hbelow
    exact hmid (hmono mid j hj hbelow)
  | case3 lo hi hlt =>
    rw [lowerBound, if_neg hlt]
    constructor
    . exact hlo i
    . intro hbelow
      by_contra hi
      exact hhi i (by omega) hbelow

theorem lt_checkpointIndex_iff (pc : Int64) (i : Nat)
    : i < checkpointIndex info.checkpoints pc ↔ ∃ c, info.checkpoints[i]? = some c ∧ c.pc < pc := by
  rw [checkpointIndex, lowerBound_spec, Option.any_eq_true]
  . simp
  . intro i j hij hj
    rw [Option.any_eq_true] at hj ⊢
    obtain ⟨d, hd, hlt⟩ := hj
    have hi : i < info.checkpoints.length := by
      have := (List.getElem?_eq_some_iff.mp hd).1
      omega
    refine ⟨_, List.getElem?_eq_getElem hi, ?_⟩
    have hle := h.le_of_le hij (List.getElem?_eq_getElem hi) hd
    rw [decide_eq_true_iff, Int64.lt_iff_toInt_lt] at hlt ⊢
    omega
  . simp
  . intro i hi
    rw [List.getElem?_eq_none hi]
    simp

/--
Where the search for `pc` can end: at a checkpoint for `pc`, in front of all checkpoints, or right behind
the last checkpoint before `pc`.
-/
inductive SearchEnds (checkpoints : List Checkpoint) (pc : Int64) (i : Nat) : Prop
  | found (c : Checkpoint) (hc : checkpoints[i]? = some c) (hpc : c.pc = pc)
  | first (hfound : checkpoints[i]?.filter (·.pc == pc) = none) (hi : i = 0)
    (hlater : ∀ d ∈ checkpoints, pc.toInt < d.pc.toInt)
  | behind (c : Checkpoint) (hfound : checkpoints[i]?.filter (·.pc == pc) = none) (hi : i ≠ 0)
    (hc : checkpoints[i - 1]? = some c) (hlt : c.pc < pc)
    (hlast : ∀ d ∈ checkpoints, d.pc.toInt ≤ pc.toInt → d.pc.toInt ≤ c.pc.toInt)

theorem lt_of_not_found {pc : Int64} {i j : Nat} {d : Checkpoint}
    (hindex : ∀ j, j < i ↔ ∃ c, info.checkpoints[j]? = some c ∧ c.pc < pc)
    (hfound : info.checkpoints[i]?.filter (·.pc == pc) = none)
    (hd : info.checkpoints[j]? = some d) (hle : d.pc.toInt ≤ pc.toInt) : j < i := by
  by_contra hj
  have hi : i < info.checkpoints.length := by
    have := (List.getElem?_eq_some_iff.mp hd).1
    omega
  have hc := List.getElem?_eq_getElem hi
  have hge : ¬info.checkpoints[i].pc < pc := by
    intro hlt
    exact absurd ((hindex i).mpr ⟨_, hc, hlt⟩) (Nat.lt_irrefl i)
  have hcd := h.le_of_le (Nat.le_of_not_lt hj) hc hd
  rw [Int64.lt_iff_toInt_lt] at hge
  have heq : info.checkpoints[i].pc = pc := by
    apply Int64.toInt_inj.mp
    omega
  rw [hc] at hfound
  simp [heq] at hfound

theorem searchEnds (pc : Int64)
    : SearchEnds info.checkpoints pc (checkpointIndex info.checkpoints pc) := by
  have hindex := lt_checkpointIndex_iff h pc
  generalize checkpointIndex info.checkpoints pc = i at hindex
  cases hfound : info.checkpoints[i]?.filter (·.pc == pc) with
  | some c =>
    obtain ⟨hc, hpc⟩ := Option.filter_eq_some_iff.mp hfound
    exact .found c hc (by simpa using hpc)
  | none =>
    by_cases hi : i = 0
    . refine .first hfound hi ?_
      intro d hd
      obtain ⟨j, hj⟩ := List.getElem?_of_mem hd
      by_contra hle
      have := lt_of_not_found h hindex hfound hj (by omega)
      omega
    . obtain ⟨c, hc, hlt⟩ := (hindex (i - 1)).mp (by omega)
      refine .behind c hfound hi hc hlt ?_
      intro d hd hle
      obtain ⟨j, hj⟩ := List.getElem?_of_mem hd
      have := lt_of_not_found h hindex hfound hj hle
      exact h.le_of_le (by omega) hj hc

theorem advance_eq (first n : Nat) (hlength : first + n ≤ info.lineDeltas.length)
    (hmarker : ∀ pc, first ≤ pc → pc < first + n → info.lineDeltas[pc]? ≠ some lineMarker)
    : advance (lineBefore info lineDefined first) ((info.lineDeltas.drop first).take n)
        =
      some (lineBefore info lineDefined (first + n)) := by
  induction n generalizing first with
  | zero => rfl
  | succ n ih =>
    have hfirst : first < info.lineDeltas.length := by omega
    have hdelta := List.getElem?_eq_getElem hfirst
    have hne : info.lineDeltas[first] ≠ lineMarker := by
      have := hmarker first (by omega) (by omega)
      rw [hdelta] at this
      simpa using this
    rw [List.drop_eq_getElem_cons hfirst, List.take_succ_cons, advance, if_neg hne,
      ← lineAt_of_delta h lineDefined hdelta hne]
    have ih := ih (first + 1) (by omega) (fun pc hle hlt => hmarker pc (by omega) (by omega))
    rw [lineBefore] at ih
    rw [ih, Nat.add_right_comm, Nat.add_assoc]

theorem lineFrom_eq {start pc : Int64} (hstart : 0 ≤ start.toInt) (hle : start.toInt ≤ pc.toInt)
    (hpc : pc.toInt < info.lineDeltas.length)
    (hbetween : ∀ d ∈ info.checkpoints, d.pc.toInt ≤ pc.toInt → d.pc.toInt < start.toInt)
    : lineFrom info.lineDeltas start (lineBefore info lineDefined start.toNatClampNeg) pc
        =
      some (lineAt info lineDefined pc.toNatClampNeg) := by
  have hneg : ¬start < 0 := by
    rw [Int64.lt_iff_toInt_lt, Int64.toInt_zero]
    omega
  rw [lineFrom, if_neg hneg]
  dsimp only
  rw [← Int64.toNat_toInt, ← Int64.toNat_toInt]
  have hsum : start.toInt.toNat + (pc.toInt.toNat + 1 - start.toInt.toNat) = pc.toInt.toNat + 1 := by
    omega
  rw [advance_eq h, hsum, lineBefore]
  . omega
  . intro k hfirst hlast
    rw [h.not_marker_iff]
    intro d hd heq
    have := hbetween d hd (by omega)
    omega

omit h in
theorem toInt_add_one_of_lt {a b : Int64} (hab : a < b) : (a + 1).toInt = a.toInt + 1 := by
  rw [Int64.lt_iff_toInt_lt] at hab
  have := b.toInt_lt
  have := a.le_toInt
  rw [Int64.toInt_add, Int64.toInt_one]
  apply Int.bmod_eq_of_le <;> omega

theorem lineBefore_checkpoint {c : Checkpoint} {pc : Int64} (hc : c ∈ info.checkpoints)
    (hlt : c.pc < pc) : lineBefore info lineDefined (c.pc + 1).toNatClampNeg = c.line := by
  have hnonneg := h.nonneg c hc
  rw [← Int64.toNat_toInt, toInt_add_one_of_lt hlt, Int.toNat_add hnonneg (by decide)]
  apply lineAt_of_checkpoint h lineDefined hc
  omega

omit h in
theorem outside_iff (deltas : List Int8) (pc : Int64)
    : (pc < 0 || decide (deltas.length ≤ pc.toNatClampNeg)) = true
        ↔
      ¬(0 ≤ pc.toInt ∧ pc.toInt < deltas.length) := by
  rw [Bool.or_eq_true, decide_eq_true_iff, decide_eq_true_iff, Int64.lt_iff_toInt_lt,
    Int64.toInt_zero, ← Int64.toNat_toInt]
  omega

theorem line?_eq (pc : Int64)
    : line? info lineDefined pc
        =
      if 0 ≤ pc.toInt ∧ pc.toInt < info.lineDeltas.length then
        some (lineAt info lineDefined pc.toNatClampNeg)
      else
        none := by
  rw [line?]
  by_cases hout : (pc < 0 || decide (info.lineDeltas.length ≤ pc.toNatClampNeg)) = true
  . rw [if_pos hout, if_neg ((outside_iff _ _).mp hout)]
  . have hin := hout
    rw [outside_iff, not_not] at hin
    rw [if_neg hout, if_pos hin]
    dsimp only
    have hends := searchEnds h pc
    generalize checkpointIndex info.checkpoints pc = i at hends
    cases hends with
    | found c hc hpc =>
      have hat : c.pc.toInt = (pc.toNatClampNeg : Int) := by
        rw [hpc, ← Int64.toNat_toInt]
        omega
      rw [lineAt_of_checkpoint h lineDefined (List.mem_of_getElem? hc) hat, hc]
      rw [Option.filter_some, if_pos (by simpa using hpc)]
    | first hfound hi hlater =>
      rw [hfound, if_pos hi]
      apply @lineFrom_eq _ h lineDefined 0 pc (by simp) (by simpa using hin.1) hin.2
      intro d hd hle
      have := hlater d hd
      omega
    | behind c hfound hi hc hlt hlast =>
      have hmem := List.mem_of_getElem? hc
      have hnonneg := h.nonneg c hmem
      have hstart := toInt_add_one_of_lt hlt
      rw [hfound, if_neg hi, hc]
      dsimp only
      rw [← lineBefore_checkpoint h lineDefined hmem hlt]
      rw [Int64.lt_iff_toInt_lt] at hlt
      apply lineFrom_eq h lineDefined (by omega) (by omega) hin.2
      intro d hd hle
      have := hlast d hd hle
      omega

end Lines

end LineTable
end LuaBytecode
