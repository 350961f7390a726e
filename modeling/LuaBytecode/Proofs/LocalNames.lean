import Mathlib
import LuaBytecode.Chunk.LineTable

/-!
The names of local variables. The scan for the variable in a register counts the active ones and ends at the
first variable that starts later. In a table in the order of the starts this is the variable at the index of
the register among all active ones. In any other table it is that one of the part before the scan ends.
-/

namespace LuaBytecode
namespace DebugInfo

def activeAt (pc : Int64) (vars : List LocalVariable) : List LocalVariable :=
  vars.filter fun v => v.startPC ≤ pc ∧ pc < v.endPC

def nameAt (vars : List LocalVariable) (index : Nat) : Bytes :=
  match vars[index]? with
  | some v => v.name
  | none => []

/--
`first` is the longest part at the start of the table in which all variables have started.
-/
structure LongestStarted (pc : Int64) (vars first : List LocalVariable) : Prop where
  start : first <+: vars
  started : ∀ v ∈ first, v.startPC ≤ pc
  longest : ∀ other, other <+: vars → (∀ v ∈ other, v.startPC ≤ pc) → other.length ≤ first.length

variable {pc : Int64} {v : LocalVariable} {vars first rest : List LocalVariable}

theorem activeAt_cons_of_active (hstart : v.startPC ≤ pc) (hend : pc < v.endPC) :
    activeAt pc (v :: vars) = v :: activeAt pc vars := by
  unfold activeAt
  rw [List.filter_cons_of_pos (by simp [hstart, hend])]

theorem activeAt_cons_of_ended (hend : ¬pc < v.endPC) : activeAt pc (v :: vars) = activeAt pc vars := by
  unfold activeAt
  rw [List.filter_cons_of_neg (by simp [hend])]

theorem activeAt_append : activeAt pc (first ++ rest) = activeAt pc first ++ activeAt pc rest := by
  apply List.filter_append

theorem activeAt_of_later (h : ∀ v ∈ vars, pc < v.startPC) : activeAt pc vars = [] := by
  unfold activeAt
  rw [List.filter_eq_nil_iff]
  intro v hv
  have := Int64.not_le.mpr (h v hv)
  simp [this]

theorem localName.go_append (skip : Nat) (hstarted : ∀ v ∈ first, v.startPC ≤ pc)
    (hrest : ∀ v ∈ rest.head?, pc < v.startPC)
    : go pc skip (first ++ rest) = nameAt (activeAt pc first) skip := by
  induction first generalizing skip with
  | nil =>
    cases rest with
    | nil => rfl
    | cons v rest =>
      -- The scan ends at the first variable that has not started.
      have hlater : pc < v.startPC := hrest v rfl
      rw [List.nil_append, go.eq_def]
      dsimp only
      rw [if_pos hlater]
      rfl
  | cons v first ih =>
    rw [List.forall_mem_cons] at hstarted
    have ih := fun skip => ih skip hstarted.2
    rw [List.cons_append, go.eq_def]
    dsimp only
    rw [if_neg (Int64.not_lt.mpr hstarted.1)]
    split
    . next hend =>
      rw [activeAt_cons_of_active hstarted.1 hend]
      cases skip with
      | zero => rfl
      | succ skip => apply ih
    . next hend =>
      rw [activeAt_cons_of_ended hend]
      apply ih

theorem LongestStarted.exists_append (h : LongestStarted pc vars first)
    : ∃ rest, vars = first ++ rest ∧ ∀ v ∈ rest.head?, pc < v.startPC := by
  obtain ⟨rest, rfl⟩ := h.start
  refine ⟨rest, rfl, ?_⟩
  intro v hv
  obtain ⟨rest, rfl⟩ := List.head?_eq_some_iff.mp hv
  rw [← Int64.not_le]
  intro hle
  -- With the variable behind it, `first` would be longer.
  have hstarted : ∀ w ∈ first ++ [v], w.startPC ≤ pc := by
    intro w hw
    cases List.mem_append.mp hw with
    | inl hw => exact h.started w hw
    | inr hw => rwa [List.mem_singleton.mp hw]
  have hlonger := h.longest (first ++ [v]) ⟨rest, by simp⟩ hstarted
  rw [List.length_append] at hlonger
  simp at hlonger

theorem LongestStarted.of_append (hstarted : ∀ v ∈ first, v.startPC ≤ pc)
    (hrest : ∀ v ∈ rest.head?, pc < v.startPC) : LongestStarted pc (first ++ rest) first where
  start := List.prefix_append first rest
  started := hstarted
  longest := by
    intro other hother hall
    by_contra hlonger
    obtain ⟨more, rfl⟩ :=
      List.prefix_of_prefix_length_le (List.prefix_append first rest) hother (by omega)
    rw [List.prefix_append_right_inj] at hother
    cases more with
    | nil => simp at hlonger
    | cons v more =>
      obtain ⟨rest, rfl⟩ := hother
      exact absurd (hall v (by simp)) (Int64.not_le.mpr (hrest v rfl))

theorem exists_longestStarted (pc : Int64) (vars : List LocalVariable) :
    ∃ first, LongestStarted pc vars first := by
  have hstarted : ∀ v ∈ vars.takeWhile (fun v => v.startPC ≤ pc), v.startPC ≤ pc := by
    intro v hv
    have hv := List.mem_takeWhile_imp hv
    exact of_decide_eq_true hv
  have hrest : ∀ v ∈ (vars.dropWhile fun v => v.startPC ≤ pc).head?, pc < v.startPC := by
    intro v hv
    have hhead := List.head?_dropWhile_not (fun v => v.startPC ≤ pc) vars
    rw [hv] at hhead
    exact Int64.not_le.mp (of_decide_eq_false hhead)
  have hlongest := LongestStarted.of_append hstarted hrest
  rw [List.takeWhile_append_dropWhile] at hlongest
  exact ⟨_, hlongest⟩

theorem LongestStarted.activeAt_eq (h : LongestStarted pc vars first)
    (hsorted : vars.Pairwise fun v w => v.startPC ≤ w.startPC) : activeAt pc first = activeAt pc vars := by
  obtain ⟨rest, rfl, hrest⟩ := h.exists_append
  have hlater : ∀ v ∈ rest, pc < v.startPC := by
    cases rest with
    | nil => simp
    | cons w rest =>
      have hw : pc < w.startPC := hrest w rfl
      have htail := List.pairwise_cons.mp (List.pairwise_append.mp hsorted).2.1
      rw [List.forall_mem_cons]
      exact ⟨hw, fun v hv => Int64.lt_of_lt_of_le hw (htail.1 v hv)⟩
  rw [activeAt_append, activeAt_of_later hlater, List.append_nil]

theorem LongestStarted.localName_eq {info : DebugInfo} (h : LongestStarted pc info.locals first)
    (register : UInt8) : info.localName register pc = nameAt (activeAt pc first) register.toNat := by
  obtain ⟨rest, hlocals, hrest⟩ := h.exists_append
  unfold localName
  rw [hlocals]
  apply localName.go_append _ h.started hrest

/--
In a table that is sorted by the starts, the variable of a register is the one at its index among all that
are active. In any table it is the one at its index among those that are active in the longest part at the
start where all have started.
-/
theorem localName_eq_nameAt_activeAt (info : DebugInfo) (register : UInt8) (pc : Int64)
    : ((info.locals.Pairwise fun v w => v.startPC ≤ w.startPC) →
        info.localName register pc = nameAt (activeAt pc info.locals) register.toNat)
      ∧ (∃ first, LongestStarted pc info.locals first)
      ∧ ∀ first, LongestStarted pc info.locals first →
          info.localName register pc = nameAt (activeAt pc first) register.toNat := by
  obtain ⟨first, hfirst⟩ := exists_longestStarted pc info.locals
  refine ⟨?_, ⟨first, hfirst⟩, ?_⟩
  . intro hsorted
    rw [hfirst.localName_eq, hfirst.activeAt_eq hsorted]
  . intro first' hfirst'
    exact hfirst'.localName_eq register

def sortedLocals : DebugInfo where
  locals := [⟨utf8 "a", 0, 10⟩, ⟨utf8 "b", 2, 5⟩, ⟨utf8 "c", 6, 10⟩]

/--
The scan at 3 ends at `b` and does not come to `c`, which is active.
-/
def unsortedLocals : DebugInfo where
  locals := [⟨utf8 "a", 0, 10⟩, ⟨utf8 "b", 9, 12⟩, ⟨utf8 "c", 2, 8⟩]

theorem localName_eq_nameAt_activeAt_sampleLocals
    : (sortedLocals.locals.Pairwise fun v w => v.startPC ≤ w.startPC)
        ∧ sortedLocals.localName 1 7 = utf8 "c"
        ∧ LongestStarted 3 unsortedLocals.locals [⟨utf8 "a", 0, 10⟩]
        ∧ unsortedLocals.localName 1 3 = []
        ∧ nameAt (activeAt 3 unsortedLocals.locals) 1 = utf8 "c" := by
  have hsorted : sortedLocals.locals.Pairwise fun v w => v.startPC ≤ w.startPC := by decide
  have hlongest : LongestStarted 3 unsortedLocals.locals [⟨utf8 "a", 0, 10⟩] := by
    apply @LongestStarted.of_append 3 [_] [_, _]
    . decide
    . decide
  refine ⟨hsorted, ?_, hlongest, ?_, by decide⟩
  . rw [(localName_eq_nameAt_activeAt sortedLocals 1 7).1 hsorted]
    decide
  . rw [(localName_eq_nameAt_activeAt unsortedLocals 1 3).2.2 _ hlongest]
    decide

end DebugInfo
end LuaBytecode
