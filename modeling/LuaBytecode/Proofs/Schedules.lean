import Mathlib
import LuaBytecode.Command.Batch

/-!
Files that are read and decoded side by side. On every schedule each of them comes to the result that it
has by itself, and standard input is read at most once.
-/

namespace LuaBytecode.Command

section

variable (files : Files) (stdin : Except String Bytes) (limits : Limits)

def Batch.content (name : Bytes) : Except InputProblem Bytes :=
  if name = standardInputName then stdin.mapError .standardInput else (files name).mapError (.file name)

def Batch.outcome (name : Bytes) : Except InputProblem Decoded :=
  (content files stdin name).bind (Decoded.ofContent limits)

def Task.Follows (name : Bytes) : Task → Prop
  | .waiting own => own = name
  | .loaded content => content = Batch.content files stdin name
  | .finished result => result = Batch.outcome files stdin limits name

end

def StandardInput.Gives (stdin : Except String Bytes) (input : StandardInput) : Prop :=
  input.seen = none ∧ input.stream = stdin ∧ input.readings = 0
    ∨ input.seen = some stdin ∧ input.readings = 1

theorem StandardInput.Gives.read {stdin : Except String Bytes} {input : StandardInput}
    (h : input.Gives stdin)
    : input.read.1 = stdin ∧ input.read.2.seen = some stdin ∧ input.read.2.readings = 1 := by
  unfold StandardInput.read
  obtain ⟨hseen, hstream, hreadings⟩ | ⟨hseen, hreadings⟩ := h
  . rw [hseen]
    simp [hstream, hreadings]
  . rw [hseen]
    simp [hseen, hreadings]

namespace Batch

variable {files : Files} {stdin : Except String Bytes} {limits : Limits} {names : List Bytes}

theorem load_standardInput (files : Files) {input : StandardInput} (h : input.Gives stdin)
    : (load files standardInputName input).1 = content files stdin standardInputName
        ∧ (load files standardInputName input).2.seen = some stdin
        ∧ (load files standardInputName input).2.readings = 1 := by
  obtain ⟨hcontent, hseen⟩ := h.read
  rw [load, content, if_pos rfl, if_pos rfl]
  dsimp only
  rw [hcontent]
  exact ⟨rfl, hseen⟩

theorem load_file (stdin : Except String Bytes) {name : Bytes} (h : name ≠ standardInputName)
    (input : StandardInput) :
    load files name input = (content files stdin name, input) := by
  rw [load, content, if_neg h, if_neg h]

theorem step_cases (files : Files) (limits : Limits) (batch : Batch) (i : Nat)
    : (∃ name, batch.tasks[i]? = some (.waiting name)
        ∧ batch.step files limits i
            = ⟨(load files name batch.input).2,
                batch.tasks.set i (.loaded (load files name batch.input).1)⟩)
      ∨ (∃ content, batch.tasks[i]? = some (.loaded content)
        ∧ batch.step files limits i
            = ⟨batch.input, batch.tasks.set i (.finished (content.bind (Decoded.ofContent limits)))⟩)
      ∨ (batch.tasks[i]? = none ∨ ∃ result, batch.tasks[i]? = some (.finished result))
        ∧ batch.step files limits i = batch := by
  unfold step
  cases batch.tasks[i]? with
  | none => exact .inr (.inr ⟨.inl rfl, rfl⟩)
  | some task =>
    cases task with
    | waiting name => exact .inl ⟨name, rfl, rfl⟩
    | loaded content => exact .inr (.inl ⟨content, rfl, rfl⟩)
    | finished result => exact .inr (.inr ⟨.inr ⟨result, rfl⟩, rfl⟩)

/--
What holds in every batch for the names, after any number of turns.
-/
structure Invariant (files : Files) (stdin : Except String Bytes) (limits : Limits) (names : List Bytes)
    (batch : Batch) : Prop where
  input : batch.input.Gives stdin
  length : batch.tasks.length = names.length
  follows : ∀ (i : Nat) (name : Bytes) (task : Task), names[i]? = some name
    → batch.tasks[i]? = some task → task.Follows files stdin limits name
  /-- As long as standard input was not read, no file has got anything from it. -/
  unread : batch.input.seen = none → ∀ i : Nat, names[i]? = some standardInputName
    → batch.tasks[i]? = some (.waiting standardInputName)
  /-- Nobody reads standard input without being asked to. -/
  asked : batch.input.seen ≠ none → standardInputName ∈ names

namespace Invariant

theorem start : Invariant files stdin limits names (start stdin names) where
  input := .inl ⟨rfl, rfl, rfl⟩
  length := List.length_map _
  follows := by
    intro i name task hname htask
    rw [Batch.start, List.getElem?_map, hname] at htask
    cases htask
    rfl
  unread := by
    intro _ i hname
    rw [Batch.start, List.getElem?_map, hname]
    rfl
  asked := by
    intro hseen
    exact absurd rfl hseen

variable {batch : Batch}

theorem exists_name (h : Invariant files stdin limits names batch) {i : Nat} {task : Task}
    (htask : batch.tasks[i]? = some task)
    : ∃ name, names[i]? = some name ∧ task.Follows files stdin limits name := by
  obtain ⟨hi, _⟩ := List.getElem?_eq_some_iff.mp htask
  have hname := List.getElem?_eq_getElem (h.length ▸ hi)
  exact ⟨_, hname, h.follows i _ task hname htask⟩

theorem set (h : Invariant files stdin limits names batch) {i : Nat} {name : Bytes} {task : Task}
    {input : StandardInput} (hname : names[i]? = some name) (htask : task.Follows files stdin limits name)
    (hinput : input.Gives stdin)
    (hunread : input.seen = none
      → batch.input.seen = none ∧ batch.tasks[i]? ≠ some (.waiting standardInputName))
    (hasked : input.seen ≠ none → standardInputName ∈ names)
    : Invariant files stdin limits names ⟨input, batch.tasks.set i task⟩ where
  input := hinput
  length := by rw [List.length_set, h.length]
  follows := by
    intro k other task' hother htask'
    rw [List.getElem?_set] at htask'
    split at htask'
    . next hk =>
      rw [← hk, hname] at hother
      cases hother
      split at htask'
      . cases htask'
        exact htask
      . cases htask'
    . exact h.follows k other task' hother htask'
  unread := by
    intro hnone k hk
    obtain ⟨hbefore, hi⟩ := hunread hnone
    have hwaiting := h.unread hbefore k hk
    have hne : i ≠ k := by
      rintro rfl
      exact hi hwaiting
    rw [List.getElem?_set_ne hne, hwaiting]
  asked := hasked

theorem step (h : Invariant files stdin limits names batch) (i : Nat) :
    Invariant files stdin limits names (batch.step files limits i) := by
  obtain ⟨name, hold, heq⟩ | ⟨content, hold, heq⟩ | ⟨_, heq⟩ := step_cases files limits batch i
  . obtain ⟨_, hname, rfl⟩ := h.exists_name hold
    rw [heq]
    by_cases hstdin : name = standardInputName
    . -- Whether or not it is the first to ask, the task gets what the stream held at the start.
      subst hstdin
      obtain ⟨hcontent, hseen, hreadings⟩ := load_standardInput files h.input
      refine h.set hname hcontent (.inr ⟨hseen, hreadings⟩) ?_ ?_
      . intro hnone
        rw [hseen] at hnone
        cases hnone
      . intro _
        exact List.mem_of_getElem? hname
    . rw [load_file stdin hstdin]
      refine h.set hname rfl h.input ?_ h.asked
      intro hnone
      rw [hold]
      exact ⟨hnone, by simpa using hstdin⟩
  . obtain ⟨name, hname, rfl⟩ := h.exists_name hold
    rw [heq]
    refine h.set hname rfl h.input ?_ h.asked
    intro hnone
    rw [hold]
    exact ⟨hnone, by simp⟩
  . rw [heq]
    exact h

theorem follow (h : Invariant files stdin limits names batch) (schedule : List Nat) :
    Invariant files stdin limits names (batch.follow files limits schedule) := by
  induction schedule generalizing batch with
  | nil => exact h
  | cons i schedule ih => exact ih (h.step i)

theorem readings_le (h : Invariant files stdin limits names batch) : batch.input.readings ≤ 1 := by
  obtain ⟨_, _, hreadings⟩ | ⟨_, hreadings⟩ := h.input
  . omega
  . omega

end Invariant

def Finished (batch : Batch) (i : Nat) : Prop :=
  ∃ result, batch.tasks[i]? = some (.finished result)

theorem length_step (files : Files) (limits : Limits) (batch : Batch) (i : Nat) :
    (batch.step files limits i).tasks.length = batch.tasks.length := by
  obtain ⟨_, _, heq⟩ | ⟨_, _, heq⟩ | ⟨_, heq⟩ := step_cases files limits batch i
  . rw [heq, List.length_set]
  . rw [heq, List.length_set]
  . rw [heq]

theorem follow_append (files : Files) (limits : Limits) (batch : Batch) (first second : List Nat)
    : batch.follow files limits (first ++ second)
        =
      (batch.follow files limits first).follow files limits second := by
  rw [follow, List.foldl_append]
  rfl

theorem length_follow (files : Files) (limits : Limits) (batch : Batch) (schedule : List Nat) :
    (batch.follow files limits schedule).tasks.length = batch.tasks.length := by
  induction schedule generalizing batch with
  | nil => rfl
  | cons i schedule ih =>
    have := ih (batch.step files limits i)
    rw [length_step] at this
    exact this

theorem Finished.step {batch : Batch} {k : Nat} (h : batch.Finished k) (i : Nat) :
    (batch.step files limits i).Finished k := by
  obtain ⟨result, hk⟩ := h
  refine ⟨result, ?_⟩
  have hne : ∀ {task : Task}, batch.tasks[i]? = some task → task ≠ .finished result → i ≠ k := by
    rintro task hi htask rfl
    rw [hk] at hi
    exact htask (Option.some.inj hi).symm
  obtain ⟨_, hi, heq⟩ | ⟨_, hi, heq⟩ | ⟨_, heq⟩ := step_cases files limits batch i
  . rw [heq, List.getElem?_set_ne (hne hi (by simp)), hk]
  . rw [heq, List.getElem?_set_ne (hne hi (by simp)), hk]
  . rw [heq, hk]

theorem Finished.follow {batch : Batch} {k : Nat} (h : batch.Finished k) (schedule : List Nat) :
    (batch.follow files limits schedule).Finished k := by
  induction schedule generalizing batch with
  | nil => exact h
  | cons i schedule ih => exact ih (h.step i)

theorem finished_step_of_loaded {batch : Batch} {k : Nat} {content : Except InputProblem Bytes}
    (h : batch.tasks[k]? = some (.loaded content)) : (batch.step files limits k).Finished k := by
  obtain ⟨hk, _⟩ := List.getElem?_eq_some_iff.mp h
  rw [Batch.step, h]
  exact ⟨_, List.getElem?_set_self hk⟩

theorem finished_step_step {batch : Batch} {k : Nat} (hk : k < batch.tasks.length) :
    ((batch.step files limits k).step files limits k).Finished k := by
  -- A task has at most two turns to go: one that loads the file, and one that decodes it.
  cases htask : batch.tasks[k] with
  | waiting name =>
    have hold : batch.tasks[k]? = some (.waiting name) := by rw [List.getElem?_eq_getElem hk, htask]
    have hloaded : (batch.step files limits k).tasks[k]?
        = some (.loaded (load files name batch.input).1) := by
      rw [Batch.step, hold]
      exact List.getElem?_set_self hk
    exact finished_step_of_loaded hloaded
  | loaded content =>
    have hold : batch.tasks[k]? = some (.loaded content) := by rw [List.getElem?_eq_getElem hk, htask]
    exact (finished_step_of_loaded hold).step k
  | finished result =>
    have hold : batch.Finished k := ⟨result, by rw [List.getElem?_eq_getElem hk, htask]⟩
    exact (hold.step k).step k

theorem finished_follow_inOrder (files : Files) (limits : Limits) (batch : Batch) {k : Nat}
    (hk : k < batch.tasks.length) : (batch.follow files limits batch.inOrder).Finished k := by
  suffices h : ∀ n, k < n → n ≤ batch.tasks.length
      → (batch.follow files limits ((List.range n).flatMap fun i => [i, i])).Finished k from
    h batch.tasks.length hk (Nat.le_refl _)
  intro n
  induction n with
  | zero => omega
  | succ n ih =>
    intro hlt hle
    rw [List.range_succ, List.flatMap_append, follow_append]
    -- The two turns of the task `n` come last, and take back nothing that is finished.
    by_cases hkn : k < n
    . exact (ih hkn (by omega)).follow _
    . obtain rfl : k = n := by omega
      apply finished_step_step
      rw [length_follow]
      omega

variable (files stdin limits names)

theorem invariant_complete (schedule : List Nat)
    : Invariant files stdin limits names
        ((Batch.start stdin names).complete files limits schedule) :=
  (Invariant.start.follow schedule).follow _

theorem finished_complete (schedule : List Nat) {i : Nat} (hi : i < names.length) :
    ((Batch.start stdin names).complete files limits schedule).Finished i := by
  apply finished_follow_inOrder
  rw [length_follow, Batch.start, List.length_map]
  exact hi

theorem tasks_complete (schedule : List Nat)
    : ((Batch.start stdin names).complete files limits schedule).tasks
        =
      names.map fun name => .finished (outcome files stdin limits name) := by
  have hinvariant := invariant_complete files stdin limits names schedule
  apply List.ext_getElem?
  intro i
  rw [List.getElem?_map]
  cases hname : names[i]? with
  | none =>
    rw [List.getElem?_eq_none_iff, ← hinvariant.length] at hname
    rw [List.getElem?_eq_none hname, Option.map_none]
  | some name =>
    obtain ⟨hi, _⟩ := List.getElem?_eq_some_iff.mp hname
    obtain ⟨result, htask⟩ := finished_complete files stdin limits names schedule hi
    have hresult : result = outcome files stdin limits name := hinvariant.follows i name _ hname htask
    rw [htask, hresult, Option.map_some]

theorem results_complete (schedule : List Nat)
    : ((Batch.start stdin names).complete files limits schedule).results
        =
      names.map (outcome files stdin limits) := by
  rw [results, tasks_complete, List.filterMap_map, ← List.filterMap_eq_map]
  rfl

theorem readings_complete (schedule : List Nat)
    : ((Batch.start stdin names).complete files limits schedule).input.readings
        =
      if standardInputName ∈ names then 1 else 0 := by
  have hinvariant := invariant_complete files stdin limits names schedule
  obtain ⟨hseen, _, hreadings⟩ | ⟨hseen, hreadings⟩ := hinvariant.input
  . -- A task for standard input would be finished, and would have read it.
    rw [hreadings, if_neg]
    intro hmem
    obtain ⟨i, hname⟩ := List.mem_iff_getElem?.mp hmem
    obtain ⟨hi, _⟩ := List.getElem?_eq_some_iff.mp hname
    obtain ⟨result, htask⟩ := finished_complete files stdin limits names schedule hi
    rw [hinvariant.unread hseen i hname] at htask
    cases htask
  . rw [hreadings, if_pos]
    apply hinvariant.asked
    rw [hseen]
    exact Option.some_ne_none stdin

end Batch

end LuaBytecode.Command
