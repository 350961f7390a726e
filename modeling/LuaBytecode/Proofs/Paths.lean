import Mathlib
import LuaBytecode.Proofs.WellFormed

/-!
The functions of a chunk by the paths that lead to them. A path is the list of the indices at which one
goes into a function; `visits` lists all functions with their paths in the order of `preorder`.
-/

namespace LuaBytecode
namespace Prototype

mutual

@[elab_as_elim]
theorem inside_induction {P : Prototype → Prop} (step : ∀ f, (∀ g ∈ f.functions, P g) → P f)
    (f : Prototype) : P f := by
  cases f with
  | mk name lineDefined lastLineDefined numParams vararg maxStackSize code constants upvalues functions
      debug =>
    apply step
    exact inside_induction_all step functions

theorem inside_induction_all {P : Prototype → Prop} (step : ∀ f, (∀ g ∈ f.functions, P g) → P f)
    (functions : List Prototype) : ∀ f ∈ functions, P f := by
  cases functions with
  | nil => simp
  | cons f rest =>
    rw [List.forall_mem_cons]
    exact ⟨inside_induction step f, inside_induction_all step rest⟩

end

def at? (f : Prototype) : List Nat → Option Prototype
  | [] => some f
  | i :: path => f.functions[i]?.bind fun g => g.at? path

mutual

def visits : Prototype → List (List Nat × Prototype)
  | f@{ functions, .. } => ([], f) :: visitsFrom 0 functions

def visitsFrom (i : Nat) : List Prototype → List (List Nat × Prototype)
  | [] => []
  | f :: rest => f.visits.map (Prod.map (i :: ·) id) ++ visitsFrom (i + 1) rest

end

theorem visits_eq (f : Prototype) : f.visits = ([], f) :: visitsFrom 0 f.functions := by
  cases f
  rw [visits]

theorem flatMap_visitsFrom (i : Nat) (functions : List Prototype) (lines : List Nat × Prototype → List α)
    : (visitsFrom i functions).flatMap lines
        =
      (functions.zipIdx i).flatMap fun v => v.1.visits.flatMap fun w => lines (v.2 :: w.1, w.2) := by
  induction functions generalizing i with
  | nil => rfl
  | cons f rest ih =>
    rw [visitsFrom, List.flatMap_append, ih, List.zipIdx_cons, List.flatMap_cons, List.flatMap_map]
    rfl

theorem mem_visitsFrom_iff {i : Nat} {functions : List Prototype} {path : List Nat} {f : Prototype}
    : (path, f) ∈ visitsFrom i functions
        ↔
      ∃ j rest g, path = (i + j) :: rest ∧ functions[j]? = some g ∧ (rest, f) ∈ g.visits := by
  induction functions generalizing i with
  | nil => simp [visitsFrom]
  | cons g functions ih =>
    rw [visitsFrom, List.mem_append, ih]
    constructor
    . intro h
      cases h with
      | inl hfirst =>
        obtain ⟨⟨rest, f'⟩, hmem, heq⟩ := List.mem_map.mp hfirst
        cases heq
        exact ⟨0, rest, g, rfl, rfl, hmem⟩
      | inr hrest =>
        obtain ⟨j, rest, g', rfl, hg', hmem⟩ := hrest
        refine ⟨j + 1, rest, g', ?_, hg', hmem⟩
        rw [Nat.add_right_comm, Nat.add_assoc]
    . rintro ⟨j, rest, g', rfl, hg', hmem⟩
      cases j with
      | zero =>
        cases hg'
        exact .inl (List.mem_map.mpr ⟨(rest, f), hmem, rfl⟩)
      | succ j =>
        refine .inr ⟨j, rest, g', ?_, hg', hmem⟩
        rw [Nat.add_right_comm, Nat.add_assoc]

theorem mem_visits_iff {root f : Prototype} {path : List Nat} :
    (path, f) ∈ root.visits ↔ root.at? path = some f := by
  induction root using inside_induction generalizing path with
  | step root ih =>
    rw [visits_eq, List.mem_cons, mem_visitsFrom_iff]
    cases path with
    | nil => simp [at?, eq_comm]
    | cons i path =>
      simp only [Prod.mk.injEq, reduceCtorEq, false_and, false_or, List.cons.injEq, Nat.zero_add, at?,
        Option.bind_eq_some_iff]
      constructor
      . rintro ⟨_, _, g, ⟨rfl, rfl⟩, hg, hmem⟩
        exact ⟨g, hg, (ih g (List.mem_of_getElem? hg)).mp hmem⟩
      . rintro ⟨g, hg, hat⟩
        exact ⟨i, path, g, ⟨rfl, rfl⟩, hg, (ih g (List.mem_of_getElem? hg)).mpr hat⟩

mutual

theorem map_snd_visits (f : Prototype) : f.visits.map Prod.snd = f.preorder := by
  cases f
  rw [visits, preorder, List.map_cons, map_snd_visitsFrom]

theorem map_snd_visitsFrom (i : Nat) (functions : List Prototype) :
    (visitsFrom i functions).map Prod.snd = preorderAll functions := by
  cases functions with
  | nil => rfl
  | cons f rest =>
    rw [visitsFrom, preorderAll, List.map_append, map_snd_visitsFrom, ← map_snd_visits f]
    simp

end

mutual

theorem length_visits (f : Prototype) : f.visits.length = f.count := by
  cases f
  rw [visits, count, List.length_cons, length_visitsFrom, Nat.add_comm]

theorem length_visitsFrom (i : Nat) (functions : List Prototype) :
    (visitsFrom i functions).length = countAll functions := by
  cases functions with
  | nil => rfl
  | cons f rest =>
    rw [visitsFrom, countAll, List.length_append, List.length_map, length_visits, length_visitsFrom]

end

theorem exists_cons_of_mem_visitsFrom {i : Nat} {functions : List Prototype}
    {visit : List Nat × Prototype} (h : visit ∈ visitsFrom i functions) :
    ∃ j rest, i ≤ j ∧ visit.1 = j :: rest := by
  obtain ⟨j, rest, g, hpath, _⟩ := mem_visitsFrom_iff.mp h
  exact ⟨i + j, rest, Nat.le_add_right i j, hpath⟩

mutual

theorem pairwise_visits (f : Prototype) : f.visits.Pairwise fun v w => v.1 < w.1 := by
  cases f
  rw [visits, List.pairwise_cons]
  refine ⟨?_, pairwise_visitsFrom _ _⟩
  intro w hw
  obtain ⟨j, path, _, hpath⟩ := exists_cons_of_mem_visitsFrom hw
  rw [hpath]
  exact List.nil_lt_cons j path

theorem pairwise_visitsFrom (i : Nat) (functions : List Prototype) :
    (visitsFrom i functions).Pairwise fun v w => v.1 < w.1 := by
  cases functions with
  | nil => exact .nil
  | cons f rest =>
    rw [visitsFrom, List.pairwise_append, List.pairwise_map]
    refine ⟨?_, pairwise_visitsFrom _ _, ?_⟩
    . apply (pairwise_visits f).imp
      intro v w hlt
      exact List.cons_lt_cons_iff.mpr (.inr ⟨rfl, hlt⟩)
    . intro v hv w hw
      obtain ⟨v', _, rfl⟩ := List.mem_map.mp hv
      obtain ⟨j, path, hj, hpath⟩ := exists_cons_of_mem_visitsFrom hw
      rw [hpath]
      exact List.cons_lt_cons_iff.mpr (.inl hj)

end

/--
The name of the nearest function that has one, on the way up from the function at the end of a path;
`outer` if there is none.
-/
def nameAt (root : Prototype) (outer : ChunkName) (path : List Nat) : ChunkName :=
  (path.inits.reverse.findSome? fun stop => (root.at? stop).bind Prototype.name).getD outer

theorem nameAt_nil (root : Prototype) (outer : ChunkName) :
    root.nameAt outer [] = root.name.getD outer := by
  cases hname : root.name <;> simp [nameAt, at?, hname]

theorem nameAt_cons {root g : Prototype} {i : Nat} (outer : ChunkName) (path : List Nat)
    (h : root.functions[i]? = some g)
    : root.nameAt outer (i :: path) = g.nameAt (root.name.getD outer) path := by
  have hstops : ∀ stops : List (List Nat),
      (stops.map (i :: ·)).findSome? (fun stop => (root.at? stop).bind Prototype.name)
        = stops.findSome? fun stop => (g.at? stop).bind Prototype.name := by
    intro stops
    rw [List.findSome?_map]
    simp [Function.comp_def, at?, h]
  rw [nameAt, nameAt, List.inits_cons, List.reverse_cons, List.findSome?_append, ← List.map_reverse,
    hstops]
  -- The root is the last stop.
  cases path.inits.reverse.findSome? fun stop => (g.at? stop).bind Prototype.name with
  | some name => rfl
  | none => cases hname : root.name <;> simp [at?, hname]

end Prototype
end LuaBytecode
