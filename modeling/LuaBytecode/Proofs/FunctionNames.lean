import Mathlib
import LuaBytecode.Proofs.Listed

/-!
The names of functions in a listing. Naming the functions of a chunk gives each the spelling of the path that
leads to it. Different paths are spelled differently, so a name stands for one function. The heading of a
function ends with its name, and the comment at a closure is the name of the function that it makes.
-/

namespace LuaBytecode

theorem Prototype.at?_append (root : Prototype) (path more : List Nat) :
    root.at? (path ++ more) = (root.at? path).bind fun f => f.at? more := by
  induction path generalizing root with
  | nil => rfl
  | cons i path ih =>
    rw [List.cons_append, at?, at?, Option.bind_assoc]
    simp only [ih]

theorem utf8_join (texts : List String) : utf8 (String.join texts) = texts.flatMap utf8 := by
  induction texts with
  | nil => rfl
  | cons text texts ih =>
    rw [List.flatMap_cons, ← ih, ← utf8_append, String.join_cons]

namespace Listing

namespace Names

theorem getD_grown (inside : Array Names) (i j : Nat)
    : (inside ++ Array.replicate (i + 1 - inside.size) empty).getD j empty = inside.getD j empty := by
  -- An entry that is made is empty, as is one behind the end.
  simp only [Array.getD_eq_getD_getElem?, Array.getElem?_append, Array.getElem?_replicate]
  split
  . rfl
  . next h =>
    rw [Array.getElem?_eq_none (Nat.not_lt.mp h)]
    split <;> rfl

theorem getD_modify_grown (f : Names → Names) (inside : Array Names) (i j : Nat)
    : ((inside ++ Array.replicate (i + 1 - inside.size) empty).modify i f).getD j empty
        =
      if j = i then f (inside.getD j empty) else inside.getD j empty := by
  rw [← getD_grown inside i j, Array.getD_eq_getD_getElem?, Array.getD_eq_getD_getElem?,
    Array.getElem?_modify]
  by_cases hj : i = j
  . have hsize : j < (inside ++ Array.replicate (i + 1 - inside.size) empty).size := by
      rw [Array.size_append, Array.size_replicate]
      omega
    rw [if_pos hj, if_pos hj.symm, Array.getElem?_eq_getElem hsize]
    rfl
  . rw [if_neg hj, if_neg (Ne.symm hj)]

theorem get_set (name : Bytes) (path path' : List Nat) (names : Names)
    : (names.set name path).get path' = if path' = path then name else names.get path' := by
  induction path generalizing names path' with
  | nil =>
    cases names
    cases path' <;> rfl
  | cons i path ih =>
    obtain ⟨own, inside⟩ := names
    cases path' with
    | nil => rfl
    | cons j path' =>
      rw [set, get, get, getD_modify_grown]
      by_cases hj : j = i
      . rw [if_pos hj, ih]
        simp [hj]
      . rw [if_neg hj, if_neg (by simp [hj])]

end Names

def bracketed (path : List Nat) : Bytes :=
  path.flatMap fun i => utf8 "[" ++ Bytes.digits 10 i ++ utf8 "]"

theorem bracketed_cons (i : Nat) (path : List Nat)
    : bracketed (i :: path)
        =
      Bytes.ofChar '[' :: (Bytes.digits 10 i ++ Bytes.ofChar ']' :: bracketed path) := by
  rw [bracketed, List.flatMap_cons, List.append_assoc, List.append_assoc]
  rfl

theorem bracket_notMem_digits (n : Nat) : Bytes.ofChar ']' ∉ Bytes.digits 10 n := by
  intro hmem
  exact absurd (Bytes.mem_digits_ten hmem).2 (by decide)

theorem bracketed_inj {path path' : List Nat} (h : bracketed path = bracketed path') : path = path' := by
  induction path generalizing path' with
  | nil =>
    cases path' with
    | nil => rfl
    | cons i path' =>
      rw [bracketed_cons] at h
      cases h
  | cons i path ih =>
    cases path' with
    | nil =>
      rw [bracketed_cons] at h
      cases h
    | cons i' path' =>
      -- The first closing bracket ends the digits of the first index.
      rw [bracketed_cons, bracketed_cons, List.cons.injEq] at h
      have hcut := congrArg (Bytes.cut (Bytes.ofChar ']')) h.2
      rw [Bytes.cut_append_cons _ (bracket_notMem_digits i), Bytes.cut_append_cons _
        (bracket_notMem_digits i'), Prod.mk.injEq, Option.some.injEq] at hcut
      rw [Bytes.digits_inj (by decide) (by decide) hcut.1, ih hcut.2]

def functionName (rootIsMain : Bool) : List Nat → Bytes
  | [] => utf8 (if rootIsMain then "main" else "top")
  | path => utf8 "F" ++ bracketed path

theorem functionName_cons (rootIsMain : Bool) (i : Nat) (path : List Nat) :
    functionName rootIsMain (i :: path) = Bytes.ofChar 'F' :: bracketed (i :: path) :=
  rfl

theorem functionName_inj {rootIsMain : Bool} {path path' : List Nat}
    (h : functionName rootIsMain path = functionName rootIsMain path') : path = path' := by
  have hroot : ∀ i path, functionName rootIsMain [] ≠ functionName rootIsMain (i :: path) := by
    intro i path h
    have hfirst := congrArg List.head? h
    cases rootIsMain <;> cases hfirst
  cases path with
  | nil =>
    cases path' with
    | nil => rfl
    | cons i' path' => exact absurd h (hroot i' path')
  | cons i path =>
    cases path' with
    | nil => exact absurd h.symm (hroot i path)
    | cons i' path' =>
      rw [functionName_cons, functionName_cons, List.cons.injEq] at h
      exact bracketed_inj h.2

theorem functionName_eq_utf8 (rootIsMain : Bool) (i : Nat) (path : List Nat)
    : functionName rootIsMain (i :: path)
        =
      utf8 ("F" ++ String.join ((i :: path).map fun j => "[" ++ toString j ++ "]")) := by
  rw [functionName_cons, bracketed, utf8_append, utf8_join, List.flatMap_map]
  simp only [utf8_append, Bytes.utf8_toString]
  rfl

theorem space_notMem_functionName (rootIsMain : Bool) (path : List Nat) :
    Bytes.ofChar ' ' ∉ functionName rootIsMain path := by
  cases path with
  | nil => cases rootIsMain <;> decide
  | cons i path =>
    rw [functionName_cons, List.mem_cons, not_or]
    refine ⟨by decide, ?_⟩
    rw [bracketed, List.mem_flatMap]
    rintro ⟨j, _, hmem⟩
    simp only [List.mem_append] at hmem
    obtain (hopen | hdigit) | hclose := hmem
    . revert hopen
      decide
    . exact absurd (Bytes.mem_digits_ten hdigit).1 (by decide)
    . revert hclose
      decide

/--
What the naming of a function at `path` does: names elsewhere stay, and those of the functions inside it
continue the name that the function had before, if it had one.
-/
structure Named (path : List Nat) (f : Prototype) (names : Names) : Prop where
  elsewhere : ∀ other, ¬path <+: other → (nameFunction path f names).get other = names.get other
  inside : ∀ more g, f.at? more = some g → (nameFunction path f names).get (path ++ more)
    = if names.get path = [] then functionName f.isMain more else names.get path ++ bracketed more

theorem nameFunction_eq (path : List Nat) (f : Prototype) (names : Names)
    : nameFunction path f names
        =
      if names.get path = [] then
        nameFunctions path (utf8 "F") 0 f.functions
          (names.set (utf8 (if f.isMain then "main" else "top")) path)
      else
        nameFunctions path (names.get path) 0 f.functions names := by
  cases f
  rw [nameFunction]

section

variable {functions : List Prototype} (h : ∀ g ∈ functions, ∀ path names, Named path g names)
include h

theorem get_nameFunctions_elsewhere (path : List Nat) (stem : Bytes) (i : Nat) (names : Names)
    {other : List Nat} (hother : ∀ j, i ≤ j → ¬path ++ [j] <+: other)
    : (nameFunctions path stem i functions names).get other = names.get other := by
  induction functions generalizing i names with
  | nil => rw [nameFunctions]
  | cons g rest ih =>
    rw [List.forall_mem_cons] at h
    have hne : other ≠ path ++ [i] := by
      rintro rfl
      exact hother i (Nat.le_refl i) (List.prefix_refl _)
    rw [nameFunctions, ih h.2 (i + 1) _ fun j hj => hother j (by omega),
      (h.1 _ _).elsewhere _ (hother i (Nat.le_refl i)), Names.get_set, if_neg hne]

theorem get_nameFunctions (path : List Nat) (stem : Bytes) (i : Nat) (names : Names) {j : Nat}
    {g k : Prototype} {more : List Nat} (hg : functions[j]? = some g) (hk : g.at? more = some k)
    : (nameFunctions path stem i functions names).get (path ++ (i + j) :: more)
        =
      stem ++ bracketed ((i + j) :: more) := by
  induction functions generalizing i j names with
  | nil => cases hg
  | cons f rest ih =>
    rw [List.forall_mem_cons] at h
    rw [nameFunctions]
    cases j with
    | zero =>
      obtain rfl : f = g := Option.some.inj hg
      -- The functions behind this one have greater indices, so they leave the names inside it.
      have hother : ∀ j, i + 1 ≤ j → ¬path ++ [j] <+: path ++ i :: more := by
        intro j hj
        rw [List.prefix_append_right_inj, List.cons_prefix_cons]
        omega
      rw [Nat.add_zero i, get_nameFunctions_elsewhere h.2 _ _ _ _ hother, List.append_cons path i more,
        (h.1 _ _).inside more k hk, Names.get_set, if_pos rfl, if_neg (by simp [utf8]), bracketed,
        bracketed, List.flatMap_cons]
      simp only [List.append_assoc]
    | succ j =>
      rw [Nat.add_comm j 1, ← Nat.add_assoc]
      exact ih h.2 (i + 1) _ hg

end

theorem named (path : List Nat) (f : Prototype) (names : Names) : Named path f names := by
  induction f using Prototype.inside_induction generalizing path names with
  | step f ih =>
    -- Paths of functions inside `f` continue `path`, so they are neither `path` nor anywhere else.
    have hself : ∀ j, 0 ≤ j → ¬path ++ [j] <+: path := by
      intro j _ hprefix
      have hlength := hprefix.length_le
      simp at hlength
    constructor
    . intro other hother
      have hinside : ∀ j, 0 ≤ j → ¬path ++ [j] <+: other := by
        intro j _ hprefix
        exact hother ((List.prefix_append path [j]).trans hprefix)
      have hne : other ≠ path := by
        rintro rfl
        exact hother (List.prefix_refl _)
      rw [nameFunction_eq]
      split
      . rw [get_nameFunctions_elsewhere ih _ _ _ _ hinside, Names.get_set, if_neg hne]
      . rw [get_nameFunctions_elsewhere ih _ _ _ _ hinside]
    . intro more k hk
      rw [nameFunction_eq]
      cases more with
      | nil =>
        rw [List.append_nil]
        split
        . rw [get_nameFunctions_elsewhere ih _ _ _ _ hself, Names.get_set, if_pos rfl]
          rfl
        . rw [get_nameFunctions_elsewhere ih _ _ _ _ hself]
          exact (List.append_nil _).symm
      | cons j more =>
        obtain ⟨g, hg, hk⟩ := Option.bind_eq_some_iff.mp hk
        have hname := fun stem names => get_nameFunctions ih path stem 0 names hg hk
        simp only [Nat.zero_add] at hname
        split
        . exact hname _ _
        . exact hname _ _

theorem get_ofRoot {root f : Prototype} {path : List Nat} (h : root.at? path = some f) :
    (Names.ofRoot root).get path = functionName root.isMain path :=
  (named [] root .empty).inside path f h

/--
The name in a heading: the last word before the closing parenthesis.
-/
def headedName (line : Bytes) : Bytes :=
  ((line.reverse.drop 2).takeWhile (· != Bytes.ofChar ' ')).reverse

theorem headedName_headingLine (f : Prototype) (origin : ChunkName) {name : Bytes}
    (h : Bytes.ofChar ' ' ∉ name) : headedName (headingLine f origin name) = name := by
  have hname : ∀ b ∈ name.reverse, (b != Bytes.ofChar ' ') = true := by
    intro b hb
    rw [bne_iff_ne]
    rintro rfl
    exact h (List.mem_reverse.mp hb)
  have hend : ∀ start : Bytes, headedName (start ++ utf8 " for " ++ name ++ utf8 ")\n") = name := by
    intro start
    have hspace : utf8 " for " = utf8 " for" ++ [Bytes.ofChar ' '] := rfl
    have hclose : utf8 ")\n" = [Bytes.ofChar ')', Bytes.ofChar '\n'] := rfl
    rw [headedName, hspace, hclose]
    simp only [List.reverse_append, List.reverse_cons, List.reverse_nil, List.nil_append,
      List.cons_append, List.drop_succ_cons, List.drop_zero]
    rw [List.takeWhile_append_of_pos hname, List.takeWhile_cons_of_neg (by simp), List.append_nil,
      List.reverse_reverse]
  rw [headingLine, headingText, List.append_assoc _ (utf8 ")") (utf8 "\n"), ← utf8_append]
  exact hend _

def headingAt (c : Chunk) (visit : List Nat × Prototype) : Bytes :=
  headingLine visit.2 (c.main.nameAt ChunkName.unknown visit.1) ((Names.ofRoot c.main).get visit.1)

theorem filter_isHeading_block (opts : Options) (names : Names) (f : Prototype) (origin : ChunkName)
    (path : List Nat)
    : (block opts names f origin path).filter isHeading = [headingLine f origin (names.get path)] := by
  have hcount := countP_block opts names f origin path
  simp only [block, List.cons_append] at hcount ⊢
  rw [List.countP_cons_of_pos (isHeading_headingLine ..), Nat.add_eq_right, List.countP_eq_length_filter,
    List.length_eq_zero_iff] at hcount
  rw [List.filter_cons_of_pos (isHeading_headingLine ..), hcount]

theorem headedName_headingAt {c : Chunk} {path : List Nat} {f : Prototype} (h : c.main.at? path = some f) :
    headedName (headingAt c (path, f)) = (Names.ofRoot c.main).get path := by
  apply headedName_headingLine
  rw [get_ofRoot h]
  exact space_notMem_functionName _ _

theorem nodup_names (root : Prototype) :
    (root.visits.map fun visit => (Names.ofRoot root).get visit.1).Nodup := by
  rw [List.Nodup, List.pairwise_map]
  apply root.pairwise_visits.imp_of_mem
  intro v w hv hw hlt hname
  rw [get_ofRoot (Prototype.mem_visits_iff.mp hv), get_ofRoot (Prototype.mem_visits_iff.mp hw)] at hname
  rw [functionName_inj hname] at hlt
  exact List.lt_irrefl _ hlt

theorem comment_closure (opts : Options) (names : Names) (f : Prototype) (path : List Nat) (pc : Nat)
    (ra : UInt8) (bx : Nat)
    : comment opts names f path pc ⟨.closure, .abx ra bx⟩
        =
      if bx < f.functions.length then names.get (path ++ [bx]) else [] := by
  change Bytes.join (utf8 " ")
    ((if bx < f.functions.length then [.function bx] else []).map (Remark.text opts names f path)) = _
  split
  . simp [Remark.text, Bytes.join]
  . rfl

theorem headings_write (opts : Options) (c : Chunk)
    : ∃ sink,
        write opts c {} = .ok () sink
          ∧ sink.calls.filter isHeading = c.main.visits.map (headingAt c) := by
  rw [write_eq_writeAll, WriteM.writeAll_of_open _ {} rfl]
  refine ⟨_, rfl, ?_⟩
  simp only [Sink.calls, List.reverse_reverse, List.reverse_nil, List.append_nil,
    List.filter_flatMap, filter_isHeading_block, List.map_eq_flatMap, headingAt]

/--
In a listing each function has a name of its own, with which its heading ends and which spells the path to
the function. The comment at a closure is the name in the heading of the function that it makes.
-/
theorem functions_named_by_path (opts : Options) (c : Chunk)
    : (∃ sink,
        write opts c {} = .ok () sink
          ∧ sink.calls.filter isHeading = c.main.visits.map (headingAt c))
      ∧ (∀ path f, c.main.at? path = some f →
          (path, f) ∈ c.main.visits
            ∧ headedName (headingAt c (path, f)) = (Names.ofRoot c.main).get path)
      ∧ (Names.ofRoot c.main).get [] = utf8 (if c.main.lineDefined = 0 then "main" else "top")
      ∧ (∀ i path f, c.main.at? (i :: path) = some f →
          (Names.ofRoot c.main).get (i :: path)
            = utf8 ("F" ++ String.join ((i :: path).map fun j => "[" ++ toString j ++ "]")))
      ∧ (c.main.visits.map fun visit => headedName (headingAt c visit)).Nodup
      ∧ ∀ path f pc ra bx, c.main.at? path = some f → f.code[pc]? = some ⟨.closure, .abx ra bx⟩ →
          (∀ g, f.functions[bx]? = some g →
            (path ++ [bx], g) ∈ c.main.visits
              ∧ comment opts (.ofRoot c.main) f path pc ⟨.closure, .abx ra bx⟩
                = headedName (headingAt c (path ++ [bx], g)))
          ∧ (f.functions[bx]? = none →
              comment opts (.ofRoot c.main) f path pc ⟨.closure, .abx ra bx⟩ = []) := by
  refine ⟨headings_write opts c, ?_, ?_, ?_, ?_, ?_⟩
  . intro path f hat
    exact ⟨Prototype.mem_visits_iff.mpr hat, headedName_headingAt hat⟩
  . rw [get_ofRoot (f := c.main) rfl]
    simp [functionName, Prototype.isMain]
  . intro i path f hat
    rw [get_ofRoot hat, functionName_eq_utf8]
  . have hnames : ∀ visit ∈ c.main.visits,
        headedName (headingAt c visit) = (Names.ofRoot c.main).get visit.1 :=
      fun visit hvisit => headedName_headingAt (Prototype.mem_visits_iff.mp hvisit)
    rw [List.map_congr_left hnames]
    exact nodup_names c.main
  . intro path f pc ra bx hat _
    constructor
    . intro g hg
      have hmade : c.main.at? (path ++ [bx]) = some g := by
        rw [Prototype.at?_append, hat]
        simp [Prototype.at?, hg]
      refine ⟨Prototype.mem_visits_iff.mpr hmade, ?_⟩
      rw [headedName_headingAt hmade, comment_closure, if_pos (List.getElem?_eq_some_iff.mp hg).1]
    . intro hnone
      rw [comment_closure, if_neg (Nat.not_lt.mpr (List.getElem?_eq_none_iff.mp hnone))]

def sampleMade : Prototype where
  lineDefined := 1
  lastLineDefined := 1

def sampleClosures : Chunk where
  header := {
    version := .lua54, format := 0, instructionSize := 4, integerSize := .eight, numberSize := .eight,
    byteOrder := .little, integerSample := 0x5678, numberSample := Header.numberSampleValue }
  upvalueCount := 0
  main := { code := [⟨.closure, .abx 0 0⟩, ⟨.closure, .abx 1 1⟩], functions := [sampleMade] }
  trailingBytes := 0

theorem functions_named_by_path_closures
    : ([0], sampleMade) ∈ sampleClosures.main.visits
      ∧ comment {} (.ofRoot sampleClosures.main) sampleClosures.main [] 0 ⟨.closure, .abx 0 0⟩
        = headedName (headingAt sampleClosures ([0], sampleMade))
      ∧ comment {} (.ofRoot sampleClosures.main) sampleClosures.main [] 1 ⟨.closure, .abx 1 1⟩ = [] := by
  obtain ⟨_, _, _, _, _, hclosure⟩ := functions_named_by_path {} sampleClosures
  have hmade := (hclosure [] _ 0 0 0 rfl rfl).1 sampleMade rfl
  have hmissing := (hclosure [] _ 1 1 1 rfl rfl).2 rfl
  exact ⟨hmade.1, hmade.2, hmissing⟩

end Listing

end LuaBytecode
