import Mathlib
import LuaBytecode.Proofs.Numerals
import LuaBytecode.Proofs.Paths
import LuaBytecode.Proofs.Printed

/-!
What a listing writes. Its writes are those of one list of lines, which goes through the functions of a
chunk in preorder. So an output that stops taking them has the first lines of that list, and the line that
it refuses is the last that it is offered.
-/

namespace LuaBytecode

/--
The writes to an output in order, those that were refused included.
-/
def Sink.calls (sink : Sink) : List Bytes :=
  sink.kept.reverse ++ sink.refused.reverse

def Sink.offered (sink : Sink) (n : Nat) (pieces : List Bytes) : Sink where
  left := some (n - pieces.length)
  kept := (pieces.take n).reverse ++ sink.kept
  refused := pieces[n]?.toList ++ sink.refused

namespace WriteM

theorem writeAll_cons_apply (piece : Bytes) (pieces : List Bytes) (sink : Sink)
    : writeAll (piece :: pieces) sink
        =
      match write piece sink with
      | .ok _ sink => writeAll pieces sink
      | .error e sink => .error e sink := by
  rw [writeAll]
  simp only [bind, EStateM.bind]
  cases write piece sink <;> rfl

theorem writeAll_of_open (pieces : List Bytes) (sink : Sink) (h : sink.left = none) :
    writeAll pieces sink = .ok () { sink with kept := pieces.reverse ++ sink.kept } := by
  induction pieces generalizing sink with
  | nil => rfl
  | cons piece pieces ih =>
    have hwrite : write piece sink = .ok () { sink with kept := piece :: sink.kept } := by
      rw [write, h]
    rw [writeAll_cons_apply, hwrite]
    dsimp only
    rw [ih { sink with kept := piece :: sink.kept } h, List.reverse_cons, List.append_assoc]
    rfl

theorem writeAll_of_left (pieces : List Bytes) (sink : Sink) {n : Nat} (h : sink.left = some n)
    : writeAll pieces sink
        =
      if n < pieces.length then .error .refused (sink.offered n pieces)
      else .ok () (sink.offered n pieces) := by
  induction pieces generalizing sink n with
  | nil => simp [writeAll, pure, EStateM.pure, Sink.offered, ← h]
  | cons piece pieces ih =>
    rw [writeAll_cons_apply]
    cases n with
    | zero =>
      have hwrite : write piece sink = .error .refused { sink with refused := piece :: sink.refused } := by
        rw [write, h]
      simp [hwrite, h, Sink.offered]
    | succ n =>
      have hwrite : write piece sink
          = .ok () { sink with left := some n, kept := piece :: sink.kept } := by
        rw [write, h]
      rw [hwrite]
      dsimp only
      rw [ih _ rfl]
      simp [Sink.offered]

end WriteM

open WriteM PrintM

namespace Listing

def functionLines (opts : Options) (names : Names) (path : List Nat) (outer : ChunkName)
    (f : Prototype) : List Bytes :=
  f.visits.flatMap fun v => block opts names v.2 (f.nameAt outer v.1) (path ++ v.1)

section

variable (opts : Options) (names : Names)

theorem functionLines_eq (path : List Nat) (outer : ChunkName) (f : Prototype)
    : functionLines opts names path outer f
        =
      block opts names f (f.name.getD outer) path
        ++ f.functions.zipIdx.flatMap fun v =>
            functionLines opts names (path ++ [v.2]) (f.name.getD outer) v.1 := by
  have hinside : ∀ v ∈ f.functions.zipIdx,
      (v.1.visits.flatMap fun w =>
        block opts names w.2 (f.nameAt outer (v.2 :: w.1)) (path ++ v.2 :: w.1))
        = functionLines opts names (path ++ [v.2]) (f.name.getD outer) v.1 := by
    intro v hv
    have hindex := List.mem_zipIdx_iff_getElem?.mp hv
    rw [functionLines]
    apply List.flatMap_congr
    intro w _
    rw [Prototype.nameAt_cons outer w.1 hindex, List.append_cons]
  rw [functionLines, Prototype.visits_eq, List.flatMap_cons, Prototype.flatMap_visitsFrom,
    List.flatMap_congr hinside, Prototype.nameAt_nil, List.append_nil]

theorem printFunctions_prints {functions : List Prototype} (path : List Nat) (outer : ChunkName)
    (h : ∀ g ∈ functions, ∀ path outer,
      Prints [] (printFunction opts names path outer g) (functionLines opts names path outer g))
    (i : Nat)
    : Prints [] (printFunctions opts names path outer i functions)
        ((functions.zipIdx i).flatMap fun v =>
          functionLines opts names (path ++ [v.2]) outer v.1) := by
  induction functions generalizing i with
  | nil => exact .pure
  | cons g rest ih =>
    rw [List.forall_mem_cons] at h
    rw [printFunctions, List.zipIdx_cons, List.flatMap_cons]
    exact .bind (h.1 _ _) (ih h.2 (i + 1))

theorem printFunction_prints (path : List Nat) (outer : ChunkName) (f : Prototype)
    : Prints [] (printFunction opts names path outer f) (functionLines opts names path outer f) := by
  induction f using Prototype.inside_induction generalizing path outer with
  | step f ih =>
    have hinside := printFunctions_prints opts names path (f.name.getD outer) ih 0
    have hcode := Prints.printEach (printInstruction_prints opts names path f) 0 f.code
    simp only [Nat.zero_add] at hcode
    rw [functionLines_eq, block]
    simp only [List.cons_append, List.append_assoc]
    cases f
    rw [printFunction]
    apply Prints.bind (.printLine _)
    apply Prints.bind (.printLine _)
    apply Prints.bind hcode
    dsimp only
    split
    . exact .bind (printTables_prints ..) hinside
    . exact hinside

end

theorem write_eq_writeAll (opts : Options) (c : Chunk)
    : write opts c
        =
      writeAll (c.main.visits.flatMap fun v =>
        block opts (.ofRoot c.main) v.2 (c.main.nameAt ChunkName.unknown v.1) v.1) := by
  rw [write, (printFunction_prints ..).run_eq, functionLines]
  simp only [List.nil_append]

/--
An output that takes `n` writes and no more is offered one line more than it takes, and no others. It keeps
the lines that an output without bounds keeps first.
-/
theorem write_stops_at_refusal (opts : Options) (c : Chunk) (n : Nat)
    : ∃ (calls : List Bytes) (unbounded bounded : Sink),
        write opts c {} = .ok () unbounded
          ∧ unbounded.calls = calls
          ∧ unbounded.text = calls.flatten
          ∧ write opts c { left := some n }
              = (if n < calls.length then .error .refused bounded else .ok () bounded)
          ∧ bounded.calls = calls.take (n + 1)
          ∧ bounded.text = (calls.take n).flatten := by
  rw [write_eq_writeAll]
  generalize (c.main.visits.flatMap fun v =>
    block opts (.ofRoot c.main) v.2 (c.main.nameAt ChunkName.unknown v.1) v.1) = calls
  have hunbounded := writeAll_of_open calls {} rfl
  have hbounded := writeAll_of_left calls { left := some n } rfl
  refine ⟨calls, _, _, hunbounded, ?_, ?_, hbounded, ?_, ?_⟩
  . simp [Sink.calls]
  . simp [Sink.text]
  . rw [List.take_add_one]
    cases hrefused : calls[n]? <;> simp [Sink.calls, Sink.offered, hrefused]
  . simp [Sink.text, Sink.offered]

def isHeading (line : Bytes) : Bool :=
  line.head? == some (Bytes.ofChar '\n')

theorem isHeading_headingLine (f : Prototype) (origin : ChunkName) (name : Bytes) :
    isHeading (headingLine f origin name) = true := by
  cases hmain : f.isMain <;> simp only [headingLine, headingText, hmain] <;> rfl

theorem isHeading_digits_append (n : Nat) (rest : Bytes) :
    isHeading (Bytes.digits 10 n ++ rest) = false := by
  cases hdigits : Bytes.digits 10 n with
  | nil => exact absurd hdigits (Bytes.digits_ne_nil 10 n)
  | cons d ds =>
    have hmem : d ∈ Bytes.digits 10 n := by simp [hdigits]
    have hbreak : d ≠ Bytes.ofChar '\n' := by
      rintro rfl
      exact absurd (Bytes.mem_digits_ten hmem).1 (by decide)
    simpa [isHeading] using hbreak

theorem isHeading_sizesLine (f : Prototype) : isHeading (sizesLine f) = false := by
  simp only [sizesLine, sizesText, List.append_assoc]
  exact isHeading_digits_append _ _

theorem countP_mapIdx {as : List α} {line : Nat → α → Bytes}
    (h : ∀ i a, isHeading (line i a) = false) : (as.mapIdx line).countP isHeading = 0 := by
  rw [List.countP_eq_zero]
  intro text htext
  obtain ⟨i, hi, rfl⟩ := List.mem_mapIdx.mp htext
  simp [h]

theorem countP_tableLines {what : String} {name : Bytes} {toRow : Nat → α → Bytes} (entries : List α)
    (hheading : isHeading (tableHeading what entries.length name ++ utf8 "\n") = false)
    (hrow : ∀ i a, isHeading (toRow i a ++ utf8 "\n") = false)
    : (tableLines what name toRow entries).countP isHeading = 0 := by
  rw [tableLines, List.countP_cons_of_neg (by simp [hheading]), countP_mapIdx hrow]

theorem countP_tables (opts : Options) (f : Prototype) (name : Bytes) :
    (tables opts f name).countP isHeading = 0 := by
  rw [tables, List.countP_append, List.countP_append, countP_tableLines _ rfl fun _ _ => rfl,
    countP_tableLines _ rfl fun _ _ => rfl, countP_tableLines _ rfl fun _ _ => rfl]

theorem countP_block (opts : Options) (names : Names) (f : Prototype) (origin : ChunkName)
    (path : List Nat) : (block opts names f origin path).countP isHeading = 1 := by
  have hcode : (f.code.mapIdx fun pc i => codeLine opts names f path i pc).countP isHeading = 0 :=
    countP_mapIdx fun _ _ => rfl
  cases hfull : opts.full
    <;> simp [block, isHeading_headingLine, isHeading_sizesLine, hcode, hfull, countP_tables]

theorem length_block (opts : Options) (names : Names) (f : Prototype) (origin : ChunkName)
    (path : List Nat)
    : (block opts names f origin path).length
        =
      2 + f.code.length
        + if opts.full then 3 + f.constants.length + f.debug.locals.length + f.upvalues.length
          else 0 := by
  cases hfull : opts.full <;> simp [block, tables, tableLines, hfull] <;> omega

theorem block_eq_heading_cons (opts : Options) (names : Names) (f : Prototype) (origin : ChunkName)
    (path : List Nat)
    : ∃ after lines,
        block opts names f origin path
          =
        (utf8 (if f.isMain then "\nmain <" else "\nfunction <") ++ originText origin ++ utf8 ":" ++ after)
          :: lines := by
  simp [block, headingLine, headingText]

/--
A listing has one block for each function of the chunk, in preorder. The name in the heading of a block is
that of the nearest function around it that has one.
-/
theorem write_covers_preorder (opts : Options) (c : Chunk)
    : (∃ sink,
        write opts c {} = .ok () sink
          ∧ sink.calls
              = c.main.visits.flatMap (fun v =>
                  block opts (.ofRoot c.main) v.2 (c.main.nameAt ChunkName.unknown v.1) v.1)
          ∧ sink.calls.countP isHeading = c.main.count)
      ∧ c.main.visits.map Prod.snd = c.main.preorder
      ∧ c.main.visits.length = c.main.count
      ∧ c.main.visits.Pairwise (fun v w => v.1 < w.1)
      ∧ (∀ path f, (path, f) ∈ c.main.visits ↔ c.main.at? path = some f)
      ∧ ∀ f origin path,
          (block opts (.ofRoot c.main) f origin path).length
              = 2 + f.code.length
                + (if opts.full then 3 + f.constants.length + f.debug.locals.length + f.upvalues.length
                  else 0)
            ∧ ∃ after lines,
                block opts (.ofRoot c.main) f origin path
                  = (utf8 (if f.isMain then "\nmain <" else "\nfunction <") ++ originText origin
                      ++ utf8 ":" ++ after) :: lines := by
  refine ⟨?_, c.main.map_snd_visits, c.main.length_visits, c.main.pairwise_visits, ?_, ?_⟩
  . rw [write_eq_writeAll, writeAll_of_open _ {} rfl]
    refine ⟨_, rfl, ?_, ?_⟩
    . simp [Sink.calls]
    . simp [Sink.calls, List.countP_flatMap, Function.comp_def, countP_block, Prototype.length_visits]
  . intro path f
    exact Prototype.mem_visits_iff
  . intro f origin path
    exact ⟨length_block .., block_eq_heading_cons ..⟩

end Listing

end LuaBytecode
