import Mathlib
import LuaBytecode.Proofs.Descriptions
import LuaBytecode.Proofs.FunctionNames

/-!
Jumps in a listing. The target of a jump is counted from the instruction behind it, by the operand and the
direction that the description of the operation gives. The comment at a jump shows the target as the address
column shows that instruction, wherever addresses start, and no other comment depends on where they start.
-/

namespace LuaBytecode

def Operands.sj? : Operands → Option Int
  | .sj offset => some offset
  | _ => .none

inductive JumpOperand where
  | bx | sj
  deriving DecidableEq

namespace JumpOperand

def name : JumpOperand → List Char
  | .bx => ['B', 'x']
  | .sj => ['s', 'J']

def value? (o : Operands) : JumpOperand → Option Int
  | .bx => o.bx?.map Int.ofNat
  | .sj => o.sj?

end JumpOperand

/--
A change of `pc` by an operand, forward or back, and then forward by some more instructions.
-/
structure Jump where
  back : Bool
  operand : JumpOperand
  more : Nat
  deriving DecidableEq

namespace Jump

def text (j : Jump) : List Char :=
  ['p', 'c', if j.back then '-' else '+', '='] ++ j.operand.name
    ++ if j.more = 0 then [] else '+' :: Nat.toDigits 10 j.more

def scan : List Char → List (List Char)
  | [] => []
  | 'p' :: 'c' :: '+' :: '=' :: text =>
    (['p', 'c', '+', '='] ++ text.takeWhile fun c => c.isAlphanum || c == '+') :: scan text
  | 'p' :: 'c' :: '-' :: '=' :: text =>
    (['p', 'c', '-', '='] ++ text.takeWhile fun c => c.isAlphanum || c == '+') :: scan text
  | _ :: text => scan text

def displacement? (j : Jump) (o : Operands) : Option Int :=
  (j.operand.value? o).map fun n => (if j.back then -n else n) + j.more

end Jump

def Opcode.jump? : Opcode → Option Jump
  | .jmp => some ⟨false, .sj, 0⟩
  | .forLoop | .tforLoop => some ⟨true, .bx, 0⟩
  | .forPrep => some ⟨false, .bx, 1⟩
  | .tforPrep => some ⟨false, .bx, 0⟩
  | _ => none

theorem Opcode.scan_jump (op : Opcode)
    : Jump.scan (op.description.toList.filter (· != ' ')) = (op.jump?.map Jump.text).toList := by
  cases op <;> decide +kernel

namespace Instruction

/--
The jump that the instruction makes. One with a jump offset makes that jump, whatever its operation.
-/
def jump? (i : Instruction) : Option Jump :=
  match i.operands with
  | .sj _ => some ⟨false, .sj, 0⟩
  | _ => i.op.jump?

def target? (pc : Nat) (i : Instruction) : Option Int :=
  i.jump?.bind fun j => (j.displacement? i.operands).map fun n => pc + 1 + n

theorem target?_eq {i : Instruction} {j : Jump} {n t : Int} (pc : Nat) (hjump : i.jump? = some j)
    (hvalue : j.operand.value? i.operands = some n)
    (ht : t = pc + 1 + ((if j.back then -n else n) + j.more)) : i.target? pc = some t := by
  rw [target?, hjump, Option.bind_some, Jump.displacement?, hvalue, Option.map_some, Option.map_some, ht]

theorem jump?_of_shape {i : Instruction} (h : i.operands.shape = i.op.shape) : i.jump? = i.op.jump? := by
  obtain ⟨op, operands⟩ := i
  cases operands with
  | sj offset => cases op <;> first | rfl | cases h
  | _ => rfl

end Instruction

namespace Listing

def jumpWords (j : Jump) : String :=
  if j.more = 0 then "to " else "exit to "

def Remark.target? : Remark → Option Int
  | .address target => some target
  | _ => none

theorem remarks_cases (f : Prototype) (pc : Nat) (i : Instruction)
    : (∃ j t, i.jump? = some j ∧ i.target? pc = some t ∧ ∃ word,
        jumpWords j = word ++ " " ∧ remarks f pc i = [.word word, .address t])
      ∨ i.target? pc = none ∧ (remarks f pc i).filterMap Remark.target? = [] := by
  -- A jump offset is a target with every operation, an operand `Bx` with four of them only.
  obtain ⟨op, operands⟩ := i
  cases operands with
  | sj offset =>
    refine .inl ⟨⟨false, .sj, 0⟩, pc + 1 + offset, rfl, ?_, "to", rfl, ?_⟩
    . exact Instruction.target?_eq pc rfl rfl (by simp)
    . cases op <;> rfl
  | abx ra bx =>
    cases op with
    | forLoop | tforLoop =>
      refine .inl ⟨⟨true, .bx, 0⟩, pc + 1 - bx, rfl, ?_, "to", rfl, rfl⟩
      exact Instruction.target?_eq pc rfl rfl (by simp; omega)
    | forPrep =>
      refine .inl ⟨⟨false, .bx, 1⟩, pc + bx + 2, rfl, ?_, "exit to", rfl, rfl⟩
      exact Instruction.target?_eq pc rfl rfl (by simp; omega)
    | tforPrep =>
      refine .inl ⟨⟨false, .bx, 0⟩, pc + bx + 1, rfl, ?_, "to", rfl, rfl⟩
      exact Instruction.target?_eq pc rfl rfl (by simp; omega)
    | closure =>
      refine .inr ⟨rfl, ?_⟩
      change (if bx < f.functions.length then [Remark.function bx] else []).filterMap _ = _
      split <;> rfl
    | _ => exact .inr ⟨rfl, rfl⟩
  | a ra =>
    cases op with
    | loadKX =>
      refine .inr ⟨rfl, ?_⟩
      unfold remarks
      dsimp only
      split <;> rfl
    | _ => exact .inr ⟨rfl, rfl⟩
  | abck ra b c k => cases k <;> cases op <;> exact .inr ⟨rfl, rfl⟩
  | asbck ra sb c k => cases k <;> cases op <;> exact .inr ⟨rfl, rfl⟩
  | _ => cases op <;> exact .inr ⟨rfl, rfl⟩

theorem comment_of_target {f : Prototype} {pc : Nat} {i : Instruction} {t : Int}
    (h : i.target? pc = some t)
    : ∃ j, i.jump? = some j ∧ ∀ opts names path,
        comment opts names f path pc i = utf8 (jumpWords j) ++ Bytes.decimal (opts.base + t) := by
  obtain ⟨j, t', hjump, htarget, word, hwords, hremarks⟩ | ⟨hnone, _⟩ := remarks_cases f pc i
  . rw [h, Option.some.injEq] at htarget
    refine ⟨j, hjump, ?_⟩
    intro opts names path
    rw [comment, hremarks, hwords, utf8_append, htarget]
    simp [Bytes.join, Remark.text]
  . rw [h] at hnone
    cases hnone

theorem Remark.text_of_no_target {r : Remark} (h : r.target? = none) (opts opts' : Options) (names : Names)
    (f : Prototype) (path : List Nat) : r.text opts names f path = r.text opts' names f path := by
  cases r with
  | address target => cases h
  | _ => rfl

theorem comment_of_no_target {f : Prototype} {pc : Nat} {i : Instruction} (h : i.target? pc = none)
    (opts opts' : Options) (names : Names) (path : List Nat)
    : comment opts names f path pc i = comment opts' names f path pc i := by
  obtain ⟨j, t, _, htarget, _⟩ | ⟨_, hremarks⟩ := remarks_cases f pc i
  . rw [h] at htarget
    cases htarget
  . rw [List.filterMap_eq_nil_iff] at hremarks
    rw [comment, comment, List.map_congr_left]
    intro r hr
    exact Remark.text_of_no_target (hremarks r hr) opts opts' names f path

def addressCell (line : Bytes) : Bytes :=
  (Bytes.cut (Bytes.ofChar '\t') (line.drop 1)).1

theorem codeLine_eq (opts : Options) (names : Names) (f : Prototype) (path : List Nat) (i : Instruction)
    (pc : Nat)
    : codeLine opts names f path i pc
        =
      Bytes.ofChar '\t' :: (Bytes.digits 10 (opts.base + pc) ++ Bytes.ofChar '\t' ::
        (lineCell f pc ++ i.text ++ commentCell (comment opts names f path pc i) ++ utf8 "\n")) := by
  have htab : utf8 "\t" = [Bytes.ofChar '\t'] := rfl
  simp [codeLine, htab]

theorem commentCell_words (j : Jump) (numeral : Bytes)
    : commentCell (utf8 (jumpWords j) ++ numeral) = utf8 "\t; " ++ utf8 (jumpWords j) ++ numeral := by
  have hwords : utf8 (jumpWords j) ≠ [] := by
    unfold jumpWords
    split <;> decide
  rw [commentCell, List.append_assoc]
  exact fun h => hwords (List.append_eq_nil_iff.mp h).1

theorem exists_codeLine_eq (names : Names) (f : Prototype) (path : List Nat) (i : Instruction) (pc : Nat)
    : ∃ between : Bytes, ∀ opts,
        codeLine opts names f path i pc
          =
        Bytes.ofChar '\t' :: (Bytes.decimal (opts.base + pc) ++ Bytes.ofChar '\t' :: (between
          ++ ((i.target? pc).elim [] fun t => Bytes.decimal (opts.base + t)) ++ utf8 "\n")) := by
  have haddress : ∀ opts : Options, Bytes.digits 10 (opts.base + pc) = Bytes.decimal (opts.base + pc) :=
    fun _ => rfl
  cases h : i.target? pc with
  | none =>
    refine ⟨lineCell f pc ++ i.text ++ commentCell (comment {} names f path pc i), ?_⟩
    intro opts
    rw [codeLine_eq, comment_of_no_target h opts {}, haddress, Option.elim_none, List.append_nil]
  | some t =>
    obtain ⟨j, _, hcomment⟩ := @comment_of_target f _ _ _ h
    refine ⟨lineCell f pc ++ i.text ++ (utf8 "\t; " ++ utf8 (jumpWords j)), ?_⟩
    intro opts
    rw [codeLine_eq, hcomment, commentCell_words, haddress, Option.elim_some]
    simp only [List.append_assoc]

theorem addressCell_codeLine (opts : Options) (names : Names) (f : Prototype) (path : List Nat)
    (i : Instruction) (pc : Nat)
    : addressCell (codeLine opts names f path i pc) = Bytes.decimal (opts.base + pc) := by
  have htab : Bytes.ofChar '\t' ∉ Bytes.digits 10 (opts.base + pc) := by
    intro hmem
    exact absurd (Bytes.mem_digits_ten hmem).1 (by decide)
  rw [codeLine_eq, addressCell, List.drop_one, List.tail_cons, Bytes.cut_append_cons _ htab]
  rfl

/--
At a jump the comment shows the target as the number of that instruction in the address column. The other
comments do not depend on where addresses start, and neither does anything else in the lines of the code.
-/
theorem jumps_match_addresses (opts : Options) (c : Chunk)
    : (∀ op : Opcode,
        Jump.scan (op.description.toList.filter (· != ' ')) = (op.jump?.map Jump.text).toList)
      ∧ (∀ i : Instruction, i.operands.shape = i.op.shape → i.jump? = i.op.jump?)
      ∧ (∀ names f path pc i t, i.target? pc = some t →
          (∃ j, i.jump? = some j
            ∧ comment opts names f path pc i = utf8 (jumpWords j) ++ Bytes.decimal (opts.base + t))
          ∧ ∀ n i', t = (n : Nat) → f.code[n]? = some i' →
              addressCell (codeLine opts names f path i' n) = Bytes.decimal (opts.base + t))
      ∧ (∀ names f path pc i, i.target? pc = none →
          ∀ opts', comment opts names f path pc i = comment opts' names f path pc i)
      ∧ (∃ sink,
          write opts c {} = .ok () sink
            ∧ sink.calls
                = c.main.visits.flatMap (fun v =>
                    headingAt c v :: sizesLine v.2
                      :: v.2.code.mapIdx (fun pc i => codeLine opts (.ofRoot c.main) v.2 v.1 i pc)
                      ++ if opts.full then tables opts v.2 ((Names.ofRoot c.main).get v.1) else []))
      ∧ ∀ names f path pc i, ∃ between : Bytes, ∀ opts,
          codeLine opts names f path i pc
            = Bytes.ofChar '\t' :: (Bytes.decimal (opts.base + pc) ++ Bytes.ofChar '\t' :: (between
              ++ ((i.target? pc).elim [] fun t => Bytes.decimal (opts.base + t)) ++ utf8 "\n")) := by
  refine ⟨Opcode.scan_jump, fun _ => Instruction.jump?_of_shape, ?_, ?_, ?_, ?_⟩
  . intro names f path pc i t htarget
    obtain ⟨j, hjump, hcomment⟩ := comment_of_target htarget
    refine ⟨⟨j, hjump, hcomment opts names path⟩, ?_⟩
    rintro n i' rfl _
    exact addressCell_codeLine opts names f path i' n
  . intro names f path pc i hnone opts'
    exact comment_of_no_target hnone opts opts' names path
  . rw [write_eq_writeAll, WriteM.writeAll_of_open _ {} rfl]
    refine ⟨_, rfl, ?_⟩
    simp [Sink.calls, block, headingAt]
  . intro names f path pc i
    exact exists_codeLine_eq names f path i pc

def sampleLoop : Prototype where
  code := [⟨.forPrep, .abx 0 1⟩, ⟨.move, .ab 4 3⟩, ⟨.forLoop, .abx 0 2⟩, ⟨.ret0, .none⟩]

theorem jumps_match_addresses_sampleLoop
    : (⟨.forPrep, .abx 0 1⟩ : Instruction).target? 0 = some 3
        ∧ comment {} .empty sampleLoop [] 0 ⟨.forPrep, .abx 0 1⟩ = utf8 "exit to 4"
        ∧ addressCell (codeLine {} .empty sampleLoop [] ⟨.ret0, .none⟩ 3) = utf8 "4"
        ∧ (⟨.forLoop, .abx 0 2⟩ : Instruction).target? 2 = some 1
        ∧ comment { rawPC := true } .empty sampleLoop [] 2 ⟨.forLoop, .abx 0 2⟩ = utf8 "to 1"
        ∧ addressCell (codeLine { rawPC := true } .empty sampleLoop [] ⟨.move, .ab 4 3⟩ 1) = utf8 "1"
        ∧ ∀ opts, comment {} .empty sampleLoop [] 1 ⟨.move, .ab 4 3⟩
            = comment opts .empty sampleLoop [] 1 ⟨.move, .ab 4 3⟩ := by
  obtain ⟨_, _, hjump, hother, _⟩ := jumps_match_addresses {} ⟨sampleClosures.header, 0, sampleLoop, 0⟩
  obtain ⟨_, _, hjumpRaw, _⟩ :=
    jumps_match_addresses { rawPC := true } ⟨sampleClosures.header, 0, sampleLoop, 0⟩
  obtain ⟨⟨_, ⟨⟩, hprep⟩, hexit⟩ := hjump .empty sampleLoop [] 0 ⟨.forPrep, .abx 0 1⟩ 3 rfl
  obtain ⟨⟨_, ⟨⟩, hloop⟩, hstart⟩ := hjumpRaw .empty sampleLoop [] 2 ⟨.forLoop, .abx 0 2⟩ 1 rfl
  exact ⟨rfl, hprep, hexit 3 _ rfl rfl, rfl, hloop, hstart 1 _ rfl rfl, hother .empty sampleLoop [] 1 _ rfl⟩

end Listing

end LuaBytecode
