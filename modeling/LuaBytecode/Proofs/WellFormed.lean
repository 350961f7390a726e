import Mathlib
import LuaBytecode.Chunk.Basic
import LuaBytecode.Proofs.Checkpoints
import LuaBytecode.Proofs.Platform
import LuaBytecode.Proofs.Utf8

/-!
Well-formed chunks. What the fields of a function have to fulfil is said of one function at a time, and
`Prototype.preorder` carries it to all functions of a chunk.
-/

namespace LuaBytecode

def DebugInfo.tableLengths (info : DebugInfo) : List Nat :=
  [info.lineDeltas.length, info.checkpoints.length, info.locals.length, info.upvalueNames.length]

namespace Prototype

mutual

def preorder : Prototype → List Prototype
  | f@{ functions, .. } => f :: preorderAll functions

def preorderAll : List Prototype → List Prototype
  | [] => []
  | f :: rest => f.preorder ++ preorderAll rest

end

mutual

def depth : Prototype → Nat
  | { functions, .. } => 1 + depthAll functions

def depthAll : List Prototype → Nat
  | [] => 0
  | f :: rest => max f.depth (depthAll rest)

end

def tableLengths (f : Prototype) : List Nat :=
  [f.code.length, f.constants.length, f.upvalues.length, f.functions.length] ++ f.debug.tableLengths

theorem mem_preorderAll_iff {f : Prototype} {functions : List Prototype} :
    f ∈ preorderAll functions ↔ ∃ g ∈ functions, f ∈ g.preorder := by
  induction functions with
  | nil => simp [preorderAll]
  | cons g rest ih => simp [preorderAll, ih]

theorem forall_mem_preorder_iff {P : Prototype → Prop} {f : Prototype} :
    (∀ g ∈ f.preorder, P g) ↔ P f ∧ ∀ g ∈ f.functions, ∀ h ∈ g.preorder, P h := by
  cases f
  simp only [preorder, List.forall_mem_cons, mem_preorderAll_iff]
  apply and_congr_right
  intro _
  constructor
  . intro hall g hg h hh
    exact hall h ⟨g, hg, hh⟩
  . rintro hall h ⟨g, hg, hh⟩
    exact hall g hg h hh

theorem depthAll_le_iff {functions : List Prototype} {levels : Nat} :
    depthAll functions ≤ levels ↔ ∀ g ∈ functions, g.depth ≤ levels := by
  induction functions with
  | nil => simp [depthAll]
  | cons g rest ih => simp [depthAll, ih]

theorem depth_le_succ_iff {f : Prototype} {levels : Nat} :
    f.depth ≤ levels + 1 ↔ ∀ g ∈ f.functions, g.depth ≤ levels := by
  cases f
  rw [depth, ← depthAll_le_iff]
  dsimp only
  omega

theorem depth_pos (f : Prototype) : 0 < f.depth := by
  cases f
  rw [depth]
  omega

structure Fits (levels count : Nat) (f : Prototype) : Prop where
  depth : f.depth ≤ levels
  tables : ∀ g ∈ f.preorder, ∀ n ∈ g.tableLengths, n ≤ count

theorem not_fits_zero (count : Nat) (f : Prototype) : ¬f.Fits 0 count := by
  intro h
  have := h.depth
  have := f.depth_pos
  omega

theorem fits_succ_iff {levels count : Nat} {f : Prototype}
    : f.Fits (levels + 1) count
        ↔
      (∀ n ∈ f.tableLengths, n ≤ count) ∧ ∀ g ∈ f.functions, g.Fits levels count := by
  constructor
  . rintro ⟨hdepth, htables⟩
    rw [depth_le_succ_iff] at hdepth
    rw [forall_mem_preorder_iff] at htables
    exact ⟨htables.1, fun g hg => ⟨hdepth g hg, htables.2 g hg⟩⟩
  . rintro ⟨hself, hfunctions⟩
    constructor
    . rw [depth_le_succ_iff]
      exact fun g hg => (hfunctions g hg).depth
    . rw [forall_mem_preorder_iff]
      exact ⟨hself, fun g hg => (hfunctions g hg).tables⟩

theorem Fits.mono {levels levels' count count' : Nat} {f : Prototype} (h : f.Fits levels count)
    (hlevels : levels ≤ levels') (hcount : count ≤ count') : f.Fits levels' count' := by
  constructor
  . exact Nat.le_trans h.depth hlevels
  . intro g hg n hn
    exact Nat.le_trans (h.tables g hg n hn) hcount

end Prototype

/--
On platforms with small integers an integer has to be one of them, and on platforms with small floats
a float has to be the widening of one.
-/
def Constant.WellFormed (p : Platform) : Constant → Prop
  | .integer n => p.integerSize.Holds n
  | .float x => p.numberSize = .four → ∃ bits, x = .ofSingle bits
  | .string s _ => Utf8.IsText s
  | .nil | .boolean _ => True

structure Checkpoint.WellFormed (c : Checkpoint) : Prop where
  pc : 0 ≤ c.pc
  line : 0 ≤ c.line

structure LocalVariable.WellFormed (v : LocalVariable) : Prop where
  name : Utf8.IsText v.name
  startPC : 0 ≤ v.startPC
  endPC : 0 ≤ v.endPC

structure DebugInfo.WellFormed (codeSize upvalueCount : Nat) (info : DebugInfo) : Prop where
  lineDeltas_length : info.lineDeltas.length = 0 ∨ info.lineDeltas.length = codeSize
  checkpointPCs : info.checkpoints.map (·.pc.toInt)
    = (LineTable.markedPCs info.lineDeltas).map Int.ofNat
  checkpoints : ∀ c ∈ info.checkpoints, c.WellFormed
  locals : ∀ v ∈ info.locals, v.WellFormed
  upvalueNames_length : info.upvalueNames.length = 0 ∨ info.upvalueNames.length = upvalueCount
  upvalueNames : ∀ name ∈ info.upvalueNames, Utf8.IsText name

structure Prototype.WellFormed (p : Platform) (f : Prototype) : Prop where
  name : ∀ name ∈ f.name, Utf8.IsText name
  lineDefined : 0 ≤ f.lineDefined
  lastLineDefined : 0 ≤ f.lastLineDefined
  vararg : f.vararg.bits ≤ 7
  code : ∀ i ∈ f.code, i.WellFormed
  constants : ∀ k ∈ f.constants, k.WellFormed p
  upvalues : ∀ u ∈ f.upvalues, u.kind.code ≤ 3
  debug : f.debug.WellFormed f.code.length f.upvalues.length

structure Header.WellFormed (h : Header) : Prop where
  version : h.version = ⟨0x54⟩
  format : h.format = 0
  instructionSize : h.instructionSize = 4
  integerSample : h.integerSample = 0x5678

def Width.StoredAt (input : Bytes) (index : Nat) (width : Width) : Prop :=
  ∃ b ∈ [4, 8], input[index]? = some b ∧ width.bytes = b.toNat

end LuaBytecode
