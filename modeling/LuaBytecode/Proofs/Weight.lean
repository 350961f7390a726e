import Mathlib
import LuaBytecode.Proofs.Accepted

/-!
How many bytes the parts of a chunk take at least. `Format.Weighs` says that all values of a format have
a weight which the bytes of their fields pay for, and is derived along the format.
-/

namespace LuaBytecode

open LuaBytecode.Field

namespace Format

/--
The bytes of a value, with the `paid` bytes that come before it, are as many as its weight.
-/
structure Weighs (F : Format α) (paid : Nat) (w : α → Nat) : Prop where
  le_width : ∀ {fields a}, F fields a → w a ≤ paid + width fields

namespace Weighs

variable {paid : Nat}

theorem enough {F : Format α} {w : α → Nat} (h : ∀ a, w a ≤ paid) : F.Weighs paid w := by
  constructor
  intro fields a _
  have := h a
  omega

theorem pure {w : α → Nat} {a : α} (h : w a ≤ paid) : (pure a : Format α).Weighs paid w := by
  constructor
  rintro _ _ ⟨_, rfl⟩
  omega

theorem bind {F : Format α} {G : α → Format β} {v : α → Nat} {w : β → Nat} (first : F.Weighs 0 v)
    (rest : ∀ a, (G a).Weighs (paid + v a) w) : (F >>= G).Weighs paid w := by
  constructor
  rintro _ b ⟨fs, gs, a, rfl, ha, hb⟩
  have hfirst := first.le_width ha
  have hrest := (rest a).le_width hb
  rw [width_append]
  omega

theorem skip {F : Format α} {G : α → Format β} {w : β → Nat} (rest : ∀ a, (G a).Weighs paid w) :
    (F >>= G).Weighs paid w := by
  have hfree : F.Weighs 0 fun _ => 0 := enough fun _ => Nat.le_refl 0
  exact bind hfree rest

theorem first {F : Format α} {G : α → Format β} {n : Nat} (h : F.Weighs 0 fun _ => n) :
    (F >>= G).Weighs 0 fun _ => n := by
  apply bind h
  intro a
  exact enough fun _ => Nat.le_add_left n 0

theorem require {P : Prop} {F : Unit → Format α} {w : α → Nat} (h : P → (F ()).Weighs paid w) :
    (Format.require P >>= F).Weighs paid w := by
  constructor
  rintro _ a ⟨_, gs, _, rfl, ⟨rfl, hP⟩, ha⟩
  exact (h hP).le_width ha

theorem nothing {w : α → Nat} : (Format.nothing : Format α).Weighs paid w := by
  constructor
  intro _ _ h
  exact h.elim

theorem replicate {F : Format α} {w : α → Nat} (h : F.Weighs 0 w) (n : Nat) :
    (Format.replicate F n).Weighs 0 fun as => (as.map w).sum := by
  induction n with
  | zero => exact pure (Nat.le_refl 0)
  | succ n ih =>
    apply bind h
    intro a
    apply bind ih
    intro as
    apply pure
    rw [List.map_cons, List.sum_cons]
    omega

end Weighs

theorem literal_weighs (expected : Bytes) : (literal expected).Weighs 0 fun _ => expected.length := by
  constructor
  rintro _ _ rfl
  simp

theorem byte_weighs : byte.Weighs 0 fun _ => 1 := by
  constructor
  rintro _ _ rfl
  simp

theorem bytes_weighs (kind : FieldKind) (n : Nat) : (bytes kind n).Weighs 0 fun _ => n := by
  constructor
  rintro _ _ ⟨rfl, hlength⟩
  simp [hlength]

theorem size_weighs : size.Weighs 0 fun _ => 1 := by
  have hvarint : varint.Weighs 0 fun _ => 1 := by
    constructor
    rintro _ x ⟨groups, rfl, hspells⟩
    have := List.length_pos_of_ne_nil hspells.1.ne_nil
    rw [width_singleton]
    dsimp only
    omega
  exact .first hvarint

theorem string?_weighs : string?.Weighs 0 fun _ => 1 :=
  .first (.first size_weighs)

theorem fixed_weighs (p : Platform) (width : Width) : (fixed p width).Weighs 0 fun _ => 4 := by
  apply Weighs.bind (bytes_weighs .group width.bytes)
  intro bs
  apply Weighs.pure
  cases width <;> decide

theorem number_weighs (p : Platform) : (number p).Weighs 0 fun _ => 4 :=
  .first (fixed_weighs p p.numberSize)

theorem table_weighs (limits : Limits) {F : Format α} {w : α → Nat} (h : F.Weighs 0 w) :
    (table limits F).Weighs 0 fun as => 1 + (as.map w).sum := by
  apply Weighs.bind size_weighs
  intro n
  apply Weighs.require
  intro _
  constructor
  intro fields as has
  have := (Weighs.replicate h n).le_width has
  omega

theorem table_weighs_const (limits : Limits) {F : Format α} {unit : Nat} (h : F.Weighs 0 fun _ => unit) :
    (table limits F).Weighs 0 fun as => 1 + unit * as.length := by
  have htable := table_weighs limits h
  simpa [Nat.mul_comm] using htable

end Format

open Format

theorem Instruction.layout_weighs (p : Platform) : (layout p).Weighs 0 fun _ => 4 :=
  .first (.first (fixed_weighs p .four))

theorem Constant.layout_weighs (p : Platform) : (layout p).Weighs 0 fun _ => 1 :=
  .first byte_weighs

theorem Upvalue.layout_weighs : layout.Weighs 0 fun _ => 3 :=
  .first (bytes_weighs .group 3)

theorem Checkpoint.layout_weighs : layout.Weighs 0 fun _ => 2 := by
  apply Weighs.bind size_weighs
  intro pc
  apply Weighs.bind size_weighs
  intro line
  exact .enough fun _ => Nat.le_refl 2

theorem LocalVariable.layout_weighs : layout.Weighs 0 fun _ => 3 := by
  apply Weighs.bind string?_weighs
  intro name
  apply Weighs.bind size_weighs
  intro startPC
  apply Weighs.bind size_weighs
  intro endPC
  exact .enough fun _ => Nat.le_refl 3

namespace DebugInfo

theorem lineDelta_weighs : (do return (← Format.byte).toInt8).Weighs 0 fun _ => 1 :=
  .first byte_weighs

theorem upvalueName_weighs : (do return (← Format.string?).getD []).Weighs 0 fun _ => 1 :=
  .first string?_weighs

def weight (debug : DebugInfo) : Nat :=
  debug.lineDeltas.length + 2 * debug.checkpoints.length + 3 * debug.locals.length
    + debug.upvalueNames.length

theorem layout_weighs (limits : Limits) (codeSize upvalueCount : Nat) :
    (layout limits codeSize upvalueCount).Weighs 0 fun debug => 4 + debug.weight := by
  apply Weighs.bind (table_weighs_const limits lineDelta_weighs)
  intro lineDeltas
  apply Weighs.require
  intro _
  apply Weighs.bind (table_weighs_const limits Checkpoint.layout_weighs)
  intro checkpoints
  apply Weighs.require
  intro _
  apply Weighs.bind (table_weighs_const limits LocalVariable.layout_weighs)
  intro locals
  apply Weighs.bind (table_weighs_const limits upvalueName_weighs)
  intro upvalueNames
  apply Weighs.require
  intro _
  apply Weighs.pure
  dsimp only [weight]
  omega

end DebugInfo

namespace Prototype

def total (count : Prototype → Nat) (f : Prototype) : Nat :=
  (f.preorder.map count).sum

theorem total_eq (count : Prototype → Nat) (f : Prototype) :
    f.total count = count f + (f.functions.map (total count)).sum := by
  -- The functions inside one are a list, and need an induction of their own.
  have hall : ∀ functions : List Prototype,
      ((preorderAll functions).map count).sum = (functions.map (total count)).sum := by
    intro functions
    induction functions with
    | nil => rfl
    | cons g rest ih =>
      rw [preorderAll, List.map_append, List.sum_append, ih]
      rfl
  cases f
  rw [total, preorder, List.map_cons, List.sum_cons, hall]

def weight (f : Prototype) : Nat :=
  14 + 4 * f.code.length + f.constants.length + 3 * f.upvalues.length + f.debug.weight

theorem layout_weighs (limits : Limits) (p : Platform) (levels : Nat) :
    (layout limits p levels).Weighs 0 (total weight) := by
  induction levels with
  | zero => exact .nothing
  | succ levels ih =>
    apply Weighs.bind string?_weighs
    intro name
    apply Weighs.bind size_weighs
    intro lineDefined
    apply Weighs.bind size_weighs
    intro lastLineDefined
    apply Weighs.bind byte_weighs
    intro numParams
    apply Weighs.bind byte_weighs
    intro vararg
    apply Weighs.bind byte_weighs
    intro maxStackSize
    apply Weighs.bind (table_weighs_const limits (Instruction.layout_weighs p))
    intro code
    apply Weighs.bind (table_weighs_const limits (Constant.layout_weighs p))
    intro constants
    apply Weighs.bind (table_weighs_const limits Upvalue.layout_weighs)
    intro upvalues
    apply Weighs.bind (table_weighs limits ih)
    intro functions
    apply Weighs.bind (DebugInfo.layout_weighs limits code.length upvalues.length)
    intro debug
    -- Six fields and the numbers of the eight tables make up the fourteen bytes.
    apply Weighs.pure
    rw [total_eq]
    dsimp only [weight]
    omega

theorem weight_le_total (f : Prototype) : 14 ≤ f.total weight := by
  rw [total_eq, weight]
  omega

end Prototype

theorem Header.layout_weighs (limits : Limits) : (layout limits).Weighs 0 fun _ => 23 := by
  have hsize : ∀ {α : Type} (valid : UInt8 → Option α), (sizeLayout valid).Weighs 0 fun _ => 1 :=
    fun _ => .first byte_weighs
  apply Weighs.bind (literal_weighs signature)
  intro _
  apply Weighs.bind byte_weighs
  intro version
  apply Weighs.require
  intro _
  apply Weighs.bind byte_weighs
  intro format
  apply Weighs.require
  intro _
  apply Weighs.bind (literal_weighs conversionCheck)
  intro _
  apply Weighs.bind (hsize _)
  intro instructionSize
  apply Weighs.bind (hsize _)
  intro integerSize
  apply Weighs.bind (hsize _)
  intro numberSize
  apply Weighs.bind (bytes_weighs .group integerSize.bytes)
  intro sample
  apply Weighs.skip
  intro byteOrder
  apply Weighs.bind (number_weighs _)
  intro numberSample
  -- The samples take four bytes each, or more on platforms with larger numbers.
  apply Weighs.enough
  intro _
  cases integerSize <;> decide

namespace Chunk

theorem layout_weighs (limits : Limits)
    : (layout limits).Weighs 0 fun contents => 24 + contents.main.total Prototype.weight := by
  apply Weighs.bind (Header.layout_weighs limits)
  intro header
  apply Weighs.bind byte_weighs
  intro upvalueCount
  apply Weighs.bind (Prototype.layout_weighs limits header.platform limits.maxDepth)
  intro main
  apply Weighs.require
  intro _
  apply Weighs.pure
  dsimp only
  omega

theorem weight_le_of_decode {limits : Limits} {input : Bytes} {chunk : Chunk}
    (h : decode limits input = .ok chunk)
    : 24 + chunk.main.total Prototype.weight + chunk.trailingBytes ≤ input.length := by
  obtain ⟨fields, rest, hlayout, rfl, htrailing⟩ := decode_eq_ok_iff.mp h
  have hweight := (layout_weighs limits).le_width hlayout
  rw [htrailing, List.length_append, length_join]
  dsimp only [contents] at hweight
  omega

end Chunk

end LuaBytecode
