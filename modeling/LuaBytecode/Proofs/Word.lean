import Mathlib
import LuaBytecode.Instruction.Basic

/-!
Instruction words: an instruction is unpacked from its own word, and what is unpacked from a word has
the operands of its opcode, in range.
-/

namespace LuaBytecode

theorem Opcode.code_lt (op : Opcode) : op.code < 83 := by
  apply Nat.lt_of_not_le
  intro h
  have hnone := (ofCode?_eq_none_iff op.code).mpr h
  rw [ofCode?_code] at hnone
  cases hnone

namespace Word

section ABC

variable {op a b c : Nat} (k : Bool) (hop : op < 128) (ha : a < 256) (hb : b < 256) (hc : c < 256)

include hop ha hb hc

theorem toNat_packABC
    : (op + Operands.packABC a b c k).toUInt32.toNat
        =
      op + a * 0x80 + k.toNat * 0x8000 + b * 0x10000 + c * 0x1000000 := by
  have := k.toNat_lt
  simp [Operands.packABC]
  omega

theorem opcode_packABC : opcode (op + Operands.packABC a b c k).toUInt32 = op := by
  have := k.toNat_lt
  rw [opcode, field, toNat_packABC k hop ha hb hc]
  omega

theorem fields_packABC
    : Word.a (op + Operands.packABC a b c k).toUInt32 = a.toUInt8
        ∧ Word.b (op + Operands.packABC a b c k).toUInt32 = b.toUInt8
        ∧ Word.c (op + Operands.packABC a b c k).toUInt32 = c.toUInt8
        ∧ Word.k (op + Operands.packABC a b c k).toUInt32 = k := by
  have := k.toNat_lt
  simp only [Word.a, Word.b, Word.c, Word.k, field, toNat_packABC k hop ha hb hc]
  refine ⟨congrArg Nat.toUInt8 ?_, congrArg Nat.toUInt8 ?_, congrArg Nat.toUInt8 ?_, ?_⟩
  . omega
  . omega
  . omega
  . cases k with
    | false => simp; omega
    | true => simp; omega

end ABC

section ABx

variable {op a bx : Nat} (hop : op < 128) (ha : a < 256) (hbx : bx < 0x20000)

include hop ha hbx

theorem toNat_packABx :
    (op + Operands.packABx a bx).toUInt32.toNat = op + a * 0x80 + bx * 0x8000 := by
  simp [Operands.packABx]
  omega

theorem opcode_packABx : opcode (op + Operands.packABx a bx).toUInt32 = op := by
  rw [opcode, field, toNat_packABx hop ha hbx]
  omega

theorem fields_packABx
    : Word.a (op + Operands.packABx a bx).toUInt32 = a.toUInt8
        ∧ Word.bx (op + Operands.packABx a bx).toUInt32 = bx := by
  simp only [Word.a, Word.bx, field, toNat_packABx hop ha hbx]
  refine ⟨congrArg Nat.toUInt8 ?_, ?_⟩
  . omega
  . omega

end ABx

section Ax

variable {op ax : Nat} (hop : op < 128) (hax : ax < 0x2000000)

include hop hax

theorem toNat_packAx : (op + ax * 0x80).toUInt32.toNat = op + ax * 0x80 := by
  simp
  omega

theorem opcode_packAx : opcode (op + ax * 0x80).toUInt32 = op := by
  rw [opcode, field, toNat_packAx hop hax]
  omega

theorem ax_packAx : Word.ax (op + ax * 0x80).toUInt32 = ax := by
  rw [Word.ax, field, toNat_packAx hop hax]
  omega

end Ax

theorem signedArg_toUInt8 {sc : Int} (h : Operands.FitsC sc) :
    signedArg (sc + excessC).toNat.toUInt8 = sc := by
  obtain ⟨hle, hge⟩ := h
  simp [signedArg, excessC]
  omega

theorem fitsC_signedArg (arg : UInt8) : Operands.FitsC (signedArg arg) := by
  have := arg.toNat_lt
  unfold Operands.FitsC signedArg excessC
  omega

end Word

namespace Operands

theorem FitsC.excess_lt {sc : Int} (h : FitsC sc) : (sc + Word.excessC).toNat < 256 := by
  obtain ⟨hle, hge⟩ := h
  rw [Word.excessC]
  omega

theorem excessBx_lt {sbx : Int} (h : -65535 ≤ sbx ∧ sbx ≤ 65536) :
    (sbx + Word.excessBx).toNat < 0x20000 := by
  rw [Word.excessBx]
  omega

theorem excessSJ_lt {offset : Int} (h : -16777215 ≤ offset ∧ offset ≤ 16777216) :
    (offset + Word.excessSJ).toNat < 0x2000000 := by
  rw [Word.excessSJ]
  omega

theorem flag_lt (flag : Bool) : flag.toNat < 256 := by
  have := flag.toNat_lt
  omega

theorem opcode_bits {op : Nat} (operands : Operands) (hop : op < 128) (h : operands.InRange) :
    Word.opcode (op + operands.bits).toUInt32 = op := by
  have hz : 0 < 256 := by omega
  cases operands with
  | none =>
    rw [bits, Nat.add_zero, Word.opcode, Word.field]
    simp
    omega
  | a ra => exact Word.opcode_packABC _ hop ra.toNat_lt hz hz
  | ab ra b => exact Word.opcode_packABC _ hop ra.toNat_lt b.toNat_lt hz
  | abc ra b c => exact Word.opcode_packABC _ hop ra.toNat_lt b.toNat_lt c.toNat_lt
  | absc ra b sc => exact Word.opcode_packABC _ hop ra.toNat_lt b.toNat_lt (FitsC.excess_lt h)
  | abck ra b c k => exact Word.opcode_packABC _ hop ra.toNat_lt b.toNat_lt c.toNat_lt
  | asbck ra sb c k => exact Word.opcode_packABC _ hop ra.toNat_lt (FitsC.excess_lt h) c.toNat_lt
  | abk ra b k => exact Word.opcode_packABC _ hop ra.toNat_lt b.toNat_lt hz
  | asbk ra sb float k =>
    exact Word.opcode_packABC _ hop ra.toNat_lt (FitsC.excess_lt h) (flag_lt float)
  | ak ra k => exact Word.opcode_packABC _ hop ra.toNat_lt hz hz
  | ac ra c => exact Word.opcode_packABC _ hop ra.toNat_lt hz c.toNat_lt
  | abx ra bx => exact Word.opcode_packABx hop ra.toNat_lt h
  | asbx ra sbx => exact Word.opcode_packABx hop ra.toNat_lt (excessBx_lt h)
  | sj offset => exact Word.opcode_packAx hop (excessSJ_lt h)
  | ax arg => exact Word.opcode_packAx hop h

theorem ofWord_bits {op : Nat} (operands : Operands) (hop : op < 128) (h : operands.InRange) :
    ofWord (op + operands.bits).toUInt32 operands.shape = operands := by
  have hz : 0 < 256 := by omega
  cases operands with
  | none => rfl
  | a ra =>
    obtain ⟨ha, _⟩ := Word.fields_packABC false hop ra.toNat_lt hz hz
    rw [bits, shape, ofWord, ha]
    simp
  | ab ra b =>
    obtain ⟨ha, hb, _⟩ := Word.fields_packABC false hop ra.toNat_lt b.toNat_lt hz
    rw [bits, shape, ofWord, ha, hb]
    simp
  | abc ra b c =>
    obtain ⟨ha, hb, hc, _⟩ := Word.fields_packABC false hop ra.toNat_lt b.toNat_lt c.toNat_lt
    rw [bits, shape, ofWord, ha, hb, hc]
    simp
  | absc ra b sc =>
    obtain ⟨ha, hb, hc, _⟩ :=
      Word.fields_packABC false hop ra.toNat_lt b.toNat_lt (FitsC.excess_lt h)
    rw [bits, shape, ofWord, ha, hb, hc, Word.signedArg_toUInt8 h]
    simp
  | abck ra b c k =>
    obtain ⟨ha, hb, hc, hk⟩ := Word.fields_packABC k hop ra.toNat_lt b.toNat_lt c.toNat_lt
    rw [bits, shape, ofWord, ha, hb, hc, hk]
    simp
  | asbck ra sb c k =>
    obtain ⟨ha, hb, hc, hk⟩ :=
      Word.fields_packABC k hop ra.toNat_lt (FitsC.excess_lt h) c.toNat_lt
    rw [bits, shape, ofWord, ha, hb, hc, hk, Word.signedArg_toUInt8 h]
    simp
  | abk ra b k =>
    obtain ⟨ha, hb, _, hk⟩ := Word.fields_packABC k hop ra.toNat_lt b.toNat_lt hz
    rw [bits, shape, ofWord, ha, hb, hk]
    simp
  | asbk ra sb float k =>
    obtain ⟨ha, hb, hc, hk⟩ :=
      Word.fields_packABC k hop ra.toNat_lt (FitsC.excess_lt h) (flag_lt float)
    rw [bits, shape, ofWord, ha, hb, hc, hk, Word.signedArg_toUInt8 h]
    cases float <;> simp
  | ak ra k =>
    obtain ⟨ha, _, _, hk⟩ := Word.fields_packABC k hop ra.toNat_lt hz hz
    rw [bits, shape, ofWord, ha, hk]
    simp
  | ac ra c =>
    obtain ⟨ha, _, hc, _⟩ := Word.fields_packABC false hop ra.toNat_lt hz c.toNat_lt
    rw [bits, shape, ofWord, ha, hc]
    simp
  | abx ra bx =>
    obtain ⟨ha, hbx⟩ := Word.fields_packABx hop ra.toNat_lt h
    rw [bits, shape, ofWord, ha, hbx]
    simp
  | asbx ra sbx =>
    obtain ⟨ha, hbx⟩ := Word.fields_packABx hop ra.toNat_lt (excessBx_lt h)
    rw [bits, shape, ofWord, ha, Word.sbx, hbx, Word.excessBx]
    have := h.1
    simp
    omega
  | sj offset =>
    rw [bits, shape, ofWord, Word.sj, Word.ax_packAx hop (excessSJ_lt h), Word.excessSJ]
    have := h.1
    simp
    omega
  | ax arg => rw [bits, shape, ofWord, Word.ax_packAx hop h]

theorem shape_ofWord (w : Word) (shape : Shape) : (ofWord w shape).shape = shape := by
  cases shape <;> rfl

theorem inRange_ofWord (w : Word) (shape : Shape) : (ofWord w shape).InRange := by
  have hbx : w.bx < 0x20000 := Nat.mod_lt _ (by omega)
  have hax : w.ax < 0x2000000 := Nat.mod_lt _ (by omega)
  cases shape with
  | absc => exact Word.fitsC_signedArg w.c
  | asbck => exact Word.fitsC_signedArg w.b
  | asbk => exact Word.fitsC_signedArg w.b
  | abx => exact hbx
  | asbx =>
    unfold InRange ofWord Word.sbx Word.excessBx
    omega
  | sj =>
    unfold InRange ofWord Word.sj Word.excessSJ
    omega
  | ax => exact hax
  | none | a | ab | abc | abck | abk | ak | ac => trivial

end Operands

namespace Instruction

theorem ofWord_toWord (i : Instruction) (h : i.WellFormed) : ofWord i.toWord = .ok i := by
  obtain ⟨hshape, hrange⟩ := h
  have hop : i.op.code < 128 := Nat.lt_trans i.op.code_lt (by omega)
  rw [ofWord, toWord, Operands.opcode_bits i.operands hop hrange, Opcode.ofCode?_code]
  dsimp only
  rw [← hshape, Operands.ofWord_bits i.operands hop hrange]

theorem wellFormed_of_ofWord {w : Word} {i : Instruction} (h : ofWord w = .ok i) :
    i.WellFormed := by
  unfold ofWord at h
  split at h
  . cases h
    exact ⟨Operands.shape_ofWord .., Operands.inRange_ofWord ..⟩
  . cases h

end Instruction

end LuaBytecode
