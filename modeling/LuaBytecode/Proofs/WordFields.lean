import Mathlib
import LuaBytecode.Proofs.Word

/-!
The fields of instruction words, as bits. Which fields a shape uses decides what is left of a word when it
is unpacked and packed again: their bits, and zeros in place of all others. So words are told apart by
these fields and by nothing else.
-/

namespace LuaBytecode

/--
A field of an instruction word. A jump offset has the field of `Ax`.
-/
inductive WordField where
  | opcode | a | k | b | c | bx | ax
  deriving DecidableEq

namespace WordField

def unit : WordField → Nat
  | .opcode => 1
  | .a => 0x80
  | .k => 0x8000
  | .b => 0x10000
  | .c => 0x1000000
  | .bx => 0x8000
  | .ax => 0x80

def size : WordField → Nat
  | .opcode => 0x80
  | .a => 0x100
  | .k => 2
  | .b => 0x100
  | .c => 0x100
  | .bx => 0x20000
  | .ax => 0x2000000

def value (f : WordField) (w : Word) : Nat :=
  w.field f.unit f.size

def part (f : WordField) (w : Word) : Nat :=
  f.unit * f.value w

def mask (f : WordField) : Nat :=
  f.unit * (f.size - 1)

def union (fields : List WordField) : Nat :=
  fields.foldr (fun f bits => f.mask ||| bits) 0

def Ascending (fields : List WordField) : Prop :=
  fields.Pairwise fun f g => f.unit * f.size ∣ g.unit

theorem unit_eq_two_pow (f : WordField) : ∃ start, f.unit = 2 ^ start := by
  cases f with
  | opcode => exact ⟨0, by norm_num [unit]⟩
  | a => exact ⟨7, by norm_num [unit]⟩
  | k => exact ⟨15, by norm_num [unit]⟩
  | b => exact ⟨16, by norm_num [unit]⟩
  | c => exact ⟨24, by norm_num [unit]⟩
  | bx => exact ⟨15, by norm_num [unit]⟩
  | ax => exact ⟨7, by norm_num [unit]⟩

theorem size_eq_two_pow (f : WordField) : ∃ width, f.size = 2 ^ width := by
  cases f with
  | opcode => exact ⟨7, by norm_num [size]⟩
  | a => exact ⟨8, by norm_num [size]⟩
  | k => exact ⟨1, by norm_num [size]⟩
  | b => exact ⟨8, by norm_num [size]⟩
  | c => exact ⟨8, by norm_num [size]⟩
  | bx => exact ⟨17, by norm_num [size]⟩
  | ax => exact ⟨25, by norm_num [size]⟩

theorem value_lt (f : WordField) (w : Word) : f.value w < f.size := by
  apply Nat.mod_lt
  cases f <;> decide

theorem part_lt (f : WordField) (w : Word) : f.part w < f.unit * f.size := by
  apply Nat.mul_lt_mul_of_pos_left (f.value_lt w)
  cases f <;> decide

theorem and_mask (f : WordField) (w : Word) : w.toNat &&& f.mask = f.part w := by
  obtain ⟨start, hstart⟩ := f.unit_eq_two_pow
  obtain ⟨width, hwidth⟩ := f.size_eq_two_pow
  rw [part, mask, value, Word.field, hstart, hwidth, Nat.mul_comm, Nat.mul_comm (2 ^ start),
    ← Nat.shiftLeft_eq, ← Nat.shiftLeft_eq, ← Nat.shiftRight_eq_div_pow, ← Nat.and_two_pow_sub_one_eq_mod]
  apply Nat.eq_of_testBit_eq
  intro i
  simp only [Nat.testBit_and, Nat.testBit_shiftLeft, Nat.testBit_shiftRight]
  by_cases hi : start ≤ i
  . simp [hi]
  . simp [hi]

theorem and_union (w : Word) {fields : List WordField} (h : Ascending fields) :
    w.toNat &&& union fields = (fields.map (part · w)).sum := by
  induction fields with
  | nil => simp [union]
  | cons f fields ih =>
    have hfields := List.pairwise_cons.mp h
    have ih := ih hfields.2
    have hdvd : f.unit * f.size ∣ (fields.map (part · w)).sum := by
      apply List.dvd_sum
      intro n hn
      obtain ⟨g, hg, rfl⟩ := List.mem_map.mp hn
      exact Dvd.dvd.mul_right (hfields.1 g hg) _
    obtain ⟨high, hhigh⟩ := hdvd
    obtain ⟨start, hstart⟩ := f.unit_eq_two_pow
    obtain ⟨width, hwidth⟩ := f.size_eq_two_pow
    have hlow := f.part_lt w
    rw [hstart, hwidth, ← Nat.pow_add] at hhigh hlow
    rw [union] at ih ⊢
    rw [List.foldr_cons, Nat.and_or_distrib_left, and_mask, ih, List.map_cons, List.sum_cons, hhigh,
      Nat.mul_comm, ← Nat.shiftLeft_eq, Nat.or_comm, ← Nat.shiftLeft_add_eq_or_of_lt hlow, Nat.add_comm]

end WordField

def Word.only (w : Word) (fields : List WordField) : Word :=
  w &&& (WordField.union fields).toUInt32

theorem Word.toNat_only (w : Word) {fields : List WordField} (h : WordField.Ascending fields) :
    (w.only fields).toNat = (fields.map (WordField.part · w)).sum := by
  have hlt : w.toNat &&& WordField.union fields < 2 ^ 32 := Nat.lt_of_le_of_lt Nat.and_le_left w.toNat_lt
  calc (w.only fields).toNat
    _ = w.toNat &&& WordField.union fields % 2 ^ 32 := by
      rw [only, UInt32.toNat_and, UInt32.toNat_ofNat']
    _ = w.toNat % 2 ^ 32 &&& WordField.union fields % 2 ^ 32 := by
      rw [Nat.mod_eq_of_lt w.toNat_lt]
    _ = w.toNat &&& WordField.union fields := by
      rw [← Nat.and_mod_two_pow, Nat.mod_eq_of_lt hlt]
    _ = (fields.map (WordField.part · w)).sum := WordField.and_union w h

namespace Shape

def fields : Shape → List WordField
  | .none => []
  | .a => [.a]
  | .ab => [.a, .b]
  | .abc => [.a, .b, .c]
  | .absc => [.a, .b, .c]
  | .abck => [.a, .k, .b, .c]
  | .asbck => [.a, .k, .b, .c]
  | .abk => [.a, .k, .b]
  | .asbk => [.a, .k, .b]
  | .ak => [.a, .k]
  | .ac => [.a, .c]
  | .abx => [.a, .bx]
  | .asbx => [.a, .bx]
  | .sj => [.ax]
  | .ax => [.ax]

theorem ascending_fields (shape : Shape) : WordField.Ascending (.opcode :: shape.fields) := by
  unfold WordField.Ascending
  cases shape <;> decide

end Shape

namespace Word

/--
The word with zeros in the fields that the shape does not use. Of `C`, the shape `asbk` uses only whether
it is zero.
-/
def normal (w : Word) (shape : Shape) : Word :=
  if shape = .asbk ∧ w.c ≠ 0 then w.only (.opcode :: shape.fields) ||| 0x1000000
  else w.only (.opcode :: shape.fields)

def Agree (shape : Shape) (w w' : Word) : Prop :=
  (∀ f ∈ shape.fields, f.value w = f.value w') ∧ (shape = .asbk → (w.c = 0 ↔ w'.c = 0))

theorem toNat_a (w : Word) : w.a.toNat = WordField.value .a w :=
  UInt8.toNat_ofNat_of_lt' (WordField.value_lt .a w)

theorem toNat_b (w : Word) : w.b.toNat = WordField.value .b w :=
  UInt8.toNat_ofNat_of_lt' (WordField.value_lt .b w)

theorem toNat_c (w : Word) : w.c.toNat = WordField.value .c w :=
  UInt8.toNat_ofNat_of_lt' (WordField.value_lt .c w)

theorem toNat_k (w : Word) : w.k.toNat = WordField.value .k w := by
  have hk : WordField.value .k w < 2 := WordField.value_lt .k w
  change (WordField.value .k w == 1).toNat = WordField.value .k w
  interval_cases WordField.value .k w <;> rfl

theorem opcode_eq_value (w : Word) : w.opcode = WordField.value .opcode w :=
  rfl

theorem bx_eq_value (w : Word) : w.bx = WordField.value .bx w :=
  rfl

theorem ax_eq_value (w : Word) : w.ax = WordField.value .ax w :=
  rfl

theorem a_eq_iff (w w' : Word) : w.a = w'.a ↔ WordField.value .a w = WordField.value .a w' := by
  rw [← toNat_a, ← toNat_a, UInt8.toNat_inj]

theorem b_eq_iff (w w' : Word) : w.b = w'.b ↔ WordField.value .b w = WordField.value .b w' := by
  rw [← toNat_b, ← toNat_b, UInt8.toNat_inj]

theorem c_eq_iff (w w' : Word) : w.c = w'.c ↔ WordField.value .c w = WordField.value .c w' := by
  rw [← toNat_c, ← toNat_c, UInt8.toNat_inj]

theorem k_eq_iff (w w' : Word) : w.k = w'.k ↔ WordField.value .k w = WordField.value .k w' := by
  rw [← toNat_k, ← toNat_k]
  cases w.k <;> cases w'.k <;> simp

theorem sbx_eq_iff (w w' : Word) : w.sbx = w'.sbx ↔ WordField.value .bx w = WordField.value .bx w' := by
  rw [sbx, sbx, Int.sub_left_inj, Int.natCast_inj]
  rfl

theorem sj_eq_iff (w w' : Word) : w.sj = w'.sj ↔ WordField.value .ax w = WordField.value .ax w' := by
  rw [sj, sj, Int.sub_left_inj, Int.natCast_inj]
  rfl

theorem toNat_signedArg_add (arg : UInt8) : (signedArg arg + excessC).toNat = arg.toNat := by
  simp [signedArg]

theorem signedArg_eq_iff {arg arg' : UInt8} : signedArg arg = signedArg arg' ↔ arg = arg' := by
  simp [signedArg, UInt8.toNat_inj]

theorem and_opcode_mask (w : Word) : (w &&& 0x7f).toNat = w.opcode := by
  rw [UInt32.toNat_and, opcode_eq_value, ← Nat.one_mul (WordField.value .opcode w)]
  exact WordField.and_mask .opcode w

theorem toNat_normal (w : Word) (shape : Shape)
    : (w.normal shape).toNat
        =
      w.opcode + ((shape.fields.map (WordField.part · w)).sum
        + if shape = .asbk ∧ w.c ≠ 0 then WordField.unit .c else 0) := by
  have honly : (w.only (.opcode :: shape.fields)).toNat
      = w.opcode + (shape.fields.map (WordField.part · w)).sum := by
    rw [toNat_only w shape.ascending_fields, List.map_cons, List.sum_cons, WordField.part,
      WordField.unit, Nat.one_mul, opcode_eq_value]
  unfold normal
  split
  . next h =>
    have hlow : (w.only (.opcode :: shape.fields)).toNat < 2 ^ 24 := by
      have hop := WordField.value_lt .opcode w
      have ha := WordField.value_lt .a w
      have hk := WordField.value_lt .k w
      have hb := WordField.value_lt .b w
      rw [honly, h.1, opcode_eq_value]
      simp only [Shape.fields, List.map_cons, List.map_nil, List.sum_cons, List.sum_nil, WordField.part,
        WordField.unit, WordField.size] at hop ha hk hb ⊢
      omega
    rw [UInt32.toNat_or, Nat.or_comm, UInt32.toNat_ofNat, ← Nat.add_assoc, ← honly, Nat.add_comm]
    exact (Nat.two_pow_add_eq_or_of_lt hlow 1).symm
  . rw [honly, Nat.add_zero]

end Word

namespace Operands

theorem packABC_eq (a b c : Nat) (k : Bool)
    : packABC a b c k
        =
      WordField.unit .a * a
        + (WordField.unit .k * k.toNat + (WordField.unit .b * b + WordField.unit .c * c)) := by
  simp only [packABC, WordField.unit]
  omega

theorem packABx_eq (a bx : Nat) :
    packABx a bx = WordField.unit .a * a + WordField.unit .bx * bx := by
  simp only [packABx, WordField.unit]
  omega

theorem bits_ofWord (w : Word) (shape : Shape)
    : (ofWord w shape).bits
        =
      (shape.fields.map (WordField.part · w)).sum
        + if shape = .asbk ∧ w.c ≠ 0 then WordField.unit .c else 0 := by
  cases shape with
  | asbk =>
    by_cases hc : w.c = 0
    . simp [ofWord, bits, packABC_eq, Shape.fields, WordField.part, Word.toNat_signedArg_add, Word.toNat_a,
        Word.toNat_b, Word.toNat_k, hc]
    . have hflag : (w.c != 0) = true := bne_iff_ne.mpr hc
      simp [ofWord, bits, packABC_eq, Shape.fields, WordField.part, Word.toNat_signedArg_add, Word.toNat_a,
        Word.toNat_b, Word.toNat_k, hc, hflag, Nat.add_assoc]
  | abx =>
    simp [ofWord, bits, packABx_eq, Shape.fields, WordField.part, Word.toNat_a, Word.bx_eq_value]
  | asbx =>
    simp [ofWord, bits, packABx_eq, Shape.fields, WordField.part, Word.toNat_a, Word.sbx, Word.bx_eq_value]
  | sj =>
    simp [ofWord, bits, Shape.fields, WordField.part, Word.sj, Word.ax_eq_value, WordField.unit, Nat.mul_comm]
  | ax =>
    simp [ofWord, bits, Shape.fields, WordField.part, Word.ax_eq_value, WordField.unit, Nat.mul_comm]
  | none | a | ab | abc | absc | abck | asbck | abk | ak | ac =>
    simp [ofWord, bits, packABC_eq, Shape.fields, WordField.part, Word.toNat_signedArg_add, Word.toNat_a,
      Word.toNat_b, Word.toNat_c, Word.toNat_k]

theorem ofWord_eq_iff (w w' : Word) (shape : Shape) :
    ofWord w shape = ofWord w' shape ↔ Word.Agree shape w w' := by
  cases shape with
  | asbk =>
    have hc : (w.c != 0) = (w'.c != 0) ↔ (w.c = 0 ↔ w'.c = 0) := by
      rw [Bool.eq_iff_iff, bne_iff_ne, bne_iff_ne, not_iff_not]
    simp [ofWord, Word.Agree, Shape.fields, Word.signedArg_eq_iff, Word.a_eq_iff w, Word.b_eq_iff w,
      Word.k_eq_iff w, hc]
    tauto
  | abck | asbck | abk =>
    simp [ofWord, Word.Agree, Shape.fields, Word.signedArg_eq_iff, Word.a_eq_iff w, Word.b_eq_iff w,
      Word.c_eq_iff w, Word.k_eq_iff w]
    tauto
  | none | a | ab | abc | absc | ak | ac | abx | asbx | sj | ax =>
    simp [ofWord, Word.Agree, Shape.fields, Word.signedArg_eq_iff, Word.a_eq_iff w, Word.b_eq_iff w,
      Word.c_eq_iff w, Word.k_eq_iff w, Word.sbx_eq_iff w, Word.sj_eq_iff w, Word.bx_eq_value,
      Word.ax_eq_value]

end Operands

theorem Opcode.code_inj {op op' : Opcode} (h : op.code = op'.code) : op = op' := by
  have hop := ofCode?_code op
  rw [h, ofCode?_code] at hop
  exact (Option.some.inj hop).symm

theorem Opcode.code_of_ofCode? {code : Nat} {op : Opcode} (h : ofCode? code = some op) :
    op.code = code := by
  have hnodup : all.Nodup := by decide
  obtain ⟨hcode, hop⟩ := List.getElem?_eq_some_iff.mp h
  obtain ⟨hlt, hop'⟩ := List.getElem?_eq_some_iff.mp (ofCode?_code op)
  exact hnodup.getElem_inj_iff.mp (hop'.trans hop.symm)

namespace Instruction

theorem ofWord_eq_ok_iff {w : Word} {i : Instruction} :
    ofWord w = .ok i ↔ i.op.code = w.opcode ∧ i.operands = .ofWord w i.op.shape := by
  unfold ofWord
  constructor
  . intro h
    split at h
    . next op hop =>
      cases h
      exact ⟨Opcode.code_of_ofCode? hop, rfl⟩
    . cases h
  . rintro ⟨hop, hoperands⟩
    rw [← hop, Opcode.ofCode?_code]
    dsimp only
    rw [← hoperands]

theorem exists_error_ofWord_iff (w : Word) : (∃ e, ofWord w = .error e) ↔ 83 ≤ w.opcode := by
  rw [← Opcode.ofCode?_eq_none_iff, ofWord]
  cases Opcode.ofCode? w.opcode with
  | none => simp
  | some op => simp

theorem toWord_of_ofWord {w : Word} {i : Instruction} (h : ofWord w = .ok i) :
    i.toWord = w.normal i.op.shape := by
  obtain ⟨hop, hoperands⟩ := ofWord_eq_ok_iff.mp h
  rw [toWord, hoperands, hop, Operands.bits_ofWord, ← Word.toNat_normal]
  exact UInt32.ofNat_toNat

theorem eq_mk_ofWord {i : Instruction} (h : i.WellFormed) : i = ⟨i.op, .ofWord i.toWord i.op.shape⟩ := by
  obtain ⟨_, hoperands⟩ := ofWord_eq_ok_iff.mp (ofWord_toWord i h)
  rw [← hoperands]

/--
Words are unpacked exactly: a word fails if its opcode has no name, an instruction is what is unpacked from
its word, packing again changes only the bits that the shape does not use, and words give the same
instruction if they agree on all others.
-/
theorem ofWord_exact
    : (∀ w : Word, (∃ e, ofWord w = .error e) ↔ 83 ≤ (w &&& 0x7f).toNat)
        ∧ (∀ i : Instruction, i.WellFormed → ofWord i.toWord = .ok i)
        ∧ (∀ w : Word, (w &&& 0x7f).toNat < 83 →
            ∃ i, ofWord w = .ok i ∧ i.WellFormed ∧ i.toWord = w.normal i.op.shape)
        ∧ ∀ (w w' : Word) (i i' : Instruction), ofWord w = .ok i → ofWord w' = .ok i' →
            (i = i' ↔ (w &&& 0x7f) = (w' &&& 0x7f) ∧ Word.Agree i.op.shape w w') := by
  refine ⟨?_, ofWord_toWord, ?_, ?_⟩
  . intro w
    rw [Word.and_opcode_mask]
    exact exists_error_ofWord_iff w
  . intro w hw
    rw [Word.and_opcode_mask] at hw
    cases hword : ofWord w with
    | ok i => exact ⟨i, rfl, wellFormed_of_ofWord hword, toWord_of_ofWord hword⟩
    | error e => exact absurd ((exists_error_ofWord_iff w).mp ⟨e, hword⟩) (Nat.not_le.mpr hw)
  . intro w w' i i' h h'
    obtain ⟨hop, hoperands⟩ := ofWord_eq_ok_iff.mp h
    obtain ⟨hop', hoperands'⟩ := ofWord_eq_ok_iff.mp h'
    rw [← UInt32.toNat_inj, Word.and_opcode_mask, Word.and_opcode_mask, ← hop, ← hop',
      ← Operands.ofWord_eq_iff, ← hoperands]
    constructor
    . rintro rfl
      exact ⟨rfl, hoperands'⟩
    . rintro ⟨hcode, hsame⟩
      have hsameOp := Opcode.code_inj hcode
      rw [hsameOp, ← hoperands'] at hsame
      cases i
      cases i'
      rw [Instruction.mk.injEq]
      exact ⟨hsameOp, hsame⟩

theorem ofWord_exact_comparison
    : (∃ e, ofWord 0x7f = .error e)
        ∧ ofWord (toWord ⟨.eqI, .asbk 1 (-127) true true⟩) = .ok ⟨.eqI, .asbk 1 (-127) true true⟩
        ∧ (∃ i, ofWord 0x058280bd = .ok i ∧ i.WellFormed ∧ i.toWord = Word.normal 0x058280bd i.op.shape)
        ∧ Word.normal 0x058280bd .asbk = 0x018280bd
        ∧ Word.Agree .asbk 0x058280bd 0x018280bd := by
  obtain ⟨hfails, hpacked, hunpacked, hagree⟩ := ofWord_exact
  refine ⟨(hfails 0x7f).mpr (by decide), hpacked _ ⟨rfl, by decide, by decide⟩, hunpacked _ (by decide),
    by decide, ?_⟩
  have h : ofWord 0x058280bd = .ok ⟨.eqI, .asbk 1 3 true true⟩ := by decide
  have h' : ofWord 0x018280bd = .ok ⟨.eqI, .asbk 1 3 true true⟩ := by decide
  exact ((hagree _ _ _ _ h h').mp rfl).2

end Instruction

end LuaBytecode
