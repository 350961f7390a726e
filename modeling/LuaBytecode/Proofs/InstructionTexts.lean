import Mathlib
import LuaBytecode.Instruction.Basic
import LuaBytecode.Proofs.Numerals

/-!
The texts of instructions can be read back. A tab stands behind the name, spaces stand between the operands,
and the mark behind them is a letter. So different instructions have different texts, but for the flag of a
comparison that no text shows.
-/

namespace LuaBytecode
namespace Bytes

theorem join_eq_intercalate (sep : Bytes) (texts : List Bytes) :
    join sep texts = sep.intercalate texts := by
  cases texts with
  | nil => rfl
  | cons text texts =>
    induction texts generalizing text with
    | nil => simp [join]
    | cons next texts ih =>
      rw [List.intercalate_cons_cons, ← ih next]
      simp [join]

def words (sep : UInt8) (bytes : Bytes) : List Bytes :=
  (bytes.splitOn sep).filter (· ≠ [])

theorem words_join {sep : UInt8} {texts : List Bytes} (h : ∀ text ∈ texts, text ≠ [] ∧ sep ∉ text) :
    words sep (join [sep] texts) = texts := by
  cases texts with
  | nil => rfl
  | cons text texts =>
    have hsep := List.splitOn_intercalate sep (fun text htext => (h text htext).2)
      (List.cons_ne_nil text texts)
    rw [words, join_eq_intercalate, hsep, List.filter_eq_self]
    intro text htext
    exact decide_eq_true (h text htext).1

theorem mem_join {sep b : UInt8} {texts : List Bytes} (h : b ∈ join [sep] texts) :
    b = sep ∨ ∃ text ∈ texts, b ∈ text := by
  cases texts with
  | nil => cases h
  | cons text texts =>
    simp only [join, List.singleton_append, List.mem_append, List.mem_flatMap, List.mem_cons] at h
    obtain hfirst | ⟨other, hother, hsep | hmem⟩ := h
    . exact .inr ⟨text, List.mem_cons_self .., hfirst⟩
    . exact .inl hsep
    . exact .inr ⟨other, List.mem_cons_of_mem _ hother, hmem⟩

theorem decimal_ne_nil (n : Int) : decimal n ≠ [] := by
  cases n with
  | ofNat n => exact digits_ne_nil 10 n
  | negSucc n => exact List.cons_ne_nil _ _

end Bytes

namespace Opcode

def column (op : Opcode) : Bytes :=
  utf8 op.name ++ List.replicate (9 - (utf8 op.name).length) (Bytes.ofChar ' ')

theorem mem_all (op : Opcode) : op ∈ all := by
  cases op <;> decide

theorem column_inj {op op' : Opcode} (h : op.column = op'.column) : op = op' := by
  have hnodup : (all.map column).Nodup := by decide +kernel
  exact List.inj_on_of_nodup_map hnodup (mem_all op) (mem_all op') h

theorem tab_notMem_column (op : Opcode) : Bytes.ofChar '\t' ∉ op.column := by
  cases op <;> decide

end Opcode

namespace Operands

def numerals (o : Operands) : Bytes :=
  Bytes.join [Bytes.ofChar ' '] (o.listed.map Bytes.decimal)

theorem notMem_numerals {b : UInt8} (o : Operands) (hspace : b ≠ Bytes.ofChar ' ')
    (hsign : b ≠ Bytes.ofChar '-') (hdigit : ¬(48 ≤ b.toNat ∧ b.toNat ≤ 57)) : b ∉ o.numerals := by
  intro hmem
  cases Bytes.mem_join hmem with
  | inl hsep => exact hspace hsep
  | inr hnumeral =>
    obtain ⟨text, htext, hb⟩ := hnumeral
    obtain ⟨n, _, rfl⟩ := List.mem_map.mp htext
    exact (Bytes.mem_decimal hb).elim hsign hdigit

theorem words_numerals (o : Operands) :
    Bytes.words (Bytes.ofChar ' ') o.numerals = o.listed.map Bytes.decimal := by
  apply Bytes.words_join
  intro text htext
  obtain ⟨n, _, rfl⟩ := List.mem_map.mp htext
  refine ⟨Bytes.decimal_ne_nil n, ?_⟩
  intro hspace
  cases Bytes.mem_decimal hspace with
  | inl hsign => exact absurd hsign (by decide)
  | inr hdigit => exact absurd hdigit.1 (by decide)

theorem listed_eq_of_numerals_eq {o o' : Operands} (h : o.numerals = o'.numerals) :
    o.listed = o'.listed := by
  have hwords := congrArg (Bytes.words (Bytes.ofChar ' ')) h
  rw [words_numerals, words_numerals] at hwords
  exact List.map_injective_iff.mpr (fun _ _ => Bytes.decimal_inj) hwords

theorem mark_eq (o : Operands)
    : o.mark = if Bytes.ofChar 'k' ∈ o.numerals ++ utf8 o.mark then "k" else "" := by
  have hor : o.mark = "k" ∨ o.mark = "" := by
    unfold mark
    split
    . exact .inl rfl
    . exact .inr rfl
  cases hor with
  | inl hmark =>
    rw [hmark, if_pos]
    exact List.mem_append_right _ (by decide)
  | inr hmark =>
    rw [hmark, if_neg]
    rw [List.mem_append, not_or]
    exact ⟨notMem_numerals o (by decide) (by decide) (by decide), by decide⟩

/--
The operands without the flag of a comparison that tells whether its number was written as a float.
-/
def withoutFloat : Operands → Operands
  | .asbk ra sb _ k => .asbk ra sb false k
  | o => o

def ofListed (mark : String) : Shape → List Int → Operands
  | .a, [ra] => .a (byte ra)
  | .ab, [ra, b] => .ab (byte ra) (byte b)
  | .abc, [ra, b, c] => .abc (byte ra) (byte b) (byte c)
  | .absc, [ra, b, sc] => .absc (byte ra) (byte b) sc
  | .abck, [ra, b, c] => .abck (byte ra) (byte b) (byte c) (mark = "k")
  | .asbck, [ra, sb, c, k] => .asbck (byte ra) sb (byte c) (k = 1)
  | .abk, [ra, b, k] => .abk (byte ra) (byte b) (k = 1)
  | .asbk, [ra, sb, k] => .asbk (byte ra) sb false (k = 1)
  | .ak, [ra, k] => .ak (byte ra) (k = 1)
  | .ac, [ra, c] => .ac (byte ra) (byte c)
  | .abx, [ra, bx] => .abx (byte ra) bx.toNat
  | .asbx, [ra, sbx] => .asbx (byte ra) sbx
  | .sj, [offset] => .sj offset
  | .ax, [arg] => .ax arg.toNat
  | _, _ => .none
where
  byte (n : Int) : UInt8 :=
    n.toNat.toUInt8

theorem ofListed_listed (o : Operands) : ofListed o.mark o.shape o.listed = o.withoutFloat := by
  have hmark : ∀ ra b c k, decide ((abck ra b c k).mark = "k") = k := by
    intro ra b c k
    cases k <;> simp [mark]
  cases o <;> simp [ofListed, ofListed.byte, shape, listed, withoutFloat, hmark]

theorem listed_withoutFloat (o : Operands) : o.withoutFloat.listed = o.listed := by
  cases o <;> rfl

theorem mark_withoutFloat (o : Operands) : o.withoutFloat.mark = o.mark := by
  cases o <;> rfl

end Operands

namespace Instruction

theorem text_eq (i : Instruction)
    : i.text
        =
      i.op.column ++ Bytes.ofChar '\t' :: (i.operands.numerals ++ utf8 i.operands.mark) := by
  simp only [text, Opcode.column, List.append_assoc, List.singleton_append]
  rfl

theorem tab_notMem_operands (i : Instruction) :
    Bytes.ofChar '\t' ∉ i.operands.numerals ++ utf8 i.operands.mark := by
  rw [List.mem_append, not_or, Operands.mark_eq]
  refine ⟨Operands.notMem_numerals i.operands (by decide) (by decide) (by decide), ?_⟩
  split <;> decide

theorem parts_eq_of_text_eq {i j : Instruction} (h : i.text = j.text)
    : i.op = j.op ∧ i.operands.listed = j.operands.listed ∧ i.operands.mark = j.operands.mark := by
  rw [text_eq, text_eq, List.append_cons_inj_of_notMem (Opcode.tab_notMem_column i.op)
    (tab_notMem_operands i)] at h
  obtain ⟨hcolumn, _, hoperands⟩ := h
  have hmark : i.operands.mark = j.operands.mark := by
    rw [Operands.mark_eq i.operands, hoperands, ← Operands.mark_eq]
  rw [hmark, List.append_cancel_right_eq] at hoperands
  exact ⟨Opcode.column_inj hcolumn, Operands.listed_eq_of_numerals_eq hoperands, hmark⟩

/--
Instructions with the same text have the same opcode and the same operands, but for the flag of a comparison
that tells whether its number was written as a float. No text shows that flag.
-/
theorem text_eq_text_iff (i j : Instruction) (hi : i.WellFormed) (hj : j.WellFormed)
    : i.text = j.text ↔ i.op = j.op ∧ i.operands.withoutFloat = j.operands.withoutFloat := by
  constructor
  . intro h
    obtain ⟨hop, hlisted, hmark⟩ := parts_eq_of_text_eq h
    have hshape : i.operands.shape = j.operands.shape := by rw [hi.1, hj.1, hop]
    refine ⟨hop, ?_⟩
    rw [← Operands.ofListed_listed, hmark, hshape, hlisted, Operands.ofListed_listed]
  . rintro ⟨hop, hoperands⟩
    have hlisted := congrArg Operands.listed hoperands
    have hmark := congrArg Operands.mark hoperands
    rw [Operands.listed_withoutFloat, Operands.listed_withoutFloat] at hlisted
    rw [Operands.mark_withoutFloat, Operands.mark_withoutFloat] at hmark
    rw [text_eq, text_eq, hop, hmark, Operands.numerals, hlisted, Operands.numerals]

theorem text_eq_text_iff_comparison
    : (⟨.ltI, .asbk 2 3 true false⟩ : Instruction).text = utf8 "LTI      \t2 3 0"
        ∧ (⟨.ltI, .asbk 2 3 true false⟩ : Instruction).text
            = (⟨.ltI, .asbk 2 3 false false⟩ : Instruction).text
        ∧ (⟨.setField, .abck 0 1 2 true⟩ : Instruction).text
            ≠ (⟨.setField, .abck 0 1 2 false⟩ : Instruction).text := by
  have hcomparison : ∀ float, (⟨.ltI, .asbk 2 3 float false⟩ : Instruction).WellFormed :=
    fun _ => ⟨rfl, by decide, by decide⟩
  have hstore : ∀ k, (⟨.setField, .abck 0 1 2 k⟩ : Instruction).WellFormed :=
    fun _ => ⟨rfl, trivial⟩
  refine ⟨by decide +kernel, ?_, ?_⟩
  . exact (text_eq_text_iff _ _ (hcomparison true) (hcomparison false)).mpr ⟨rfl, rfl⟩
  . rw [Ne, text_eq_text_iff _ _ (hstore true) (hstore false)]
    decide

end Instruction

end LuaBytecode
