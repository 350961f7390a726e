import Mathlib
import LuaBytecode.Bytes
import LuaBytecode.Number.Numeral

/-!
Numerals can be read back: their digits, from the first to the last, give the number. So different numbers
have different numerals, in every base up to sixteen and for integers of both signs.
-/

namespace LuaBytecode

theorem utf8_append (a b : String) : utf8 (a ++ b) = utf8 a ++ utf8 b := by
  rw [utf8, String.toList_append, List.flatMap_append]
  rfl

theorem utf8_ofList_of_ascii {chars : List Char} (h : ∀ c ∈ chars, c.toNat < 0x80) :
    utf8 (String.ofList chars) = chars.map Bytes.ofChar := by
  rw [utf8, String.toList_ofList, List.map_eq_flatMap]
  apply List.flatMap_congr
  intro c hc
  have hle : c.toNat ≤ 0x7f := Nat.le_of_lt_succ (h c hc)
  simp [String.utf8EncodeChar, Char.toNat_val, hle, Bytes.ofChar]

namespace Bytes

def ofDigit (d : Nat) : UInt8 :=
  ofChar d.digitChar

theorem digit?_ofDigit {d : Nat} (h : d < 16) : Numeral.digit? (ofDigit d) = some d := by
  interval_cases d <;> rfl

theorem toNat_ofDigit {d : Nat} (h : d < 10) : (ofDigit d).toNat = 48 + d := by
  interval_cases d <;> rfl

theorem digits_eq_if {base : Nat} (hbase : 1 < base) (n : Nat)
    : digits base n
        =
      if n < base then [ofDigit n] else digits base (n / base) ++ [ofDigit (n % base)] := by
  rw [digits, Nat.toDigits_eq_if hbase]
  split
  . rfl
  . rw [List.map_append]
    rfl

theorem digits_ne_nil (base n : Nat) : digits base n ≠ [] := by
  rw [digits, Ne, List.map_eq_nil_iff]
  exact Nat.toDigits_ne_nil

theorem exists_of_mem_digits {base n : Nat} {b : UInt8} (hbase : 1 < base) (h : b ∈ digits base n) :
    ∃ d < base, b = ofDigit d := by
  induction n using Nat.strongRecOn with
  | ind n ih =>
    rw [digits_eq_if hbase] at h
    split at h
    . next hn =>
      rw [List.mem_singleton] at h
      exact ⟨n, hn, h⟩
    . next hn =>
      rw [List.mem_append, List.mem_singleton] at h
      cases h with
      | inl hhigh => exact ih (n / base) (Nat.div_lt_self (by omega) hbase) hhigh
      | inr hlast => exact ⟨n % base, Nat.mod_lt n (by omega), hlast⟩

def valueAfter (base n : Nat) (bytes : Bytes) : Nat :=
  bytes.foldl (fun n b => n * base + (Numeral.digit? b).getD 0) n

theorem valueAfter_digits {base : Nat} (hbase : 1 < base) (hle : base ≤ 16) (n : Nat) :
    valueAfter base 0 (digits base n) = n := by
  induction n using Nat.strongRecOn with
  | ind n ih =>
    rw [digits_eq_if hbase]
    split
    . next hn => simp [valueAfter, digit?_ofDigit (Nat.lt_of_lt_of_le hn hle)]
    . next hn =>
      have ih := ih (n / base) (Nat.div_lt_self (by omega) hbase)
      have hlast : n % base < 16 := Nat.lt_of_lt_of_le (Nat.mod_lt n (by omega)) hle
      rw [valueAfter] at ih
      rw [valueAfter, List.foldl_append, ih, List.foldl_cons, List.foldl_nil, digit?_ofDigit hlast]
      exact Nat.div_add_mod' n base

theorem digits_inj {base m n : Nat} (hbase : 1 < base) (hle : base ≤ 16)
    (h : digits base m = digits base n) : m = n := by
  rw [← valueAfter_digits hbase hle m, h, valueAfter_digits hbase hle n]

theorem mem_digits_ten {n : Nat} {b : UInt8} (h : b ∈ digits 10 n) : 48 ≤ b.toNat ∧ b.toNat ≤ 57 := by
  obtain ⟨d, hd, rfl⟩ := exists_of_mem_digits (by decide) h
  rw [toNat_ofDigit hd]
  omega

theorem decimal_inj {m n : Int} (h : decimal m = decimal n) : m = n := by
  have hminus : ∀ k, ofChar '-' ∉ digits 10 k := by
    intro k hmem
    exact absurd (mem_digits_ten hmem).1 (by decide)
  cases m with
  | ofNat m =>
    cases n with
    | ofNat n => rw [digits_inj (by decide) (by decide) h]
    | negSucc n =>
      rw [decimal, decimal] at h
      exact absurd (h ▸ List.mem_cons_self ..) (hminus m)
  | negSucc m =>
    cases n with
    | ofNat n =>
      rw [decimal, decimal] at h
      exact absurd (h ▸ List.mem_cons_self ..) (hminus n)
    | negSucc n =>
      rw [decimal, decimal, List.cons.injEq] at h
      have hsucc := digits_inj (by decide) (by decide) h.2
      rw [Nat.succ.inj hsucc]

theorem mem_decimal {n : Int} {b : UInt8} (h : b ∈ decimal n) :
    b = ofChar '-' ∨ 48 ≤ b.toNat ∧ b.toNat ≤ 57 := by
  cases n with
  | ofNat n => exact .inr (mem_digits_ten h)
  | negSucc n =>
    cases List.mem_cons.mp h with
    | inl hsign => exact .inl hsign
    | inr hdigit => exact .inr (mem_digits_ten hdigit)

theorem toNat_of_mem_toDigits {n : Nat} {c : Char} (h : c ∈ Nat.toDigits 10 n) :
    48 ≤ c.toNat ∧ c.toNat ≤ 57 := by
  have hdigit := Nat.isDigit_of_mem_toDigits (by decide) (by decide) h
  simpa [Char.isDigit, UInt32.le_iff_toNat_le] using hdigit

theorem utf8_toString (n : Nat) : utf8 (toString n) = digits 10 n := by
  rw [Nat.toString_eq_ofList_toDigits, utf8_ofList_of_ascii, digits]
  intro c hc
  have hrange := toNat_of_mem_toDigits hc
  omega

end Bytes

end LuaBytecode
