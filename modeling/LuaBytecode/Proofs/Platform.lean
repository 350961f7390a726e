import Mathlib
import LuaBytecode.Writer.Field
import LuaBytecode.Proofs.Single

/-!
Numbers in bytes: what is written in either byte order and either size is read back.
-/

namespace LuaBytecode
namespace ByteOrder

theorem length_leastFirst (count n : Nat) : (encode.leastFirst count n).length = count := by
  induction count generalizing n with
  | zero => rfl
  | succ count ih => rw [encode.leastFirst, List.length_cons, ih]

@[simp]
theorem length_encode (order : ByteOrder) (count n : Nat) : (order.encode count n).length = count := by
  cases order with
  | little => exact length_leastFirst count n
  | big => rw [encode, List.length_reverse, length_leastFirst]

theorem foldr_leastFirst (count n : Nat)
    : (encode.leastFirst count n).foldr (fun b n => n * 256 + b.toNat) 0 = n % 256 ^ count := by
  induction count generalizing n with
  | zero => simp [encode.leastFirst, Nat.mod_one]
  | succ count ih =>
    rw [encode.leastFirst, List.foldr_cons, ih, Nat.pow_succ', Nat.mod_mul]
    simp
    omega

theorem decode_encode (order : ByteOrder) (count n : Nat) :
    order.decode (order.encode count n) = n % 256 ^ count := by
  cases order with
  | little =>
    simp only [decode, encode]
    rw [List.foldl_reverse, foldr_leastFirst]
  | big =>
    simp only [decode, encode]
    rw [List.foldl_reverse, foldr_leastFirst]

theorem leastFirst_foldr (bs : Bytes)
    : encode.leastFirst bs.length (bs.foldr (fun b n => n * 256 + b.toNat) 0) = bs := by
  induction bs with
  | nil => rfl
  | cons b bs ih =>
    rw [List.length_cons, List.foldr_cons, encode.leastFirst]
    generalize bs.foldr (fun b n => n * 256 + b.toNat) 0 = n at ih
    have hlt := b.toNat_lt
    have hlow : (n * 256 + b.toNat).toUInt8 = b := by
      apply UInt8.toNat_inj.mp
      rw [Nat.toUInt8_eq, UInt8.toNat_ofNat']
      omega
    have hhigh : (n * 256 + b.toNat) / 256 = n := by omega
    rw [hlow, hhigh, ih]

theorem encode_decode (order : ByteOrder) (bs : Bytes) :
    order.encode bs.length (order.decode bs) = bs := by
  cases order with
  | little =>
    simp only [decode, encode]
    rw [List.foldl_reverse, leastFirst_foldr]
  | big =>
    simp only [decode, encode]
    rw [← List.foldr_reverse, ← List.length_reverse, leastFirst_foldr, List.reverse_reverse]

end ByteOrder

def Width.Holds (width : Width) (n : Int64) : Prop :=
  width = .four → -0x80000000 ≤ n.toInt ∧ n.toInt < 0x80000000

theorem Width.holds_ofInt_bmod (width : Width) (n : Nat) :
    width.Holds (Int64.ofInt (Int.bmod n width.values)) := by
  intro h
  subst h
  rw [Width.values]
  have hle := Int.le_bmod (x := n) (m := 0x100000000) (by omega)
  have hlt := Int.bmod_lt (x := n) (m := 0x100000000) (by omega)
  rw [Int64.toInt_ofInt_of_le (by omega) (by omega)]
  omega

theorem toInt_eq_bmod_toUInt64 (n : Int64) :
    n.toInt = Int.bmod n.toUInt64.toNat 0x10000000000000000 := by
  rw [← Int64.toNat_toBitVec, ← Int64.toInt_toBitVec, BitVec.toInt_eq_toNat_bmod]

theorem Width.ofInt_bmod_toUInt64 (width : Width) (n : Int64) (h : width.Holds n)
    : Int64.ofInt (Int.bmod (n.toUInt64.toNat % 256 ^ width.bytes : Nat) width.values) = n := by
  have hbmod : Int.bmod (n.toUInt64.toNat % 256 ^ width.bytes : Nat) width.values = n.toInt := by
    cases width with
    | four =>
      obtain ⟨hle, hlt⟩ := h rfl
      rw [Width.bytes, Width.values]
      have := toInt_eq_bmod_toUInt64 n
      rw [Int.bmod_def] at this ⊢
      omega
    | eight =>
      rw [Width.bytes, Width.values, toInt_eq_bmod_toUInt64]
      rw [Int.bmod_def, Int.bmod_def]
      omega
  rw [hbmod, Int64.ofInt_toInt]

end LuaBytecode
