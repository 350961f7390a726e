import Mathlib
import LuaBytecode.Number.Binary64

/-!
Widening a single precision number and narrowing it again gives the number back.
-/

namespace LuaBytecode
namespace Binary64

section Fields

variable {sign exponent fraction : Nat} (hs : sign ≤ 1) (he : exponent < 2048)
  (hf : fraction < 0x10000000000000)

include hs he hf

theorem toNat_bits_ofFields
    : (ofFields sign exponent fraction).bits.toNat
        =
      sign * 0x8000000000000000 + exponent * 0x10000000000000 + fraction := by
  simp [ofFields, signUnit, fractionSize]
  omega

theorem isNegative_ofFields : (ofFields sign exponent fraction).isNegative = (sign == 1) := by
  rw [isNegative, toNat_bits_ofFields hs he hf, signUnit, Bool.eq_iff_iff]
  simp
  omega

theorem exponentField_ofFields : (ofFields sign exponent fraction).exponentField = exponent := by
  rw [exponentField, toNat_bits_ofFields hs he hf, fractionSize]
  omega

theorem fractionField_ofFields : (ofFields sign exponent fraction).fractionField = fraction := by
  rw [fractionField, toNat_bits_ofFields hs he hf, fractionSize]
  omega

theorem value_ofFields_of_normal (hpos : 0 < exponent) (hfinite : exponent < 2047)
    : (ofFields sign exponent fraction).value
        =
      .finite (sign == 1) (fraction + 0x10000000000000) (exponent - 1075) := by
  rw [value, exponentField_ofFields hs he hf, fractionField_ofFields hs he hf,
    isNegative_ofFields hs he hf, if_neg (by omega), if_neg (by omega), fractionSize]

end Fields

theorem shiftRightRound_mul (n shift : Nat) : shiftRightRound (n * 2 ^ shift) shift = n := by
  have hpos : 0 < 2 ^ shift := Nat.two_pow_pos shift
  have hzero : ¬0 = 2 ^ shift := by omega
  simp [shiftRightRound, Nat.pow_eq, Nat.mul_div_cancel _ hpos, hzero]

theorem toSingle_of_value {x : Binary64} {negative : Bool} {rounded shift : Nat} {exponent : Int}
    (hvalue : x.value = .finite negative (rounded * 2 ^ shift) exponent) (hpos : 0 < rounded)
    (hunit : max ((rounded * 2 ^ shift).log2 + exponent - 23) (-149) = exponent + shift)
    : x.toSingle
        =
      ((if x.isNegative then 0x80000000 else 0)
        + min ((exponent + shift + 149).toNat * 0x800000 + rounded) 0x7f800000).toUInt32 := by
  -- Only zeros are shifted out, so there is nothing to round.
  have hmantissa : rounded * 2 ^ shift ≠ 0 := by positivity
  have hle : exponent ≤ exponent + shift := by omega
  have hshift : (exponent + shift - exponent).toNat = shift := by omega
  rw [toSingle, hvalue]
  simp only [hmantissa, ↓reduceIte, hunit, hle, hshift, shiftRightRound_mul]

theorem log2_eq_of_normal {mantissa : Nat} (hle : 0x10000000000000 ≤ mantissa)
    (hlt : mantissa < 0x20000000000000) : mantissa.log2 = 52 := by
  rw [Nat.log2_eq_iff (by omega)]
  norm_num
  omega

theorem toNat_single_eq (bits : UInt32)
    : bits.toNat
        =
      bits.toNat / 0x80000000 * 0x80000000 + bits.toNat / 0x800000 % 256 * 0x800000
        + bits.toNat % 0x800000 := by
  have := bits.toNat_lt
  omega

theorem signBit_eq {sign : Nat} (hs : sign ≤ 1) :
    (if (sign == 1) = true then 0x80000000 else 0) = sign * 0x80000000 := by
  have : sign = 0 ∨ sign = 1 := by omega
  cases this with
  | inl h => simp [h]
  | inr h => simp [h]

theorem toSingle_ofFields_of_mantissa {sign exponent fraction rounded shift : Nat} (hs : sign ≤ 1)
    (hpos : 0 < exponent) (he : exponent < 2047) (hf : fraction < 0x10000000000000)
    (hmantissa : fraction + 0x10000000000000 = rounded * 2 ^ shift)
    (hunit : max (52 + ((exponent : Int) - 1075) - 23) (-149) = exponent - 1075 + shift)
    : (ofFields sign exponent fraction).toSingle
        =
      (sign * 0x80000000
        + min (((exponent : Int) - 1075 + shift + 149).toNat * 0x800000 + rounded) 0x7f800000).toUInt32
    := by
  have he' : exponent < 2048 := by omega
  have hlog : (fraction + 0x10000000000000).log2 = 52 := by
    apply log2_eq_of_normal
    . omega
    . omega
  have hrounded : 0 < rounded := by
    apply Nat.pos_of_ne_zero
    intro h
    rw [h, Nat.zero_mul] at hmantissa
    omega
  have hvalue := value_ofFields_of_normal hs he' hf hpos he
  rw [hmantissa] at hvalue hlog
  rw [toSingle_of_value hvalue hrounded, isNegative_ofFields hs he' hf, signBit_eq hs]
  rw [hlog]
  exact hunit

theorem toSingle_ofFields_normal {sign exponent fraction : Nat} (hs : sign ≤ 1)
    (hpos : 0 < exponent) (he : exponent < 255) (hf : fraction < 0x800000)
    : (ofFields sign (exponent + 896) (fraction * 0x20000000)).toSingle
        =
      (sign * 0x80000000 + exponent * 0x800000 + fraction).toUInt32 := by
  have hmantissa : fraction * 0x20000000 + 0x10000000000000 = (fraction + 0x800000) * 2 ^ 29 := by omega
  rw [toSingle_ofFields_of_mantissa hs (by omega) (by omega) (by omega) hmantissa (by omega)]
  clear hmantissa
  apply congrArg Nat.toUInt32
  omega

theorem toSingle_ofFields_subnormal {sign fraction : Nat} (hs : sign ≤ 1) (hpos : 0 < fraction)
    (hf : fraction < 0x800000)
    : (ofFields sign (fraction.log2 + 874)
        ((fraction - 2 ^ fraction.log2) * 2 ^ (52 - fraction.log2))).toSingle
        =
      (sign * 0x80000000 + fraction).toUInt32 := by
  obtain ⟨hlow, hhigh⟩ := (Nat.log2_eq_iff (by omega)).mp (Eq.refl fraction.log2)
  have htop : fraction.log2 < 23 := by
    rw [Nat.log2_lt (by omega)]
    omega
  generalize fraction.log2 = top at *
  -- The leading bit is left out of the fraction, and the mantissa has it again.
  obtain ⟨low, rfl⟩ := Nat.exists_eq_add_of_le hlow
  have hunit : 2 ^ top * 2 ^ (52 - top) = 0x10000000000000 := by
    rw [← Nat.pow_add, Nat.add_sub_of_le (by omega)]
  have hlt : low * 2 ^ (52 - top) < 2 ^ top * 2 ^ (52 - top) := by
    apply Nat.mul_lt_mul_of_pos_right
    . rw [Nat.pow_succ] at hhigh
      omega
    . exact Nat.two_pow_pos _
  have hmantissa : low * 2 ^ (52 - top) + 0x10000000000000 = (2 ^ top + low) * 2 ^ (52 - top) := by
    rw [Nat.add_mul, hunit, Nat.add_comm]
  rw [hunit] at hlt
  rw [Nat.add_sub_cancel_left,
    toSingle_ofFields_of_mantissa hs (by omega) (by omega) hlt hmantissa (by omega)]
  apply congrArg Nat.toUInt32
  omega

theorem toSingle_ofFields_infinite {sign : Nat} (hs : sign ≤ 1) :
    (ofFields sign 2047 0).toSingle = (sign * 0x80000000 + 0x7f800000).toUInt32 := by
  have he : 2047 < 2048 := by omega
  have hf : 0 < 0x10000000000000 := by omega
  rw [toSingle, value, exponentField_ofFields hs he hf, fractionField_ofFields hs he hf,
    isNegative_ofFields hs he hf, signBit_eq hs]
  simp

theorem toSingle_ofFields_zero {sign : Nat} (hs : sign ≤ 1) :
    (ofFields sign 0 0).toSingle = (sign * 0x80000000).toUInt32 := by
  have he : 0 < 2048 := by omega
  have hf : 0 < 0x10000000000000 := by omega
  rw [toSingle, value, exponentField_ofFields hs he hf, fractionField_ofFields hs he hf,
    isNegative_ofFields hs he hf, signBit_eq hs]
  simp

theorem isNaN_ofFields {sign fraction : Nat} (hs : sign ≤ 1) (hpos : 0 < fraction)
    (hf : fraction < 0x10000000000000) : (ofFields sign 2047 fraction).isNaN = true := by
  have he : 2047 < 2048 := by omega
  rw [isNaN, exponentField_ofFields hs he hf, fractionField_ofFields hs he hf]
  simp
  omega

theorem toSingle_ofSingle (bits : UInt32) (h : (ofSingle bits).isNaN = false) :
    (ofSingle bits).toSingle = bits := by
  have hlt := bits.toNat_lt
  have hbits := toNat_single_eq bits
  have hs : bits.toNat / 0x80000000 ≤ 1 := by omega
  rw [← UInt32.toNat_inj]
  unfold ofSingle at h ⊢
  dsimp only at h ⊢
  by_cases hexp : bits.toNat / 0x800000 % 256 = 255
  . rw [if_pos hexp] at h ⊢
    by_cases hfrac : bits.toNat % 0x800000 = 0
    . rw [if_pos hfrac, toSingle_ofFields_infinite hs]
      simp
      omega
    . rw [if_neg hfrac, isNaN_ofFields hs (by omega) (by omega)] at h
      cases h
  . rw [if_neg hexp]
    by_cases hzero : bits.toNat / 0x800000 % 256 = 0
    . rw [if_pos hzero]
      by_cases hfrac : bits.toNat % 0x800000 = 0
      . rw [if_pos hfrac, toSingle_ofFields_zero hs]
        simp
        omega
      . rw [if_neg hfrac, Nat.pow_eq, Nat.pow_eq,
          toSingle_ofFields_subnormal hs (by omega) (by omega)]
        simp
        omega
    . rw [if_neg hzero, toSingle_ofFields_normal hs (by omega) (by omega) (by omega)]
      simp
      omega

end Binary64
end LuaBytecode
