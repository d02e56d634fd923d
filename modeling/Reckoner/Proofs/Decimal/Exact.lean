import Mathlib
import Reckoner.Binary64

/-!
# Exact values

The rational number that a binary64 value is. The format says it by a sign, a
mantissa and a power of two; taking a value apart into units says the same number.
What is not a number, or infinite, is no rational number.
-/
namespace Reckoner

open Float.Model Float.Model.UnpackedFloat

/-- The number that the format gives a value, if it gives one. Both zeros are `0`. -/
def exactValue? (v : Float) : Option ℚ :=
  match v.toModel.unpack with
  | .zero _ => some 0
  | .finite sign mantissa exponent _ => some (sign.apply mantissa * 2 ^ exponent)
  | .infinity _ | .notANumber => none

/-- The number of units, with its sign, in one. -/
def Binary64.toRat? : Binary64 → Option ℚ
  | .finite negative significand scale =>
    some ((if negative then -1 else 1) * (units significand scale / unitsPerOne))
  | .infinite _ | .nan => none

/-! ## The fields of a pattern of bits -/

section Fields

variable (bits : BitVec 64)

theorem toNat_unpackMantissa :
    (@unpackMantissa .binary64 bits).toNat = bits.toNat % Binary64.leadingBit := by
  simp [unpackMantissa, Binary64.leadingBit]

/-- A normal value has the leading bit in front of its mantissa. -/
theorem toNat_append_unpackMantissa :
    (1#1 ++ @unpackMantissa .binary64 bits).toNat =
      Binary64.leadingBit + bits.toNat % Binary64.leadingBit := by
  have hlt := (@unpackMantissa .binary64 bits).isLt
  rw [BitVec.toNat_append, ← Nat.shiftLeft_add_eq_or_of_lt hlt, toNat_unpackMantissa]
  rfl

theorem toNat_unpackExponent :
    (@unpackExponent .binary64 bits).toNat =
      bits.toNat / Binary64.leadingBit % 2048 := by
  simp [unpackExponent, Binary64.leadingBit, Nat.shiftRight_eq_div_pow]

theorem toNat_unpackSign :
    (@unpackSign .binary64 bits).toNat = bits.toNat / Binary64.signBit := by
  have hlt : bits.toNat < 2 ^ 64 := bits.isLt
  have hbit : bits.toNat / 2 ^ 63 < 2 := by omega
  simpa [unpackSign, Binary64.signBit, Nat.shiftRight_eq_div_pow] using Nat.mod_eq_of_lt hbit

theorem ofBitVec_unpackSign :
    Sign.ofBitVec (@unpackSign .binary64 bits) =
      if decide (Binary64.signBit ≤ bits.toNat) then .negative else .positive := by
  have hzero : @unpackSign .binary64 bits = 0#1 ↔
      ¬ Binary64.signBit ≤ bits.toNat := by
    rw [← BitVec.toNat_inj, toNat_unpackSign, BitVec.toNat_zero, Nat.not_le]
    exact Nat.div_eq_zero_iff_lt (by decide)
  unfold Sign.ofBitVec
  by_cases h : Binary64.signBit ≤ bits.toNat <;> simp [h, hzero]

end Fields

/-! ## The same number -/

theorem mul_zpow_eq_units (significand scale : Nat) :
    (significand : ℚ) * 2 ^ ((scale : ℤ) - 1074) =
      Binary64.units significand scale / Binary64.unitsPerOne := by
  rw [zpow_sub₀ two_ne_zero, zpow_natCast, ← mul_div_assoc]
  simp only [Binary64.units, Binary64.unitsPerOne, Nat.shiftLeft_eq, Nat.cast_mul, Nat.cast_pow,
    one_mul]
  rfl

/-- A sign, a mantissa and a power of two, said in units. -/
theorem some_apply_mul_zpow {negative : Bool} {significand scale : Nat} {exponent : ℤ}
    (h : exponent = scale - 1074) :
    some ((((if negative then Sign.negative else .positive).apply significand : ℤ) : ℚ) *
        2 ^ exponent) =
      (Binary64.finite negative significand scale).toRat? := by
  have hcast : (((if negative then Sign.negative else .positive).apply significand : ℤ) : ℚ) =
      (if negative then -1 else 1) * significand := by
    cases negative <;> simp [Sign.apply]
  rw [h, hcast, mul_assoc, mul_zpow_eq_units]
  rfl

/-- Taking a value apart keeps the number that it is. -/
theorem exactValue?_eq_toRat? (v : Float) : exactValue? v = (Binary64.ofFloat v).toRat? := by
  have hexponent := toNat_unpackExponent v.toBits.toBitVec
  have hmantissa := toNat_unpackMantissa v.toBits.toBitVec
  have hnormal := toNat_append_unpackMantissa v.toBits.toBitVec
  have hsign := ofBitVec_unpackSign v.toBits.toBitVec
  rw [UInt64.toNat_toBitVec] at hexponent hmantissa hnormal hsign
  have hbits : v.toModel.toBits = v.toBits := rfl
  have hspecial : (-1#11 : BitVec 11).toNat = 2047 := rfl
  unfold exactValue? Float.Model.unpack UnpackedFloat.unpack Binary64.ofFloat Binary64.ofBits
  simp only [hbits, hsign, ← BitVec.toNat_inj, hexponent, hmantissa, hnormal, hspecial,
    BitVec.toNat_zero]
  -- the greatest exponent is for what is not finite, and zero for what is subnormal
  by_cases hinf : v.toBits.toNat / Binary64.leadingBit % 2048 = 2047
  · rw [if_pos hinf, if_pos hinf]
    by_cases hzero : v.toBits.toNat % Binary64.leadingBit = 0
    · rw [if_pos hzero, if_pos hzero]
      rfl
    · rw [if_neg hzero, if_neg hzero]
      rfl
  · rw [if_neg hinf, if_neg hinf]
    by_cases hsub : v.toBits.toNat / Binary64.leadingBit % 2048 = 0
    · rw [if_pos hsub, if_pos hsub]
      by_cases hzero : v.toBits.toNat % Binary64.leadingBit = 0
      · rw [dif_pos hzero]
        simp [Binary64.toRat?, hzero, Binary64.units]
      · rw [dif_neg hzero, hsub]
        exact some_apply_mul_zpow rfl
    · -- the scale of a normal value counts from the first exponent above zero
      rw [if_neg hsub, if_neg hsub]
      refine some_apply_mul_zpow ?_
      have hbias : (Format.binary64.exponentBias : ℤ) = 1023 := rfl
      rw [hbias]
      omega

/-- The values without an exact value are the infinite ones, and what is not a number. -/
theorem exactValue?_eq_none_iff (v : Float) :
    exactValue? v = none ↔ v.isNaN = true ∨ v.isInf = true := by
  unfold exactValue? Float.isNaN Float.isInf Float.Model.isNaN Float.Model.isInf
  cases v.toModel.unpack <;> simp [UnpackedFloat.isNaN, UnpackedFloat.isInf]

theorem exists_exactValue?_iff (v : Float) :
    (∃ x, exactValue? v = some x) ↔ v.isFinite = true := by
  unfold exactValue? Float.isFinite Float.Model.isFinite
  cases v.toModel.unpack <;> simp [UnpackedFloat.isFinite]

end Reckoner
