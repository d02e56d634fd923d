import Reckoner.Proofs.Decimal.Continuation
import Reckoner.Proofs.Decimal.Nearest

/-!
# Texts read back

The text of a finite value is a numeral, and the value of that numeral is the one whose
text it is, to the bit: also for a negative zero, which keeps its sign in the text. For
the decimal that is printed lies near enough to the value to be rounded to it, and a
value is one pattern of bits, which its sign, its significand and its scale tell.
-/
namespace Reckoner

/-! ## Patterns of bits -/

namespace Binary64

section Fields

variable {bits : UInt64} {negative : Bool} {significand scale : Nat}

/-- A finite value is subnormal, with the scale of the smallest normal ones, or normal, with
the leading bit in front of the bits of the significand. -/
theorem ofBits_eq_finite (h : ofBits bits = .finite negative significand scale) :
    negative = decide (signBit ≤ bits.toNat) ∧ bits.toNat / leadingBit % 2048 ≠ 2047 ∧
      ((bits.toNat / leadingBit % 2048 = 0 ∧ significand = bits.toNat % leadingBit ∧ scale = 0) ∨
        (bits.toNat / leadingBit % 2048 = scale + 1 ∧
          significand = leadingBit + bits.toNat % leadingBit)) := by
  unfold ofBits at h
  dsimp only at h
  split at h
  · split at h <;> cases h
  · rename_i hfinite
    split at h
    · rename_i hsubnormal
      injection h with hnegative hsignificand hscale
      exact ⟨hnegative.symm, hfinite, .inl ⟨hsubnormal, hsignificand.symm, hscale.symm⟩⟩
    · injection h with hnegative hsignificand hscale
      exact ⟨hnegative.symm, hfinite, .inr ⟨by omega, hsignificand.symm⟩⟩

theorem canonical_of_ofBits (h : ofBits bits = .finite negative significand scale) :
    Canonical significand scale := by
  have hleading : leadingBit = 2 ^ 52 := rfl
  have hinfinity : infinityBits = 2047 * 2 ^ 52 := rfl
  obtain ⟨-, hfinite, hfields⟩ := ofBits_eq_finite h
  rw [hleading] at hfinite hfields
  constructor
  · rw [hleading]
    omega
  · intro hscale
    rw [hleading]
    omega
  · rw [hleading, hinfinity]
    omega

/-- The sign, the scale and the significand are all that there is in a pattern of bits. -/
theorem toNat_of_ofBits (h : ofBits bits = .finite negative significand scale) :
    bits.toNat = (if negative then signBit else 0) + (scale * leadingBit + significand) := by
  have hlt : bits.toNat < 2 ^ 64 := bits.toNat_lt
  have hleading : leadingBit = 2 ^ 52 := rfl
  have hsign : signBit = 2 ^ 63 := rfl
  obtain ⟨rfl, -, hfields⟩ := ofBits_eq_finite h
  rw [hleading] at hfields ⊢
  rw [hsign]
  by_cases hhigh : 2 ^ 63 ≤ bits.toNat
  · rw [decide_eq_true hhigh, if_pos rfl]
    omega
  · rw [decide_eq_false hhigh, if_neg Bool.false_ne_true]
    omega

end Fields

/-- A fraction near to a value is rounded to it, and to its sign. -/
theorem nearest_eq_of_near {v : Float} {negative : Bool} {significand scale num den : Nat}
    (hv : ofFloat v = .finite negative significand scale)
    (hnear : Near significand scale (num * unitsPerOne) den) (hden : 0 < den) :
    nearest negative num den = v := by
  rw [nearest, hnear.nearestBits_eq (canonical_of_ofBits hv) hden, ← toNat_of_ofBits hv,
    UInt64.ofNat_toNat, Float.ofBits_toBits]

end Binary64

/-! ## Numerals -/

namespace Decimal

theorem Writes.ofDigitChars_eq {whole decimals : Text} {n : Nat}
    (h : Writes whole decimals (n / 10 ^ decimals.length)) :
    Nat.ofDigitChars 10 (whole ++ decimals) 0 = n := by
  have hvalue := h.toRat_eq false
  simp only [Numeral.toRat, Bool.false_eq_true, if_false, one_mul] at hvalue
  field_simp at hvalue
  exact_mod_cast hvalue

/-- Fixed-point notation is a numeral, whose value is the nearest to what is written. -/
theorem exists_written_fixed (negative : Bool) (n places : Nat) :
    ∃ m, Numeral.Written (signText negative ++ fixed n places) m ∧
      m.value = Binary64.nearest negative n (pow10 places) := by
  obtain ⟨whole, decimals, htext, rfl, hwrites⟩ := exists_writes_fixed n places
  refine ⟨⟨negative, whole, decimals⟩, ?_, ?_⟩
  · rw [htext]
    exact hwrites.written negative
  · rw [Numeral.value, hwrites.ofDigitChars_eq]

end Decimal

/-! ## The text of a value -/

/-- A zero is written by one digit, and by its sign. -/
theorem exists_written_zero {v : Float} {negative : Bool} {scale : Nat}
    (hv : Binary64.ofFloat v = .finite negative 0 scale) :
    ∃ n, Numeral.Written (signText negative ++ ['0']) n ∧ n.value = v := by
  have hscale : scale = 0 := by
    by_contra hne
    exact absurd ((Binary64.canonical_of_ofBits hv).leading hne) (by decide)
  obtain ⟨n, hwritten, hvalue⟩ := Decimal.exists_written_fixed negative 0 0
  refine ⟨n, hwritten, ?_⟩
  rw [hvalue]
  apply Binary64.nearest_eq_of_near hv _ (Decimal.Interval.pow10_pos 0)
  rw [hscale]
  constructor <;> decide +kernel

/-- The text of a finite value is a numeral of that value. -/
theorem exists_written_numberText {v : Float} (h : v.isFinite = true) :
    ∃ n, Numeral.Written (numberText v) n ∧ n.value = v := by
  obtain ⟨x, hx⟩ := (exists_exactValue?_iff v).mpr h
  rw [exactValue?_eq_toRat?] at hx
  unfold numberText
  cases hv : Binary64.ofFloat v with
  | nan | infinite negative =>
      rw [hv] at hx
      cases hx
  | finite negative significand scale =>
      by_cases hzero : significand = 0
      · rw [hzero] at hv ⊢
        exact exists_written_zero hv
      · obtain ⟨n, hwritten, hvalue⟩ := Decimal.exists_written_fixed negative
          ((Decimal.shortest significand scale).digits *
            Decimal.pow10 (Decimal.shortest significand scale).exponent.toNat)
          (-(Decimal.shortest significand scale).exponent).toNat
        have htext : (Binary64.finite negative significand scale).text =
            signText negative ++ (Decimal.shortest significand scale).text := by
          simp [Binary64.text, hzero]
        refine ⟨n, ?_, ?_⟩
        · rw [htext]
          exact hwritten
        · rw [hvalue]
          exact Binary64.nearest_eq_of_near hv (Decimal.near_shortest hzero)
            (Decimal.Interval.pow10_pos _)

end Reckoner
