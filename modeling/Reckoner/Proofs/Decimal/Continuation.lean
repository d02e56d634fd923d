import Reckoner.Proofs.Decimal.Truncation
import Reckoner.Proofs.Formula.Numeral

/-!
# Longer readings

A reading with one decimal more is the shorter one with a digit behind it, for cutting a
number twice comes to cutting it once. A finite value is a whole number of units of
`2 ^ (-1074)`, so after 1074 decimals nothing is left to cut: from there on a reading is
the value itself, and what more is shown are zeros.
-/
namespace Reckoner

/-- The number that a numeral writes, before it is rounded to a value. -/
def Numeral.toRat (n : Numeral) : ℚ :=
  (if n.negative then -1 else 1) *
    (Nat.ofDigitChars 10 (n.whole ++ n.fraction) 0 / 10 ^ n.fraction.length)

namespace Decimal

/-! ## One decimal more -/

theorem leftpad_concat {α : Type} (places : Nat) (a : α) (l : List α) (b : α) :
    List.leftpad (places + 1) a (l ++ [b]) = List.leftpad places a l ++ [b] := by
  simp [List.leftpad]

/-- The last of the padded digits, behind the padded digits of the quotient by ten. -/
theorem leftpad_toDigits_succ {places : Nat} (hplaces : places ≠ 0) (n : Nat) :
    List.leftpad (places + 1) '0' (Nat.toDigits 10 n) =
      List.leftpad places '0' (Nat.toDigits 10 (n / 10)) ++ [Nat.digitChar (n % 10)] := by
  rw [← leftpad_concat]
  by_cases hn : n < 10
  · -- a quotient of zero has one digit, which is one of the zeros of the padding
    have hzero : n / 10 = 0 := by omega
    have hrest : n % 10 = n := by omega
    rw [hzero, hrest, Nat.toDigits_zero, Nat.toDigits_of_lt_base hn]
    obtain ⟨k, rfl⟩ := Nat.exists_eq_succ_of_ne_zero hplaces
    simp [List.leftpad, List.replicate_succ']
  · rw [Nat.toDigits_of_base_le (by decide) (by omega)]

theorem fixed_of_ne_zero (n : Nat) {places : Nat} (h : places ≠ 0) :
    fixed n places = Nat.toDigits 10 (n / 10 ^ places) ++
      '.' :: List.leftpad places '0' (Nat.toDigits 10 (n % 10 ^ places)) := by
  rw [fixed, if_neg h]
  rfl

/-- One decimal more is one digit more, behind the point if it is the first. -/
theorem fixed_succ (n places : Nat) :
    fixed n (places + 1) =
      fixed (n / 10) places ++
        ((if places = 0 then ['.'] else []) ++ [Nat.digitChar (n % 10)]) := by
  rw [fixed_of_ne_zero n (Nat.succ_ne_zero places)]
  by_cases hplaces : places = 0
  · subst hplaces
    have hdigit : n % 10 < 10 := Nat.mod_lt n (by decide)
    simp [Nat.toDigits_of_lt_base hdigit]
  · have hpow : 10 ^ (places + 1) = 10 * 10 ^ places := Nat.pow_succ'
    have hwhole : n / 10 ^ (places + 1) = n / 10 / 10 ^ places := by
      rw [hpow, Nat.div_div_eq_div_mul]
    have hquotient : n % 10 ^ (places + 1) / 10 = n / 10 % 10 ^ places := by
      rw [hpow, Nat.mod_mul_right_div_self]
    have hlast : n % 10 ^ (places + 1) % 10 = n % 10 :=
      Nat.mod_mod_of_dvd n (hpow ▸ Nat.dvd_mul_right 10 _)
    rw [fixed_of_ne_zero _ hplaces, leftpad_toDigits_succ hplaces, hwhole, hquotient, hlast,
      if_neg hplaces, List.nil_append, List.append_assoc, List.cons_append]

/-! ## Numerals -/

/-- Digits that write a number are a numeral that writes it. -/
theorem Writes.written {whole decimals : Text} {x : ℚ} (h : Writes whole decimals x)
    (negative : Bool) :
    Numeral.Written (signText negative ++
        (whole ++ if decimals.length = 0 then [] else '.' :: decimals))
      ⟨negative, whole, decimals⟩ := by
  have hsign : signText negative ∈ Numeral.signs := by
    cases negative <;> simp [signText, Numeral.signs]
  have hnegative : (signText negative == ['-']) = negative := by cases negative <;> rfl
  cases decimals with
  | nil =>
      have hwritten := Numeral.Written.whole hsign h.isWhole.digits h.isWhole.ne_nil
      rw [hnegative] at hwritten
      simpa using hwritten
  | cons c decimals =>
      have hwritten := Numeral.Written.fraction hsign h.isWhole.digits h.isDigit_of_mem (by simp)
      rw [hnegative] at hwritten
      simpa using hwritten

theorem Writes.toRat_eq {whole decimals : Text} {x : ℚ} (h : Writes whole decimals x)
    (negative : Bool) :
    (Numeral.mk negative whole decimals).toRat = (if negative then -1 else 1) * x := by
  rw [Numeral.toRat, ← h.value, Nat.ofDigitChars_append, Nat.ofDigitChars_eq_ofDigitChars_zero]
  push_cast
  congr 1
  field_simp

end Decimal

/-! ## Readings of one value -/

section Value

variable {v : Float} {x : ℚ}

/-- A reading with one decimal more: the next digit of the absolute value behind the
shorter one. -/
theorem reading?_succ (h : exactValue? v = some x) (digits : Nat) :
    reading? v (digits + 1) = (reading? v digits).map fun t =>
      t ++ ((if digits = 0 then ['.'] else []) ++
        [Nat.digitChar (⌊|x| * 10 ^ (digits + 1)⌋₊ % 10)]) := by
  -- cut behind one decimal more and then by that decimal, the value is cut as before
  have hscale : |x| * 10 ^ (digits + 1) / 10 = |x| * 10 ^ digits := by
    rw [pow_succ]
    field_simp
  have hcut : ⌊|x| * 10 ^ (digits + 1)⌋₊ / 10 = ⌊|x| * 10 ^ digits⌋₊ := by
    rw [← Nat.floor_div_ofNat, hscale]
  rw [reading?_of_exactValue? h, reading?_of_exactValue? h, Decimal.fixed_succ, hcut]
  simp

/-- A longer reading goes on from a shorter one. -/
theorem exists_reading?_prefix (h : exactValue? v = some x) {digits more : Nat}
    (hle : digits ≤ more) :
    ∃ t t', reading? v digits = some t ∧ reading? v more = some t' ∧ t <+: t' := by
  have hreading := reading?_of_exactValue? h digits
  induction more, hle using Nat.le_induction with
  | base => exact ⟨_, _, hreading, hreading, List.prefix_rfl⟩
  | succ more hle ih =>
      obtain ⟨t, t', ht, ht', hprefix⟩ := ih
      have hnext := reading?_succ h more
      rw [ht'] at hnext
      exact ⟨t, _, ht, hnext, hprefix.trans (List.prefix_append _ _)⟩

/-- A finite value has at most 1074 decimals, as many as the unit of `2 ^ (-1074)`. -/
theorem exists_abs_mul_pow_eq (h : exactValue? v = some x) {digits : Nat}
    (hdigits : 1074 ≤ digits) : ∃ m : ℕ, |x| * 10 ^ digits = m := by
  rw [exactValue?_eq_toRat?] at h
  cases hfields : Binary64.ofFloat v with
  | nan | infinite negative =>
      rw [hfields] at h
      cases h
  | finite negative significand scale =>
      rw [hfields] at h
      obtain ⟨k, rfl⟩ := Nat.exists_eq_add_of_le hdigits
      refine ⟨Binary64.units significand scale * 5 ^ 1074 * 10 ^ k, ?_⟩
      have hone : (Binary64.unitsPerOne : ℚ) = 2 ^ 1074 := by
        simp only [Binary64.unitsPerOne, Nat.one_shiftLeft, Nat.cast_pow, Nat.cast_ofNat]
      have hten (n : ℕ) : (10 : ℚ) ^ n = 2 ^ n * 5 ^ n := by
        rw [← mul_pow]
        norm_num
      rw [Binary64.abs_of_toRat? h, hone, pow_add, hten 1074, Nat.cast_mul, Nat.cast_mul,
        Nat.cast_pow, Nat.cast_pow, Nat.cast_ofNat, Nat.cast_ofNat]
      field_simp

/-- From 1074 decimals on, one more is a zero. -/
theorem reading?_succ_of_exact (h : exactValue? v = some x) {digits : Nat}
    (hdigits : 1074 ≤ digits) :
    reading? v (digits + 1) = (reading? v digits).map fun t => t ++ ['0'] := by
  obtain ⟨m, hm⟩ := exists_abs_mul_pow_eq h hdigits
  have hpoint : digits ≠ 0 := by omega
  have hlast : ⌊|x| * 10 ^ (digits + 1)⌋₊ % 10 = 0 := by
    have hscaled : |x| * 10 ^ (digits + 1) = ((m * 10 : ℕ) : ℚ) := by
      rw [pow_succ, ← mul_assoc, hm]
      push_cast
      rfl
    rw [hscaled, Nat.floor_natCast, Nat.mul_mod_left]
  rw [reading?_succ h, hlast, if_neg hpoint]
  rfl

theorem reading?_add_of_exact (h : exactValue? v = some x) {digits : Nat}
    (hdigits : 1074 ≤ digits) (zeros : Nat) :
    reading? v (digits + zeros) =
      (reading? v digits).map fun t => t ++ List.replicate zeros '0' := by
  induction zeros with
  | zero => simp
  | succ zeros ih =>
      have hnext := reading?_succ_of_exact h (Nat.le_add_right_of_le (k := zeros) hdigits)
      rw [ih, Option.map_map] at hnext
      rw [← Nat.add_assoc, hnext, List.replicate_succ']
      congr 1
      funext t
      exact List.append_assoc _ _ _

/-- A reading is a numeral, and from 1074 decimals on it writes the value itself. -/
theorem exists_written_reading? (h : exactValue? v = some x) {digits : Nat}
    (hdigits : 1074 ≤ digits) :
    ∃ t n, reading? v digits = some t ∧ Numeral.Written t n ∧ n.toRat = x := by
  obtain ⟨m, hm⟩ := exists_abs_mul_pow_eq h hdigits
  obtain ⟨whole, decimals, htext, rfl, hwrites⟩ := Decimal.exists_writes_fixed m digits
  have hreading := reading?_of_exactValue? h decimals.length
  rw [hm, Nat.floor_natCast, htext] at hreading
  refine ⟨_, _, hreading, hwrites.written _, ?_⟩
  have hexact : (m : ℚ) / 10 ^ decimals.length = |x| := by
    rw [← hm]
    field_simp
  rw [hwrites.toRat_eq, hexact]
  by_cases hx : x < 0
  · simp [hx, abs_of_neg hx]
  · simp [hx, abs_of_nonneg (not_lt.mp hx)]

end Value

/-- The readings of a finite value go on from each other: with fewer decimals, what is
shown is the beginning of what is shown with more. With 1074 decimals or more, a reading
is a numeral that writes the value exactly, so more decimals are zeros, and a value with
the same reading is the same number. -/
theorem reading?_continues {v : Float} (hfinite : v.isFinite = true) :
    (∀ digits more, digits ≤ more →
      ∃ t t', reading? v digits = some t ∧ reading? v more = some t' ∧ t <+: t') ∧
    ∃ x, exactValue? v = some x ∧ ∀ digits, 1074 ≤ digits →
      ∃ t n, reading? v digits = some t ∧ Numeral.Written t n ∧ n.toRat = x ∧
        (∀ zeros, reading? v (digits + zeros) = some (t ++ List.replicate zeros '0')) ∧
        ∀ w y others, exactValue? w = some y → 1074 ≤ others → reading? w others = some t →
          y = x := by
  obtain ⟨x, hx⟩ := (exists_exactValue?_iff v).mpr hfinite
  refine ⟨fun _ _ => exists_reading?_prefix hx, x, hx, fun digits hdigits => ?_⟩
  obtain ⟨t, n, ht, hn, hvalue⟩ := exists_written_reading? hx hdigits
  refine ⟨t, n, ht, hn, hvalue, fun zeros => ?zeros, fun w y others hy hothers hw => ?same⟩
  case zeros => rw [reading?_add_of_exact hx hdigits, ht, Option.map_some]
  case same =>
    obtain ⟨t', n', ht', hn', hvalue'⟩ := exists_written_reading? hy hothers
    obtain rfl := Option.some.inj (ht'.symm.trans hw)
    rw [← hvalue', ← hvalue, hn'.unique hn]

/-- A tenth is read as `0.100` with three decimals, and goes on from there. -/
theorem reading?_continues_of_tenth :
    (0.1 : Float).isFinite = true ∧ reading? 0.1 3 = some ['0', '.', '1', '0', '0'] ∧
      ∃ t, reading? 0.1 25 = some t ∧ ['0', '.', '1', '0', '0'] <+: t := by
  have hfinite : (0.1 : Float).isFinite = true := by decide +kernel
  have hshort : reading? 0.1 3 = some ['0', '.', '1', '0', '0'] := by decide +kernel
  obtain ⟨t, t', ht, ht', hprefix⟩ := (reading?_continues hfinite).1 3 25 (by decide)
  obtain rfl := Option.some.inj (hshort.symm.trans ht)
  exact ⟨hfinite, hshort, t', ht', hprefix⟩

end Reckoner
