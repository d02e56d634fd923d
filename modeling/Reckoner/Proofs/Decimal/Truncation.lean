import Reckoner.Decimal.Reading
import Reckoner.Proofs.Decimal.Exact

/-!
# Readings are truncations

A reading shows the exact value of a float, cut toward zero behind the number of
decimals asked for. The sign is the one of the exact value: it stays where all the
digits shown are zero, and a negative zero has none.
-/
namespace Reckoner

namespace Decimal

/-! ## What fixed-point notation says -/

/-- The digits of a whole number, with no zero in front that could be left out. -/
structure IsWhole (t : Text) : Prop where
  ne_nil : t ≠ []
  digits : ∀ c ∈ t, c.isDigit = true
  leading : t.head? = some '0' → t = ['0']

/-- The digits in front of a point and those behind it write the number. -/
structure Writes (whole decimals : Text) (x : ℚ) : Prop where
  isWhole : IsWhole whole
  isDigit_of_mem : ∀ c ∈ decimals, c.isDigit = true
  value : (Nat.ofDigitChars 10 whole 0 : ℚ) +
    Nat.ofDigitChars 10 decimals 0 / 10 ^ decimals.length = x

theorem eq_zero_of_head?_toDigits {n : Nat} (h : (Nat.toDigits 10 n).head? = some '0') :
    n = 0 := by
  induction n using Nat.strongRecOn with
  | ind n ih =>
      by_cases hn : n < 10
      · rw [Nat.toDigits_of_lt_base hn] at h
        have hzero : ∀ n < 10, Nat.digitChar n = '0' → n = 0 := by decide
        exact hzero n hn (Option.some.inj h)
      · -- the first digit is the first one of the quotient by ten
        rw [Nat.toDigits_of_base_le (by decide) (by omega),
          List.head?_append_of_ne_nil _ Nat.toDigits_ne_nil] at h
        have hquotient := ih (n / 10) (by omega) h
        omega

theorem isWhole_toDigits (n : Nat) : IsWhole (Nat.toDigits 10 n) where
  ne_nil := Nat.toDigits_ne_nil
  digits _ hc := Nat.isDigit_of_mem_toDigits (by decide) (by decide) hc
  leading h := by rw [eq_zero_of_head?_toDigits h, Nat.toDigits_zero]

section Padding

variable {n places : Nat}

theorem ofDigitChars_leftpad :
    Nat.ofDigitChars 10 (List.leftpad places '0' (Nat.toDigits 10 n)) 0 = n := by
  rw [List.leftpad, Nat.ofDigitChars_append, Nat.ofDigitChars_replicate_zero, Nat.mul_zero,
    Nat.ofDigitChars_ten_toDigits]

theorem length_leftpad_toDigits (hplaces : places ≠ 0) (hn : n < 10 ^ places) :
    (List.leftpad places '0' (Nat.toDigits 10 n)).length = places := by
  have hpos := Nat.pos_of_ne_zero hplaces
  have hlen := (Nat.length_toDigits_le_iff (by decide) hpos).mpr hn
  rw [List.length_leftpad, Nat.max_eq_left hlen]

theorem isDigit_of_mem_leftpad :
    ∀ c ∈ List.leftpad places '0' (Nat.toDigits 10 n), c.isDigit = true := by
  intro c hc
  rcases List.mem_append.mp hc with hc | hc
  · rw [List.eq_of_mem_replicate hc]
    rfl
  · exact (isWhole_toDigits n).digits c hc

end Padding

/-- Fixed-point notation writes the number, with exactly the decimals asked for. -/
theorem exists_writes_fixed (n places : Nat) :
    ∃ whole decimals, fixed n places = whole ++ (if places = 0 then [] else '.' :: decimals) ∧
      decimals.length = places ∧ Writes whole decimals (n / 10 ^ places) := by
  by_cases hplaces : places = 0
  · subst hplaces
    exact ⟨Nat.toDigits 10 n, [], by simp, rfl, isWhole_toDigits n, by simp, by simp⟩
  · have hpow : pow10 places = 10 ^ places := rfl
    have hlen := length_leftpad_toDigits hplaces
      (Nat.mod_lt n (Nat.pow_pos (n := places) (by decide : 0 < 10)))
    refine ⟨Nat.toDigits 10 (n / 10 ^ places),
      List.leftpad places '0' (Nat.toDigits 10 (n % 10 ^ places)), ?text, hlen,
      isWhole_toDigits _, isDigit_of_mem_leftpad, ?value⟩
    case text => simp [fixed, hplaces, hpow]
    case value =>
      -- quotient and remainder by the power of ten, put together again
      rw [hlen, ofDigitChars_leftpad, Nat.ofDigitChars_ten_toDigits]
      have hsplit : ((10 ^ places * (n / 10 ^ places) + n % 10 ^ places : ℕ) : ℚ) = n :=
        congrArg Nat.cast (Nat.div_add_mod n (10 ^ places))
      push_cast at hsplit
      field_simp
      linarith

end Decimal

/-! ## What a reading shows -/

namespace Binary64

theorem units_pos_iff {significand scale : Nat} : 0 < units significand scale ↔ significand ≠ 0 := by
  rw [units, Nat.shiftLeft_eq, Nat.pos_iff_ne_zero]
  simp

theorem unitsPerOne_pos : (0 : ℚ) < unitsPerOne := by
  have hpos (k : Nat) : 0 < 1 <<< k := by
    rw [Nat.one_shiftLeft]
    exact Nat.two_pow_pos k
  exact Nat.cast_pos.mpr (hpos 1074)

variable {negative : Bool} {significand scale : Nat} {x : ℚ}

theorem abs_of_toRat? (h : (finite negative significand scale).toRat? = some x) :
    |x| = units significand scale / unitsPerOne := by
  obtain rfl := Option.some.inj h
  have habs : |(if negative then -1 else 1 : ℚ)| = 1 := by cases negative <;> simp
  rw [abs_mul, habs, one_mul, abs_of_nonneg]
  positivity

theorem neg_iff_of_toRat? (h : (finite negative significand scale).toRat? = some x) :
    x < 0 ↔ (negative && significand != 0) = true := by
  obtain rfl := Option.some.inj h
  have hunits : (0 : ℚ) < units significand scale / unitsPerOne ↔ significand ≠ 0 := by
    rw [div_pos_iff_of_pos_right unitsPerOne_pos, Nat.cast_pos, units_pos_iff]
  have hnonneg : (0 : ℚ) ≤ units significand scale / unitsPerOne := by positivity
  cases negative with
  | false => simpa using hnonneg
  | true => simpa using hunits

end Binary64

/-- A reading is the sign of the exact value, and its absolute value cut behind the
decimals. -/
theorem reading?_of_exactValue? {v : Float} {x : ℚ} (h : exactValue? v = some x) (digits : Nat) :
    reading? v digits =
      some (signText (decide (x < 0)) ++ Decimal.fixed ⌊|x| * 10 ^ digits⌋₊ digits) := by
  rw [exactValue?_eq_toRat?] at h
  unfold reading?
  cases hfields : Binary64.ofFloat v with
  | nan | infinite negative =>
      rw [hfields] at h
      cases h
  | finite negative significand scale =>
      rw [hfields] at h
      have hpow : (Decimal.pow10 digits : ℚ) = 10 ^ digits := by
        have hnat : Decimal.pow10 digits = 10 ^ digits := rfl
        rw [hnat, Nat.cast_pow, Nat.cast_ofNat]
      have hscaled : ⌊|x| * 10 ^ digits⌋₊ =
          Binary64.units significand scale * Decimal.pow10 digits / Binary64.unitsPerOne := by
        rw [Binary64.abs_of_toRat? h, ← Nat.floor_div_eq_div (K := ℚ), Nat.cast_mul, hpow,
          div_mul_eq_mul_div]
      have hsign : decide (x < 0) = (negative && significand != 0) := by
        rw [Bool.eq_iff_iff, decide_eq_true_iff, Binary64.neg_iff_of_toRat? h]
      rw [hscaled, hsign]
      rfl

theorem reading?_eq_none_iff {v : Float} {digits : Nat} :
    reading? v digits = none ↔ exactValue? v = none := by
  cases h : exactValue? v with
  | some x => simp [reading?_of_exactValue? h]
  | none =>
      rw [exactValue?_eq_toRat?] at h
      unfold reading?
      cases hfields : Binary64.ofFloat v with
      | nan | infinite negative => simp [Binary64.reading?]
      | finite negative significand scale =>
          rw [hfields] at h
          cases h

/-- The reading of a finite value with so many decimals is a minus sign, if the value is
below zero, and then a whole number and exactly these decimals, which write the absolute
value cut toward zero. There is no reading of what is infinite or not a number. -/
theorem reading?_is_truncation (v : Float) (digits : Nat) :
    (v.isFinite = true → ∃ x, exactValue? v = some x ∧ ∃ whole decimals,
      reading? v digits = some
        ((if x < 0 then ['-'] else []) ++ (whole ++ if digits = 0 then [] else '.' :: decimals)) ∧
      decimals.length = digits ∧
      Decimal.Writes whole decimals (⌊|x| * 10 ^ digits⌋ / 10 ^ digits)) ∧
    (reading? v digits = none ↔ v.isNaN = true ∨ v.isInf = true) := by
  refine ⟨fun hfinite => ?_, reading?_eq_none_iff.trans (exactValue?_eq_none_iff v)⟩
  obtain ⟨x, hx⟩ := (exists_exactValue?_iff v).mpr hfinite
  obtain ⟨whole, decimals, htext, hlen, hwrites⟩ :=
    Decimal.exists_writes_fixed ⌊|x| * 10 ^ digits⌋₊ digits
  have hnonneg : (0 : ℚ) ≤ |x| * 10 ^ digits := by positivity
  have hfloor : ((⌊|x| * 10 ^ digits⌋₊ : ℕ) : ℚ) = ⌊|x| * 10 ^ digits⌋ :=
    natCast_floor_eq_intCast_floor hnonneg
  rw [hfloor] at hwrites
  refine ⟨x, hx, whole, decimals, ?_, hlen, hwrites⟩
  rw [reading?_of_exactValue? hx, htext]
  simp [signText]

/-- Minus one half without decimals. -/
theorem reading?_is_truncation_of_half :
    (-0.5 : Float).isFinite = true ∧ exactValue? (-0.5) = some (-1 / 2) ∧ ∃ whole decimals,
      reading? (-0.5) 0 = some ('-' :: whole) ∧ decimals.length = 0 ∧
      Decimal.Writes whole decimals (⌊|(-1 / 2 : ℚ)| * 10 ^ 0⌋ / 10 ^ 0) := by
  have hfinite : (-0.5 : Float).isFinite = true := by decide +kernel
  have hvalue : exactValue? (-0.5) = some (-1 / 2) := by decide +kernel
  obtain ⟨x, hx, whole, decimals, hreading, hlen, hwrites⟩ :=
    (reading?_is_truncation (-0.5) 0).1 hfinite
  obtain rfl : x = -1 / 2 := Option.some.inj (hx.symm.trans hvalue)
  have hnegative : (-1 / 2 : ℚ) < 0 := by norm_num
  rw [if_pos hnegative, if_pos rfl, List.append_nil] at hreading
  exact ⟨hfinite, hvalue, whole, decimals, hreading, hlen, hwrites⟩

/-- The sign stays though no digit shown is left of the value. -/
example : reading? (-0.5) 0 = some ['-', '0'] := by decide +kernel

end Reckoner
