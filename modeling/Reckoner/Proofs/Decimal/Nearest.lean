import Mathlib.Data.Nat.Log
import Mathlib.Tactic.Ring
import Reckoner.Decimal.Shortest

/-!
# What rounds to a value

A fraction rounds to a value if it lies in the interval of that value: between the two
halfway points to its neighbours, these points included where the significand is even. The
interval tells this in quarters of a unit, and rounding finds the pattern of bits of the
value. There is one place where the two look different at first: below a power of two the
values are twice as dense, so that a fraction there is rounded at a finer scale than the
one of the value, and is carried over to it.
-/
namespace Reckoner.Binary64

/-- The significand and the scale are the ones of a finite value: the leading bit is there
unless the scale is the smallest, and the pattern of bits is not one of infinity. -/
structure Canonical (significand scale : Nat) : Prop where
  lt : significand < 2 * leadingBit
  leading : scale ≠ 0 → leadingBit ≤ significand
  finite : scale * leadingBit + significand < infinityBits

/-! ## Rounding to a whole number -/

theorem roundHalfEven_eq {num den m : Nat} (hlow : 2 * (m * den) ≤ 2 * num + den)
    (hhigh : 2 * num ≤ 2 * (m * den) + den)
    (htie : m % 2 = 1 → 2 * (m * den) < 2 * num + den ∧ 2 * num < 2 * (m * den) + den)
    (hden : 0 < den) : roundHalfEven num den = m := by
  have hsplit : den * (num / den) + num % den = num := Nat.div_add_mod num den
  have hrest : num % den < den := Nat.mod_lt num hden
  -- the quotient is the number or the one below it
  have hle : num / den ≤ m := by
    apply Nat.lt_succ_iff.mp
    apply Nat.lt_of_mul_lt_mul_left (a := den)
    rw [Nat.mul_succ, Nat.mul_comm den m]
    omega
  have hge : m ≤ num / den + 1 := by
    apply Nat.lt_succ_iff.mp
    apply Nat.lt_of_mul_lt_mul_left (a := den)
    rw [Nat.mul_succ, Nat.mul_succ, Nat.mul_comm den m]
    omega
  unfold roundHalfEven
  dsimp only
  rcases Nat.le_iff_lt_or_eq.mp hle with hbelow | heq
  · have hm : m = num / den + 1 := by omega
    have hmul : m * den = den * (num / den) + den := by rw [hm, Nat.succ_mul, Nat.mul_comm]
    rw [if_neg]
    · exact hm.symm
    · rintro (hlt | ⟨hhalf, heven⟩)
      · omega
      · have hodd := htie (by omega)
        omega
  · have hmul : m * den = den * (num / den) := by rw [← heq, Nat.mul_comm]
    rw [if_pos]
    · exact heq
    · by_cases hhalf : 2 * (num % den) < den
      · exact .inl hhalf
      · refine .inr ⟨by omega, ?_⟩
        by_contra hodd
        have hstrict := htie (by omega)
        omega

/-! ## Rounding to a significand -/

/-- `num / den` units lie between the halfway points around `significand * 2 ^ scale` units,
the points themselves included for an even significand. Where the values below are twice as
dense, the halfway point there is twice as near. -/
structure Near (significand scale num den : Nat) : Prop where
  low : 2 * (significand * (den <<< scale)) ≤ 2 * num + den <<< scale
  high : 2 * num ≤ 2 * (significand * (den <<< scale)) + den <<< scale
  tie : significand % 2 = 1 → 2 * (significand * (den <<< scale)) < 2 * num + den <<< scale ∧
    2 * num < 2 * (significand * (den <<< scale)) + den <<< scale
  dense : significand = leadingBit → scale ≠ 0 →
    4 * (significand * (den <<< scale)) ≤ 4 * num + den <<< scale

section Significand

variable {significand scale num den : Nat}

theorem leadingBit_mul_shiftLeft (den scale : Nat) :
    leadingBit * (den <<< scale) = 2 ^ (scale + 52) * den := by
  have hbit : leadingBit = 2 ^ 52 := rfl
  rw [hbit, Nat.shiftLeft_eq, Nat.pow_add]
  ring

theorem shiftLeft_pos (hden : 0 < den) (scale : Nat) : 0 < den <<< scale := by
  rw [Nat.shiftLeft_eq]
  exact Nat.mul_pos hden (Nat.two_pow_pos scale)

/-- The scale at which a fraction is rounded, if it has so many binary places. -/
theorem log2_sub_eq (hden : 0 < den) (hlow : leadingBit * (den <<< scale) ≤ num)
    (hhigh : num < 2 * (leadingBit * (den <<< scale))) : (num / den).log2 - 52 = scale := by
  rw [leadingBit_mul_shiftLeft] at hlow hhigh
  have hle : 2 ^ (scale + 52) ≤ num / den := (Nat.le_div_iff_mul_le hden).mpr hlow
  have hlt : num / den < 2 ^ (scale + 52 + 1) := by
    apply (Nat.div_lt_iff_lt_mul hden).mpr
    rw [pow_succ', Nat.mul_assoc]
    exact hhigh
  have hne : num / den ≠ 0 := by
    have hpos := Nat.two_pow_pos (scale + 52)
    omega
  rw [(Nat.log2_eq_iff hne).mpr ⟨hle, hlt⟩]
  exact Nat.add_sub_cancel scale 52

/-- What is not below the leading bit is rounded at the scale of the value. -/
theorem Near.log2_sub_eq (h : Near significand scale num den)
    (hcanonical : Canonical significand scale) (hden : 0 < den)
    (hlow : scale = 0 ∨ leadingBit * (den <<< scale) ≤ num) :
    (num / den).log2 - 52 = scale := by
  have hstep := shiftLeft_pos hden scale
  have hhigh : num < 2 * (leadingBit * (den <<< scale)) := by
    have hbound := Nat.mul_le_mul_right (den <<< scale) hcanonical.lt
    rw [Nat.succ_mul, Nat.mul_assoc] at hbound
    have hnum := h.high
    omega
  by_cases hleading : leadingBit * (den <<< scale) ≤ num
  · exact Binary64.log2_sub_eq hden hleading hhigh
  · -- the smallest scale is also the one of all that is smaller
    obtain rfl := hlow.resolve_right hleading
    rw [leadingBit_mul_shiftLeft, Nat.zero_add, Nat.not_le] at hleading
    have hlt : num / den < 2 ^ 52 := (Nat.div_lt_iff_lt_mul hden).mpr hleading
    by_cases hzero : num / den = 0
    · rw [hzero]
      rfl
    · have hlog := (Nat.log2_lt hzero).mpr hlt
      omega

/-- A fraction below the leading bit of a value is near to it only from the densest values
below. -/
theorem Near.eq_leadingBit (h : Near significand scale num den)
    (hcanonical : Canonical significand scale) (hden : 0 < den) (hscale : scale ≠ 0)
    (hlow : num < leadingBit * (den <<< scale)) : significand = leadingBit := by
  have hstep := shiftLeft_pos hden scale
  by_contra hne
  have hsucc : leadingBit + 1 ≤ significand := by
    have hleading := hcanonical.leading hscale
    omega
  have hbound := Nat.mul_le_mul_right (den <<< scale) hsucc
  rw [Nat.succ_mul] at hbound
  have hnum := h.low
  omega

/-- What is near to a value is rounded to it. -/
theorem Near.nearestBits_eq (h : Near significand scale (num * unitsPerOne) den)
    (hcanonical : Canonical significand scale) (hden : 0 < den) :
    nearestBits num den = scale * leadingBit + significand := by
  have hfinite := Nat.min_eq_left (Nat.le_of_lt hcanonical.finite)
  unfold nearestBits
  dsimp only
  by_cases hlow : scale = 0 ∨ leadingBit * (den <<< scale) ≤ num * unitsPerOne
  · rw [h.log2_sub_eq hcanonical hden hlow,
      roundHalfEven_eq h.low h.high h.tie (shiftLeft_pos hden scale), hfinite]
  · -- the fraction is rounded at the next finer scale, to twice the significand
    obtain ⟨hscale, hlow⟩ := not_or.mp hlow
    obtain rfl := h.eq_leadingBit hcanonical hden hscale (Nat.not_le.mp hlow)
    obtain ⟨finer, rfl⟩ := Nat.exists_eq_succ_of_ne_zero hscale
    have hdense := h.dense rfl hscale
    have hdouble : den <<< (finer + 1) = 2 * den <<< finer := Nat.shiftLeft_succ den finer
    have hmul : leadingBit * (2 * den <<< finer) = 2 * (leadingBit * den <<< finer) := by ring
    have hstep := shiftLeft_pos hden finer
    have hbit : 1 ≤ leadingBit := by decide
    have hone := Nat.mul_le_mul_right (den <<< finer) hbit
    rw [Nat.succ_eq_add_one, hdouble, hmul] at hdense hlow
    rw [Nat.one_mul] at hone
    have hlog : (num * unitsPerOne / den).log2 - 52 = finer :=
      Binary64.log2_sub_eq hden (by omega) (by omega)
    have hround : roundHalfEven (num * unitsPerOne) (den <<< finer) = 2 * leadingBit := by
      apply roundHalfEven_eq _ _ _ hstep
      · rw [Nat.mul_assoc]
        omega
      · rw [Nat.mul_assoc]
        omega
      · intro hodd
        omega
    have hbits : finer * leadingBit + 2 * leadingBit = finer.succ * leadingBit + leadingBit := by
      rw [Nat.succ_mul finer]
      omega
    rw [hlog, hround, hbits, hfinite]

end Significand

end Reckoner.Binary64

namespace Reckoner.Decimal.Interval

open Binary64 (Near unitsPerOne)

/-! ## The interval of a value -/

section Ends

variable (significand scale den : Nat)

theorem shiftLeft_mul (a : Nat) : (a <<< scale) * den = a * den <<< scale := by
  rw [Nat.shiftLeft_eq, Nat.shiftLeft_eq]
  ring

theorem upper_mul : (Interval.of significand scale).upper * den =
    4 * (significand * den <<< scale) + 2 * den <<< scale := by
  simp only [Interval.of, Binary64.units]
  rw [Nat.add_mul, Nat.mul_assoc, shiftLeft_mul, shiftLeft_mul]

/-- The lower end is nearer where the values below are twice as dense. -/
theorem lower_mul : (Interval.of significand scale).lower * den =
    4 * (significand * den <<< scale) -
      if significand = Binary64.leadingBit ∧ scale ≠ 0 then den <<< scale
      else 2 * den <<< scale := by
  simp only [Interval.of, Binary64.units]
  rw [Nat.sub_mul, Nat.mul_assoc, shiftLeft_mul, ite_mul, shiftLeft_mul, shiftLeft_mul, Nat.one_mul]

end Ends

theorem le_of_holds {i : Interval} {num den : Nat} (h : i.holds num den = true) :
    i.lower * den ≤ num ∧ num ≤ i.upper * den := by
  unfold holds at h
  split at h
  · simpa using h
  · have hlt : i.lower * den < num ∧ num < i.upper * den := by simpa using h
    exact ⟨hlt.1.le, hlt.2.le⟩

theorem lt_of_holds {i : Interval} {num den : Nat} (hopen : i.closed = false)
    (h : i.holds num den = true) : i.lower * den < num ∧ num < i.upper * den := by
  simpa [holds, hopen] using h

theorem near_of_holds {significand scale num den : Nat}
    (h : (Interval.of significand scale).holds (num * quartersPerOne) den = true) :
    Near significand scale (num * unitsPerOne) den := by
  have hquarters : num * quartersPerOne = 4 * (num * unitsPerOne) := by
    rw [quartersPerOne]
    ring
  have hends := le_of_holds h
  rw [hquarters, lower_mul, upper_mul] at hends
  constructor
  · split at hends <;> omega
  · omega
  · intro hodd
    have hopen : (Interval.of significand scale).closed = false := by simp [Interval.of, hodd]
    have hinside := lt_of_holds hopen h
    rw [hquarters, lower_mul, upper_mul] at hinside
    split at hinside <;> omega
  · intro hbit hscale
    rw [if_pos ⟨hbit, hscale⟩] at hends
    omega

/-- A decimal of the grid is taken only from the interval. -/
theorem holds_of_multiple? {i : Interval} {exponent : Int} {digits : Nat}
    (h : i.multiple? exponent = some digits) :
    i.holds (digits * pow10 exponent.toNat * quartersPerOne) (pow10 (-exponent).toNat) = true := by
  rw [Nat.mul_assoc]
  unfold multiple? at h
  dsimp only at h
  split at h
  · rename_i hbelow
    obtain rfl := Option.some.inj h
    exact (Bool.and_eq_true_iff.mp hbelow).1
  · split at h
    · rename_i habove
      obtain rfl := Option.some.inj h
      exact habove
    · cases h

theorem pow10_pos (zeros : Nat) : 0 < pow10 zeros := Nat.pow_pos (by decide)

/-- The centre lies in the interval, over whatever denominator it is written. -/
theorem holds_of_eq_centre {i : Interval} {num den : Nat} (hlower : i.lower < i.centre)
    (hupper : i.centre < i.upper) (hden : 0 < den) (hnum : num = i.centre * den) :
    i.holds num den = true := by
  have hlow := Nat.mul_lt_mul_of_pos_right hlower hden
  have hhigh := Nat.mul_lt_mul_of_pos_right hupper hden
  rw [← hnum] at hlow hhigh
  unfold holds
  split
  · simp [hlow.le, hhigh.le]
  · simp [hlow, hhigh]

/-- Where the search ends, the decimal is the centre itself. -/
theorem exists_coarsest_zero (i : Interval) (exponent : Int) :
    ∃ fives, i.coarsest 0 exponent = ⟨i.centre * fives, -1076⟩ ∧
      fives * quartersPerOne = pow10 1076 :=
  ⟨Nat.pow 5 1076, rfl, by decide +kernel⟩

/-- Whether a grid meets the interval or the search ends at the centre, what is found lies
in the interval. -/
theorem holds_coarsest {i : Interval} (hlower : i.lower < i.centre) (hupper : i.centre < i.upper)
    (tries : Nat) (exponent : Int) :
    i.holds ((i.coarsest tries exponent).digits * pow10 (i.coarsest tries exponent).exponent.toNat *
      quartersPerOne) (pow10 (-(i.coarsest tries exponent).exponent).toNat) = true := by
  induction tries generalizing exponent with
  | zero =>
      obtain ⟨fives, hcentre, hfives⟩ := i.exists_coarsest_zero exponent
      have hone : pow10 (-1076 : Int).toNat = 1 := rfl
      rw [hcentre]
      apply holds_of_eq_centre hlower hupper (pow10_pos _)
      rw [hone, Nat.mul_one, Nat.mul_assoc, hfives]
      rfl
  | succ tries ih =>
      unfold coarsest
      cases hmultiple : i.multiple? exponent with
      | some digits => exact holds_of_multiple? hmultiple
      | none => exact ih (exponent - 1)

end Reckoner.Decimal.Interval

namespace Reckoner.Decimal

/-- The shortest decimal is near to its value. -/
theorem near_shortest {significand scale : Nat} (h : significand ≠ 0) :
    Binary64.Near significand scale
      ((shortest significand scale).digits * pow10 (shortest significand scale).exponent.toNat *
        Binary64.unitsPerOne) (pow10 (-(shortest significand scale).exponent).toNat) := by
  apply Interval.near_of_holds
  have hpow := Nat.two_pow_pos scale
  have hunits : 1 * 2 ^ scale ≤ significand * 2 ^ scale :=
    Nat.mul_le_mul_right _ (Nat.pos_of_ne_zero h)
  apply Interval.holds_coarsest
  · simp only [Interval.of, Binary64.units, Nat.shiftLeft_eq]
    split <;> omega
  · simp only [Interval.of, Binary64.units, Nat.shiftLeft_eq]
    omega

end Reckoner.Decimal
