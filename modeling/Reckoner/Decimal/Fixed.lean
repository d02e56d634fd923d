import Reckoner.Text.Basic

/-!
# Fixed-point notation

The text of a whole number of tenths, hundredths, thousandths: as many decimals
as asked for, and no exponent.
-/
namespace Reckoner.Decimal

/-- A one with so many zeros behind it. -/
def pow10 (zeros : Nat) : Nat := Nat.pow 10 zeros

/-- The text of `n / 10 ^ places`, with exactly `places` decimals. -/
def fixed (n places : Nat) : Text :=
  let whole := Nat.toDigits 10 (n / pow10 places)
  if places = 0 then whole
  else whole ++ '.' :: List.leftpad places '0' (Nat.toDigits 10 (n % pow10 places))

@[simp] theorem fixed_zero (n : Nat) : fixed n 0 = Nat.toDigits 10 n := by
  simp [fixed, pow10]

/-- The whole part of a fixed-point text is never empty. -/
theorem fixed_ne_nil (n places : Nat) : fixed n places ≠ [] := by
  unfold fixed
  split <;> simp

end Reckoner.Decimal
