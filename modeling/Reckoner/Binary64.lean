/-!
# Binary64 values

The values of formulas are the floating-point numbers of 64 bits. Here one is
taken apart into an exact number, and an exact fraction is rounded to one. All of
it is arithmetic on natural numbers: every finite value is a whole number of
*units* of `2 ^ (-1074)`, the smallest positive value.
-/
namespace Reckoner

/-- A binary64 value taken apart. The finite ones are
`± significand · 2 ^ scale` units, with a significand below `2 ^ 53`. -/
inductive Binary64 where
  | nan
  | infinite (negative : Bool)
  | finite (negative : Bool) (significand scale : Nat)
deriving DecidableEq, Repr

namespace Binary64

/-- The number of units in one. -/
def unitsPerOne : Nat := 1 <<< 1074

/-- The leading bit of a significand of 53 bits. A pattern of bits leaves it out. -/
def leadingBit : Nat := 1 <<< 52

/-- The bit of the sign. -/
def signBit : Nat := 1 <<< 63

/-- The value that a pattern of 64 bits stands for. -/
def ofBits (bits : UInt64) : Binary64 :=
  let negative := decide (signBit ≤ bits.toNat)
  let exponent := bits.toNat / leadingBit % 2048
  let fraction := bits.toNat % leadingBit
  if exponent = 2047 then if fraction = 0 then .infinite negative else .nan
  -- a subnormal value has no leading bit, and the scale of the smallest normal one
  else if exponent = 0 then .finite negative fraction 0
  else .finite negative (leadingBit + fraction) (exponent - 1)

def ofFloat (v : Float) : Binary64 := ofBits v.toBits

/-- The absolute value of a finite number, in units. -/
def units (significand scale : Nat) : Nat := significand <<< scale

/-! ## Rounding a fraction -/

/-- `num / den` rounded to a natural number, a half to the even neighbour. -/
def roundHalfEven (num den : Nat) : Nat :=
  let below := num / den
  let rest := 2 * (num % den)
  if rest < den ∨ (rest = den ∧ below % 2 = 0) then below else below + 1

/-- The pattern of bits of positive infinity. -/
def infinityBits : Nat := 2047 * leadingBit

/-- The pattern of bits of the value nearest to `num / den`. Patterns count the
values from zero upwards, so a significand that rounding carries over moves on to
the next exponent by itself. -/
def nearestBits (num den : Nat) : Nat :=
  let inUnits := num * unitsPerOne
  -- the binary places that do not fit into a significand of 53 bits
  let scale := (inUnits / den).log2 - 52
  -- what passes the largest finite value is infinite
  min (scale * leadingBit + roundHalfEven inUnits (den <<< scale)) infinityBits

/-- The binary64 value nearest to `± num / den`. -/
def nearest (negative : Bool) (num den : Nat) : Float :=
  Float.ofBits (UInt64.ofNat ((if negative then signBit else 0) + nearestBits num den))

end Binary64

end Reckoner
