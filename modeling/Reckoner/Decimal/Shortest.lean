import Reckoner.Binary64
import Reckoner.Decimal.Fixed

/-!
# Shortest decimals

The text of a binary64 value: the decimal with the fewest digits that reads back
as that value, always in fixed-point notation, without decimals where there is
nothing to put there.

A decimal reads back as a value when it lies between the two halfway points to
the neighbouring values; a halfway point itself goes to the even significand.
These points are whole numbers of *quarters* of a unit, so the search is exact.
-/
namespace Reckoner

/-- The number `digits · 10 ^ exponent`. -/
structure Decimal where
  digits : Nat
  exponent : Int
deriving DecidableEq, Repr

namespace Decimal

/-- The decimals that read back as one positive binary64 value. All bounds are in
quarters of a unit. -/
structure Interval where
  /-- The value itself. -/
  centre : Nat
  /-- The halfway point to the value below. -/
  lower : Nat
  /-- The halfway point to the value above. -/
  upper : Nat
  /-- Whether the halfway points belong to the value. -/
  closed : Bool
deriving DecidableEq, Repr

/-- The interval of `significand · 2 ^ scale` units. The value below is half as
far as the value above where the significand is the smallest of its scale. -/
def Interval.of (significand scale : Nat) : Interval :=
  let centre := 4 * Binary64.units significand scale
  let gap := if significand = Binary64.leadingBit ∧ scale ≠ 0 then 1 <<< scale else 2 <<< scale
  { centre, lower := centre - gap, upper := centre + 2 <<< scale,
    closed := significand % 2 = 0 }

namespace Interval

/-- Quarters of a unit in one. -/
def quartersPerOne : Nat := 4 * Binary64.unitsPerOne

/-- Whether `num / den` quarters lie in the interval. -/
def holds (i : Interval) (num den : Nat) : Bool :=
  if i.closed then i.lower * den ≤ num && num ≤ i.upper * den
  else i.lower * den < num && num < i.upper * den

/-- The multiple of `10 ^ exponent` in the interval that is nearest to its centre:
one of the two around the centre, the greater where both are equally near. -/
def multiple? (i : Interval) (exponent : Int) : Option Nat :=
  let den := pow10 (-exponent).toNat
  let step := pow10 exponent.toNat * quartersPerOne
  let below := i.centre * den / step
  let above := below + 1
  let belowHolds := i.holds (below * step) den
  let aboveHolds := i.holds (above * step) den
  if belowHolds && (!aboveHolds || 2 * (i.centre * den % step) < step) then some below
  else if aboveHolds then some above
  else none

/-- The first of the decimal grids `10 ^ exponent`, `10 ^ (exponent - 1)`, … that
meets the interval. After `tries` grids, the centre itself. -/
def coarsest (i : Interval) : Nat → Int → Decimal
  | 0, _ => ⟨i.centre * Nat.pow 5 1076, -1076⟩
  | tries + 1, exponent =>
    match i.multiple? exponent with
    | some digits => ⟨digits, exponent⟩
    | none => coarsest i tries (exponent - 1)

end Interval

/-- An exponent of ten that is at least the one of the first digit of
`significand · 2 ^ scale` units, and above it by two at most. -/
def exponentBound (significand scale : Nat) : Int :=
  (((Binary64.units significand scale).log2 : Int) - 1073) * 30103 / 100000 + 1

/-- The shortest decimal that reads back as `significand · 2 ^ scale` units, the
nearest of them. Seventeen digits tell all values apart, so the last grid of the
search is never passed. -/
def shortest (significand scale : Nat) : Decimal :=
  (Interval.of significand scale).coarsest 20 (exponentBound significand scale)

/-- A decimal in fixed-point notation. -/
def text (d : Decimal) : Text := fixed (d.digits * pow10 d.exponent.toNat) (-d.exponent).toNat

end Decimal

/-- The sign in front of a negative number. -/
def signText (negative : Bool) : Text := if negative then ['-'] else []

/-- The text of a binary64 value. -/
def Binary64.text : Binary64 → Text
  | .nan => "NaN".toList
  | .infinite negative => signText negative ++ "inf".toList
  | .finite negative significand scale =>
    signText negative ++
      (if significand = 0 then ['0'] else (Decimal.shortest significand scale).text)

/-- The text of the value of a formula. -/
def numberText (v : Float) : Text := (Binary64.ofFloat v).text

end Reckoner
