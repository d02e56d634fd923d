import Reckoner.Decimal.Shortest

/-!
# Truncated readings

What a binary64 value really holds: its exact decimal expansion, cut after a
number of decimals. Nothing is rounded, so a longer reading continues a shorter
one.
-/
namespace Reckoner

/-- The first `digits` decimals of a value, cut toward zero. The sign of a value
below zero stays where all the digits shown are zero; zero itself has none. What
is not a number, or infinite, has no reading. The power of ten is taken for any
number of decimals; one whose exponent is kept in 32 bits is the same below `2^32`
decimals, and a session asks for no more than `200`. -/
def Binary64.reading? (digits : Nat) : Binary64 → Option Text
  | .finite negative significand scale =>
    let scaled := Binary64.units significand scale * Decimal.pow10 digits / Binary64.unitsPerOne
    some (signText (negative && significand != 0) ++ Decimal.fixed scaled digits)
  | _ => none

def reading? (v : Float) (digits : Nat) : Option Text := (Binary64.ofFloat v).reading? digits

/-- A reading shows at least one digit. -/
theorem reading?_ne_nil {v : Float} {digits : Nat} {t : Text} (h : reading? v digits = some t) :
    t ≠ [] := by
  unfold reading? Binary64.reading? at h
  split at h
  · obtain rfl := Option.some.inj h
    simp [Decimal.fixed_ne_nil]
  · simp at h

/-- A value without a reading has one of three texts. -/
theorem numberText_of_reading?_eq_none {v : Float} {digits : Nat} (h : reading? v digits = none) :
    numberText v ∈ ["inf".toList, "-inf".toList, "NaN".toList] := by
  unfold reading? at h
  unfold numberText
  cases hv : Binary64.ofFloat v with
  | nan => simp [Binary64.text]
  | infinite negative => cases negative <;> simp [Binary64.text, signText]
  | finite negative significand scale => simp [hv, Binary64.reading?] at h

end Reckoner
