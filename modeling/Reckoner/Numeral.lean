import Reckoner.Decimal.Fixed
import Reckoner.Binary64
import Reckoner.Text.Basic

/-!
# Numerals

How a formula writes a number: an optional sign, then digits `0` to `9`, with a
point before, between but never after them. `-4`, `.5` and `+2.50` are numerals;
`1.`, `--1` and `1e5` are not.
-/
namespace Reckoner

/-- A numeral taken apart. -/
structure Numeral where
  negative : Bool
  /-- The digits before the point. -/
  whole : Text
  /-- The digits after the point, none where there is no point. -/
  fraction : Text
deriving DecidableEq, Repr

namespace Numeral

/-- A sign at the start of a text, and the rest. -/
def takeSign : Text → Text × Text
  | '-' :: rest => (['-'], rest)
  | '+' :: rest => (['+'], rest)
  | rest => ([], rest)

/-! ## Reading a whole text -/

/-- The numeral that a text is. -/
def parse? (t : Text) : Option Numeral :=
  let (sign, body) := takeSign t
  let negative := sign == ['-']
  let whole := body.takeWhile Char.isDigit
  match body.dropWhile Char.isDigit with
  | [] => if whole.isEmpty then none else some ⟨negative, whole, []⟩
  | '.' :: fraction =>
    if !fraction.isEmpty && fraction.all Char.isDigit then some ⟨negative, whole, fraction⟩
    else none
  | _ :: _ => none

/-- The binary64 value nearest to a numeral. -/
def value (n : Numeral) : Float :=
  Binary64.nearest n.negative (Nat.ofDigitChars 10 (n.whole ++ n.fraction) 0)
    (Decimal.pow10 n.fraction.length)

/-! ## The numeral at the start of a text -/

/-- A point and the digits after it at the start of a text, and the rest. A point
without a digit after it is none. -/
def takeFraction? : Text → Option (Text × Text)
  | '.' :: d :: rest =>
    if d.isDigit then some ('.' :: d :: rest.takeWhile Char.isDigit, rest.dropWhile Char.isDigit)
    else none
  | _ => none

/-- The longest numeral without a sign at the start of a text, and the rest. -/
def takeUnsigned? (t : Text) : Option (Text × Text) :=
  let whole := t.takeWhile Char.isDigit
  let rest := t.dropWhile Char.isDigit
  match takeFraction? rest with
  | some (fraction, rest) => some (whole ++ fraction, rest)
  | none => if whole.isEmpty then none else some (whole, rest)

/-- The longest numeral at the start of a text, and the rest. -/
def take? (t : Text) : Option (Text × Text) :=
  let (sign, body) := takeSign t
  (takeUnsigned? body).map fun (digits, rest) => (sign ++ digits, rest)

/-! ### Nothing is lost -/

theorem takeSign_append (t : Text) : (takeSign t).1 ++ (takeSign t).2 = t := by
  unfold takeSign
  split <;> rfl

theorem takeFraction?_append {t fraction rest : Text}
    (h : takeFraction? t = some (fraction, rest)) : fraction ++ rest = t := by
  unfold takeFraction? at h
  split at h
  · split at h
    · simp only [Option.some.injEq, Prod.mk.injEq] at h
      obtain ⟨rfl, rfl⟩ := h
      simp [List.takeWhile_append_dropWhile]
    · simp at h
  · simp at h

theorem takeFraction?_ne_nil {t fraction rest : Text}
    (h : takeFraction? t = some (fraction, rest)) : fraction ≠ [] := by
  unfold takeFraction? at h
  split at h
  · split at h
    · simp only [Option.some.injEq, Prod.mk.injEq] at h
      simp [← h.1]
    · simp at h
  · simp at h

theorem takeUnsigned?_append {t digits rest : Text} (h : takeUnsigned? t = some (digits, rest)) :
    digits ++ rest = t := by
  unfold takeUnsigned? at h
  dsimp only at h
  split at h
  · rename_i fraction r hf
    simp only [Option.some.injEq, Prod.mk.injEq] at h
    obtain ⟨rfl, rfl⟩ := h
    rw [List.append_assoc, takeFraction?_append hf, List.takeWhile_append_dropWhile]
  · split at h
    · simp at h
    · simp only [Option.some.injEq, Prod.mk.injEq] at h
      obtain ⟨rfl, rfl⟩ := h
      exact List.takeWhile_append_dropWhile

theorem takeUnsigned?_ne_nil {t digits rest : Text} (h : takeUnsigned? t = some (digits, rest)) :
    digits ≠ [] := by
  unfold takeUnsigned? at h
  dsimp only at h
  split at h
  · rename_i fraction r hf
    simp only [Option.some.injEq, Prod.mk.injEq] at h
    simp [← h.1, takeFraction?_ne_nil hf]
  · split at h
    · simp at h
    · rename_i hw
      simp only [Option.some.injEq, Prod.mk.injEq] at h
      simpa [← h.1] using hw

theorem take?_append {t digits rest : Text} (h : take? t = some (digits, rest)) :
    digits ++ rest = t := by
  simp only [take?, Option.map_eq_some_iff, Prod.mk.injEq] at h
  obtain ⟨⟨ds, r⟩, hds, rfl, rfl⟩ := h
  rw [List.append_assoc, takeUnsigned?_append hds, takeSign_append]

theorem take?_ne_nil {t digits rest : Text} (h : take? t = some (digits, rest)) :
    digits ≠ [] := by
  simp only [take?, Option.map_eq_some_iff, Prod.mk.injEq] at h
  obtain ⟨⟨ds, r⟩, hds, rfl, rfl⟩ := h
  simp [takeUnsigned?_ne_nil hds]

end Numeral

end Reckoner
