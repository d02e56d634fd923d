import Reckoner.Text.Letter
import Reckoner.Text.Digit
import Reckoner.Text.Mark

/-!
# Characters of names

Two classes that are close but not the same. A *word character* continues the
name of a variable in a formula. An *alphanumeric* character is one that the
calculator accepts in the name of a variable to be registered, and that its
editing keys take for part of a term. A letter or a decimal digit is both; `²` is
only alphanumeric; a combining mark that is no letter, a joiner and a connector
such as `‿` are only word characters.
-/
namespace Reckoner

/-- The general category `Pc`: punctuation that joins two words. -/
def connectorRanges : CodeRanges :=
  [(0x005F, 0x005F), (0x203F, 0x2040), (0x2054, 0x2054), (0xFE33, 0xFE34), (0xFE4D, 0xFE4F),
   (0xFF3F, 0xFF3F)]

def isConnector (c : Char) : Bool := connectorRanges.contains c.toNat

/-- Whether `c` joins or parts the characters around it and shows nothing
itself. -/
def isJoiner (c : Char) : Bool := c == '\u200c' || c == '\u200d'

/-- Whether `c` continues a name in a formula. -/
def isWordChar (c : Char) : Bool :=
  isLetter c || isDecimalDigit c || isNonspacingMark c || isSpacingMark c || isConnector c ||
    isJoiner c

/-- Whether `c` is a letter or a number character. -/
def isAlphanumeric (c : Char) : Bool := isLetter c || isDecimalDigit c || isOtherNumber c

/-- Whether `c` may stand in the name of a variable to be registered. -/
def isNameChar (c : Char) : Bool := isAlphanumeric c || c == '_'

/-! ## How the classes meet -/

/-- An alphanumeric character continues a name in a formula, unless its only
claim is to be one of the other numbers. -/
theorem isWordChar_of_isAlphanumeric {c : Char} (h : isAlphanumeric c = true)
    (hc : isOtherNumber c = false) : isWordChar c = true := by
  simp only [isAlphanumeric, hc, Bool.or_false, Bool.or_eq_true] at h
  rcases h with h | h <;> simp [isWordChar, h]

/-- One of the other numbers does not continue a name in a formula. -/
theorem isWordChar_eq_false_of_isOtherNumber {c : Char} (h : isOtherNumber c = true) :
    isWordChar c = false := by
  have hnone : ∀ ranges ∈ [letterRanges, decimalDigitRanges, nonspacingMarkRanges,
      spacingMarkRanges, connectorRanges], ranges.contains c.toNat = false := by
    have hapart : ∀ ranges ∈ [letterRanges, decimalDigitRanges, nonspacingMarkRanges,
        spacingMarkRanges, connectorRanges], otherNumberRanges.apart ranges = true := by
      decide +kernel
    intro ranges hranges
    exact CodeRanges.not_contains_of_apart (hapart ranges hranges) h
  have hjoiner : isJoiner c = false := by
    refine Bool.eq_false_iff.mpr fun hjoiner => ?_
    simp only [isJoiner, Bool.or_eq_true, beq_iff_eq] at hjoiner
    rcases hjoiner with rfl | rfl
    · exact absurd h (by decide +kernel)
    · exact absurd h (by decide +kernel)
  simp only [List.forall_mem_cons] at hnone
  obtain ⟨hletter, hdigit, hnonspacing, hspacing, hconnector, -⟩ := hnone
  simp [isWordChar, isLetter, isDecimalDigit, isNonspacingMark, isSpacingMark, isConnector,
    hletter, hdigit, hnonspacing, hspacing, hconnector, hjoiner]

theorem isWordChar_underscore : isWordChar '_' = true := by decide +kernel

end Reckoner
