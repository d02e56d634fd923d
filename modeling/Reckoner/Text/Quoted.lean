import Reckoner.Text.Basic
import Reckoner.Text.Blank
import Reckoner.Text.Mark

/-!
# Quoted texts

How the journal writes a formula: between double quotes, on one line, every
character of it visible. What would not show, or would change the look of its
neighbour, is written as its code point in hexadecimal.
-/
namespace Reckoner

/-- What the property `Grapheme_Extend` adds to the nonspacing marks. -/
def graphemeExtenderRanges : CodeRanges :=
  [(0x09BE, 0x09BE), (0x09D7, 0x09D7), (0x0B3E, 0x0B3E), (0x0B57, 0x0B57), (0x0BBE, 0x0BBE),
   (0x0BD7, 0x0BD7), (0x0CC0, 0x0CC0), (0x0CC2, 0x0CC2), (0x0CC7, 0x0CC8), (0x0CCA, 0x0CCB),
   (0x0CD5, 0x0CD6), (0x0D3E, 0x0D3E), (0x0D57, 0x0D57), (0x0DCF, 0x0DCF), (0x0DDF, 0x0DDF),
   (0x1715, 0x1715), (0x1734, 0x1734), (0x1B35, 0x1B35), (0x1B3B, 0x1B3B), (0x1B3D, 0x1B3D),
   (0x1B43, 0x1B44), (0x1BAA, 0x1BAA), (0x1BF2, 0x1BF3), (0x200C, 0x200C), (0x302E, 0x302F),
   (0xA953, 0xA953), (0xA9C0, 0xA9C0), (0xFF9E, 0xFF9F), (0x111C0, 0x111C0), (0x11235, 0x11235),
   (0x1133E, 0x1133E), (0x1134D, 0x1134D), (0x11357, 0x11357), (0x113B8, 0x113B8),
   (0x113C2, 0x113C2), (0x113C5, 0x113C5), (0x113C7, 0x113C9), (0x113CF, 0x113CF),
   (0x114B0, 0x114B0), (0x114BD, 0x114BD), (0x115AF, 0x115AF), (0x116B6, 0x116B6),
   (0x11930, 0x11930), (0x1193D, 0x1193D), (0x11F41, 0x11F41), (0x16FF0, 0x16FF1),
   (0x1D165, 0x1D166), (0x1D16D, 0x1D172), (0xE0020, 0xE007F)]

/-- The general category `Cf`: characters that only direct the layout. -/
def formatRanges : CodeRanges :=
  [(0x00AD, 0x00AD), (0x0600, 0x0605), (0x061C, 0x061C), (0x06DD, 0x06DD), (0x070F, 0x070F),
   (0x0890, 0x0891), (0x08E2, 0x08E2), (0x180E, 0x180E), (0x200B, 0x200F), (0x202A, 0x202E),
   (0x2060, 0x2064), (0x2066, 0x206F), (0xFEFF, 0xFEFF), (0xFFF9, 0xFFFB), (0x110BD, 0x110BD),
   (0x110CD, 0x110CD), (0x13430, 0x1343F), (0x1BCA0, 0x1BCA3), (0x1D173, 0x1D17A),
   (0xE0001, 0xE0001), (0xE0020, 0xE007F)]

/-- Whether `c` attaches to the character before it. -/
def isGraphemeExtender (c : Char) : Bool :=
  isNonspacingMark c || graphemeExtenderRanges.contains c.toNat

/-- Whether `c` is one of the control codes of ASCII and Latin-1. -/
def isControl (c : Char) : Bool := c.toNat < 0x20 || (0x7F ≤ c.toNat && c.toNat < 0xA0)

/-- Whether `c` alone on a line would not be seen for what it is. A code point for
private use, or without a character, passes for visible here: no formula that holds
one is accepted, and only accepted formulas are quoted. -/
def isInvisible (c : Char) : Bool :=
  isControl c || (isBlank c && c != ' ') || formatRanges.contains c.toNat || isGraphemeExtender c

namespace Text

/-- A character as it stands between the quotes. -/
def escape (c : Char) : Text :=
  if c = '"' then ['\\', '"']
  else if c = '\\' then ['\\', '\\']
  else if c = '\t' then ['\\', 't']
  else if c = '\n' then ['\\', 'n']
  else if c = '\r' then ['\\', 'r']
  else if c = '\x00' then ['\\', '0']
  else if isInvisible c then ['\\', 'u', '\x7b'] ++ Nat.toDigits 16 c.toNat ++ ['\x7d']
  else [c]

/-- A text between double quotes. -/
def quoted (t : Text) : Text := '"' :: t.flatMap escape ++ ['"']

/-! ## Printable characters of ASCII -/

/-- The printable characters of ASCII stand as they are, but for those that quoting uses. -/
theorem escape_of_printable {c : Char} (h : ' ' ≤ c ∧ c ≤ '~') (hquote : c ≠ '"')
    (hbackslash : c ≠ '\\') : escape c = [c] := by
  have hall : ∀ n < 0x7F, 0x20 ≤ n → Char.ofNat n ≠ '"' → Char.ofNat n ≠ '\\' →
      escape (Char.ofNat n) = [Char.ofNat n] := by
    decide +kernel
  have hfirst : 0x20 ≤ c.toNat := h.1
  have hlast : c.toNat < 0x7F := Nat.lt_succ_of_le h.2
  have hcode := hall c.toNat hlast hfirst
  rw [Char.ofNat_toNat] at hcode
  exact hcode hquote hbackslash

theorem quoted_of_printable {t : Text} (h : ∀ c ∈ t, ' ' ≤ c ∧ c ≤ '~') (hquote : '"' ∉ t)
    (hbackslash : '\\' ∉ t) : t.quoted = '"' :: t ++ ['"'] := by
  have hescape : ∀ c ∈ t, escape c = [c] := fun c hc =>
    escape_of_printable (h c hc) (ne_of_mem_of_not_mem hc hquote)
      (ne_of_mem_of_not_mem hc hbackslash)
  rw [quoted, List.flatMap_def, List.map_congr_left hescape, ← List.flatMap_def,
    List.flatMap_singleton']

end Text

end Reckoner
