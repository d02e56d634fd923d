import Mathlib.Algebra.Ring.Nat
import Mathlib.Tactic.SplitIfs
import Reckoner.Text.Basic

/-!
# The order of texts by their bytes

Texts are compared character by character, by code point. Where the same texts are kept as
UTF-8 they are compared byte by byte. The two orders are one, since UTF-8 writes a code point
in base 64, the high digits first, and the first byte tells how many follow.
-/
namespace Reckoner.Text

/-- A text in UTF-8. -/
def utf8 (t : Text) : List UInt8 := t.flatMap String.utf8EncodeChar

@[simp] theorem utf8_nil : utf8 [] = [] := rfl

@[simp] theorem utf8_cons (c : Char) (t : Text) :
    utf8 (c :: t) = String.utf8EncodeChar c ++ utf8 t := List.flatMap_cons

/-! ## One character -/

/-- A number with its last `k` digits in base 64 in bytes of their own, behind what is left. -/
def sextets (mark : Nat) : Nat → Nat → List UInt8
  | 0, v => [UInt8.ofNat (mark + v)]
  | k + 1, v => sextets mark k (v / 64) ++ [UInt8.ofNat (128 + v % 64)]

theorem ofNat_lt_ofNat {m n : Nat} (h : m < n) (hn : n < 256) : UInt8.ofNat m < UInt8.ofNat n := by
  rw [UInt8.lt_iff_toNat_lt, UInt8.toNat_ofNat', UInt8.toNat_ofNat']
  omega

/-- With the same number of digits, the first digit that differs decides. -/
theorem sextets_append_lt {mark k v w : Nat} (h : v < w) (hw : mark + w / 64 ^ k < 256)
    (s t : List UInt8) : sextets mark k v ++ s < sextets mark k w ++ t := by
  induction k generalizing v w s t with
  | zero =>
      rw [Nat.pow_zero, Nat.div_one] at hw
      exact List.cons_lt_cons_iff.mpr (.inl (ofNat_lt_ofNat (by omega) hw))
  | succ k ih =>
      rw [sextets, sextets, List.append_assoc, List.append_assoc]
      have hdigit : v / 64 < w / 64 ∨ v / 64 = w / 64 ∧ v % 64 < w % 64 := by omega
      obtain hhigh | ⟨hhigh, hlow⟩ := hdigit
      · refine ih hhigh ?_ _ _
        rwa [Nat.div_div_eq_div_mul, ← Nat.pow_succ']
      · rw [hhigh]
        refine List.append_left_lt (List.cons_lt_cons_iff.mpr (.inl ?_))
        exact ofNat_lt_ofNat (by omega) (by omega)

theorem exists_sextets (mark k v : Nat) :
    ∃ low, sextets mark k v = UInt8.ofNat (mark + v / 64 ^ k) :: low := by
  induction k generalizing v with
  | zero => exact ⟨[], by rw [Nat.pow_zero, Nat.div_one, sextets]⟩
  | succ k ih =>
      obtain ⟨low, hlow⟩ := ih (v / 64)
      refine ⟨low ++ [UInt8.ofNat (128 + v % 64)], ?_⟩
      rw [sextets, hlow, Nat.pow_succ', Nat.div_div_eq_div_mul, List.cons_append]

theorem toNat_le_max (c : Char) : c.toNat ≤ 1114111 := by
  obtain h | h := c.valid
  · have hlow : c.toNat < 0xd800 := h
    omega
  · have hhigh : c.toNat < 0x110000 := h.2
    omega

/-- The mark of the first byte of a code point, and how many bytes follow. -/
def lead (v : Nat) : Nat × Nat :=
  if v ≤ 127 then (0, 0)
  else if v ≤ 2047 then (192, 1)
  else if v ≤ 65535 then (224, 2)
  else (240, 3)

/-- A greater code point begins with a greater byte, or has the same mark and as many bytes. -/
theorem lead_cases {v w : Nat} (h : v < w) (hw : w ≤ 1114111) :
    (lead w).1 + w / 64 ^ (lead w).2 < 256 ∧
      (lead v = lead w ∨ (lead v).1 + v / 64 ^ (lead v).2 < (lead w).1 + w / 64 ^ (lead w).2) := by
  unfold lead
  split_ifs <;> simp only [true_or, and_true] <;> omega

theorem utf8EncodeChar_eq_sextets (c : Char) :
    String.utf8EncodeChar c = sextets (lead c.toNat).1 (lead c.toNat).2 c.toNat := by
  -- the remainders by which the digits are cut off change nothing below the greatest code point
  have hmax := toNat_le_max c
  simp only [String.utf8EncodeChar, lead, Char.toNat_val]
  split_ifs <;>
    simp only [sextets, List.nil_append, List.cons_append, List.cons.injEq, and_true,
      ← UInt8.toNat_inj, UInt8.toNat_ofNat'] <;>
    omega

theorem utf8EncodeChar_append_lt {c d : Char} (h : c < d) (s t : List UInt8) :
    String.utf8EncodeChar c ++ s < String.utf8EncodeChar d ++ t := by
  rw [utf8EncodeChar_eq_sextets, utf8EncodeChar_eq_sextets]
  have hlt : c.toNat < d.toNat := h
  obtain ⟨hbyte, hsame | hless⟩ := lead_cases hlt (toNat_le_max d)
  · rw [hsame]
    exact sextets_append_lt hlt hbyte s t
  · obtain ⟨cs, hc⟩ := exists_sextets (lead c.toNat).1 (lead c.toNat).2 c.toNat
    obtain ⟨ds, hd⟩ := exists_sextets (lead d.toNat).1 (lead d.toNat).2 d.toNat
    rw [hc, hd]
    exact List.cons_lt_cons_iff.mpr (.inl (ofNat_lt_ofNat hless hbyte))

/-! ## A text -/

theorem utf8_lt_of_lt {t u : Text} (h : t < u) : utf8 t < utf8 u := by
  induction h with
  | @nil d u =>
      obtain ⟨b, bytes, hd⟩ := List.exists_cons_of_ne_nil (String.utf8EncodeChar_ne_nil (c := d))
      rw [utf8_cons, hd]
      exact List.nil_lt_cons b _
  | rel h => exact utf8EncodeChar_append_lt h _ _
  | cons h ih => exact List.append_left_lt ih

/-- The order of the characters is the order of the bytes. -/
theorem utf8_lt_iff {t u : Text} : utf8 t < utf8 u ↔ t < u := by
  refine ⟨fun h => ?_, utf8_lt_of_lt⟩
  refine Decidable.byContradiction fun hnot => ?_
  obtain hgt | rfl := List.le_iff_lt_or_eq.mp (List.not_lt.mp hnot)
  · exact List.lt_asymm h (utf8_lt_of_lt hgt)
  · exact List.lt_irrefl _ h

end Reckoner.Text
