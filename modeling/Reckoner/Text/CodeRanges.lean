/-!
# Ranges of code points

A character class of the Unicode standard is kept as the increasing list of the
ranges of code points it covers, both ends included.
-/
namespace Reckoner

/-- The ranges of a character class, in increasing order and apart from each
other. -/
abbrev CodeRanges := List (Nat × Nat)

namespace CodeRanges

/-- Whether one of the ranges holds `n`. The search stops at the first range
that begins after `n`. -/
def contains : CodeRanges → Nat → Bool
  | [], _ => false
  | (first, last) :: rest, n =>
    if n < first then false else n ≤ last || contains rest n

@[simp] theorem contains_nil (n : Nat) : contains [] n = false := rfl

theorem contains_cons (first last n : Nat) (rest : CodeRanges) :
    contains ((first, last) :: rest) n =
      if n < first then false else n ≤ last || contains rest n := rfl

/-- Whether no range of one class meets a range of the other. Ranges of the second
class that end before those of the first are passed over. -/
def apart : CodeRanges → CodeRanges → Bool
  | [], _ => true
  | (first, last) :: rest, others =>
    let others := others.dropWhile (·.2 < first)
    others.head?.all (last < ·.1) && apart rest others

/-- What `contains` finds lies in one of the ranges. -/
theorem exists_mem_of_contains {ranges : CodeRanges} {n : Nat} (h : contains ranges n = true) :
    ∃ r ∈ ranges, r.1 ≤ n ∧ n ≤ r.2 := by
  induction ranges with
  | nil => simp at h
  | cons r rest ih =>
      obtain ⟨first, last⟩ := r
      rw [contains_cons] at h
      split at h
      · simp at h
      · rename_i hfirst
        simp only [Bool.or_eq_true, decide_eq_true_eq] at h
        rcases h with hlast | hrest
        · exact ⟨(first, last), by simp, by simpa using hfirst, hlast⟩
        · obtain ⟨r, hr, hmem⟩ := ih hrest
          exact ⟨r, by simp [hr], hmem⟩

/-- What holds of every number in the ranges holds of what `contains` finds. -/
theorem all_of_contains {ranges : CodeRanges} {p : Nat → Bool} {n : Nat}
    (hall : (ranges.all fun r => (List.range' r.1 (r.2 + 1 - r.1)).all p) = true)
    (h : contains ranges n = true) : p n = true := by
  obtain ⟨r, hr, hfirst, hlast⟩ := exists_mem_of_contains h
  have hrange := List.all_eq_true.mp hall r hr
  refine List.all_eq_true.mp hrange n (List.mem_range'_1.mpr ⟨hfirst, ?_⟩)
  omega

/-- The ranges that end too early are not where a number is found. -/
theorem contains_dropWhile {ranges : CodeRanges} {first n : Nat} (hfirst : first ≤ n)
    (h : contains ranges n = true) : contains (ranges.dropWhile (·.2 < first)) n = true := by
  induction ranges with
  | nil => exact h
  | cons r rest ih =>
      rw [List.dropWhile_cons]
      split
      · rename_i hearly
        have hlast : r.2 < first := by simpa using hearly
        refine ih ?_
        rw [contains_cons] at h
        split at h
        · simp at h
        · have hend : ¬ n ≤ r.2 := by omega
          simpa [hend] using h
      · exact h

/-- No number is in two classes that are apart. -/
theorem not_contains_of_apart {ranges others : CodeRanges} {n : Nat}
    (hapart : apart ranges others = true) (h : contains ranges n = true) :
    contains others n = false := by
  induction ranges generalizing others with
  | nil => simp at h
  | cons r rest ih =>
      obtain ⟨first, last⟩ := r
      simp only [apart, Bool.and_eq_true] at hapart
      obtain ⟨hhead, hrest⟩ := hapart
      rw [contains_cons] at h
      split at h
      · simp at h
      · rename_i hfirst
        refine Bool.eq_false_iff.mpr fun hothers => ?_
        have hlate := contains_dropWhile (Nat.not_lt.mp hfirst) hothers
        simp only [Bool.or_eq_true, decide_eq_true_eq] at h
        rcases h with hlast | hn
        · -- the range that holds `n` ends before the next one of the others begins
          cases hdrop : others.dropWhile (·.2 < first) with
          | nil => simp [hdrop] at hlate
          | cons r others =>
              have hnext : last < r.1 := by simpa [hdrop] using hhead
              have hbefore : n < r.1 := by omega
              rw [hdrop, contains_cons, if_pos hbefore] at hlate
              cases hlate
        · rw [ih hrest hn] at hlate
          cases hlate

end CodeRanges

end Reckoner
