/-!
# Texts

A text that the calculator reads or writes is the list of its characters.
-/
namespace Reckoner

/-- A text, as the list of its characters. -/
abbrev Text := List Char

namespace Text

/-- The words in a row, one space between two neighbours. -/
def unwords (words : List Text) : Text := List.intercalate [' '] words

/-- A text without the characters at its end that satisfy `p`. -/
def dropEndWhile (p : Char → Bool) (t : Text) : Text := (t.reverse.dropWhile p).reverse

/-- A text without the characters at both its ends that satisfy `p`. -/
def trim (p : Char → Bool) (t : Text) : Text := dropEndWhile p (t.dropWhile p)

/-- The number of bytes that a text takes in UTF-8. -/
def byteLength (t : Text) : Nat := t.foldl (fun n c => n + c.utf8Size) 0

@[simp] theorem unwords_nil : unwords [] = [] := rfl

@[simp] theorem unwords_singleton (w : Text) : unwords [w] = w := by
  simp [unwords, List.intercalate]

theorem unwords_cons_cons (w next : Text) (words : List Text) :
    unwords (w :: next :: words) = w ++ [' '] ++ unwords (next :: words) := by
  simp [unwords, List.intercalate]

@[simp] theorem dropEndWhile_nil (p : Char → Bool) : dropEndWhile p [] = [] := rfl

theorem dropEndWhile_concat (p : Char → Bool) (t : Text) (c : Char) :
    dropEndWhile p (t ++ [c]) = if p c then dropEndWhile p t else t ++ [c] := by
  by_cases h : p c <;> simp [dropEndWhile, h]

/-- Only characters at the end are lost. -/
theorem dropEndWhile_isPrefix (p : Char → Bool) (t : Text) : dropEndWhile p t <+: t := by
  have h : t.reverse.dropWhile p <:+ t.reverse := List.dropWhile_suffix p
  simpa [dropEndWhile] using List.reverse_prefix.mpr h

/-- What is lost satisfies `p`. -/
theorem exists_dropEndWhile_append (p : Char → Bool) (t : Text) :
    ∃ gap, dropEndWhile p t ++ gap = t ∧ ∀ c ∈ gap, p c = true := by
  refine ⟨(t.reverse.takeWhile p).reverse, ?_, fun c hc => ?_⟩
  · rw [dropEndWhile, ← List.reverse_append, List.takeWhile_append_dropWhile, List.reverse_reverse]
  · exact List.all_eq_true.mp List.all_takeWhile c (List.mem_reverse.mp hc)

end Text

/-! ## Where a run ends -/

section Run

variable {α : Type} {p : α → Bool} {run rest : List α}

theorem takeWhile_run (hrun : ∀ a ∈ run, p a = true) (hrest : ∀ a ∈ rest.head?, p a = false) :
    (run ++ rest).takeWhile p = run := by
  rw [List.takeWhile_append_of_pos hrun]
  cases rest with
  | nil => simp
  | cons a rest => simp [hrest a rfl]

theorem dropWhile_run (hrun : ∀ a ∈ run, p a = true) (hrest : ∀ a ∈ rest.head?, p a = false) :
    (run ++ rest).dropWhile p = rest := by
  rw [List.dropWhile_append_of_pos hrun]
  cases rest with
  | nil => rfl
  | cons a rest => simp [hrest a rfl]

end Run

end Reckoner
