import Reckoner.Text.Basic
import Reckoner.Text.Blank
import Reckoner.Text.Word
import Reckoner.Token

/-!
# Editing the entry

What the keypad does to the text of the formula. Operators are written between
spaces, a sign sticks to the number behind it, and what begins a term is kept
apart from the term before it: without a space, `2 -4` would be two numbers. The
erasing key takes back a whole reference at once.
-/
namespace Reckoner

/-- The ways in which a key may join its text to the entry. -/
inductive Insertion where
  /-- A digit or the point of a numeral. -/
  | digit
  /-- The sign of a numeral. -/
  | sign
  /-- A reference to a variable, or its beginning. -/
  | reference
  /-- An operator between two terms. -/
  | operator
  | opening
  | closing
deriving DecidableEq, Repr

namespace Entry

/-! ## Inserting -/

/-- Whether a term may end in `c`. -/
def endsTerm (c : Char) : Bool := isAlphanumeric c || c == '_' || c == '.' || c == ')'

/-- An entry without the spaces at its end. Other white space stays. -/
def dropEndSpaces (entry : Text) : Text := Text.dropEndWhile (· == ' ') entry

/-- An entry made ready for the beginning of a term: with a space more, if a term
is the last thing in it. -/
def partTerm (entry : Text) : Text :=
  match entry.reverse.find? fun c => !isBlank c with
  | some c => if endsTerm c then entry ++ [' '] else entry
  | none => entry

/-- An entry made ready for a sign: with a space at its end, unless it is empty or
ends in white space or in an opening parenthesis. -/
def partSign (entry : Text) : Text :=
  match entry.getLast? with
  | some c => if isBlank c || c == '(' then entry else entry ++ [' ']
  | none => entry

/-- An entry made ready for an operator: with one space at its end, unless it is
empty. -/
def partOperator (entry : Text) : Text :=
  let entry := dropEndSpaces entry
  if entry.isEmpty then entry else entry ++ [' ']

def insert (kind : Insertion) (text entry : Text) : Text :=
  match kind with
  | .digit => entry ++ text
  | .opening | .reference => partTerm entry ++ text
  | .sign => partSign (partTerm entry) ++ text
  | .operator => partOperator entry ++ text ++ [' ']
  | .closing => dropEndSpaces entry ++ text

/-! ## Erasing -/

/-- What stands before the reference at the end of an entry, if there is one: a
`$` with nothing but the characters of a name behind it. -/
def beforeReference? (entry : Text) : Option Text :=
  match entry.reverse.dropWhile isNameChar with
  | c :: before => if c = referenceSign then some before.reverse else none
  | [] => none

/-- The place, in bytes of UTF-8, where the reference at the end of an entry
begins. -/
def referenceOffset? (entry : Text) : Option Nat := (beforeReference? entry).map Text.byteLength

/-- The entry behind the erasing key: without the reference at its end, or else
without its last character, spaces not counted. -/
def erase (entry : Text) : Text :=
  let entry := dropEndSpaces entry
  dropEndSpaces ((beforeReference? entry).getD entry.dropLast)

/-- An entry without the characters from number `first` up to number `last`. -/
def deleteBetween (first last : Nat) (entry : Text) : Text := entry.take first ++ entry.drop last

/-! ## What erasing leaves -/

theorem dropEndSpaces_isPrefix (entry : Text) : dropEndSpaces entry <+: entry :=
  Text.dropEndWhile_isPrefix _ entry

/-- An entry with a reference at its end is what stands before it, the sign of the
reference, and a name. -/
theorem beforeReference?_eq_some_iff {entry before : Text} :
    beforeReference? entry = some before ↔
      ∃ name, entry = before ++ referenceSign :: name ∧ ∀ c ∈ name, isNameChar c = true := by
  constructor
  · intro h
    unfold beforeReference? at h
    split at h
    · rename_i c rest hdrop
      split at h
      · rename_i hsign
        subst hsign
        obtain rfl := Option.some.inj h
        refine ⟨(entry.reverse.takeWhile isNameChar).reverse, ?_, ?_⟩
        · have hspan := List.takeWhile_append_dropWhile (p := isNameChar) (l := entry.reverse)
          rw [hdrop] at hspan
          simpa using (congrArg List.reverse hspan).symm
        · intro c hc
          exact List.all_eq_true.mp List.all_takeWhile c (List.mem_reverse.mp hc)
      · simp at h
    · simp at h
  · rintro ⟨name, rfl, hname⟩
    have hall : ∀ c ∈ name.reverse, isNameChar c = true := fun c hc =>
      hname c (List.mem_reverse.mp hc)
    have hsign : isNameChar referenceSign = false := by decide +kernel
    simp [beforeReference?, List.dropWhile_append_of_pos hall, hsign]

theorem beforeReference?_isPrefix {entry before : Text}
    (h : beforeReference? entry = some before) : before <+: entry := by
  obtain ⟨name, rfl, _⟩ := beforeReference?_eq_some_iff.mp h
  exact List.prefix_append before _

/-- Erasing takes characters from the end only. -/
theorem erase_isPrefix (entry : Text) : erase entry <+: entry := by
  refine List.IsPrefix.trans (dropEndSpaces_isPrefix _) ?_
  refine List.IsPrefix.trans ?_ (dropEndSpaces_isPrefix entry)
  cases h : beforeReference? (dropEndSpaces entry) with
  | none => exact List.dropLast_prefix _
  | some before => exact beforeReference?_isPrefix h

end Entry

end Reckoner
