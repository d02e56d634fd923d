import Mathlib.Data.List.Forall2
import Reckoner.Proofs.Formula.Numeral
import Reckoner.Registry

/-!
# How formulas are spelled

The texts that stand for a symbol, and the texts that write such tokens in a row.
White space may stand before and behind every token. Between two of them it may be
left out only beside one of `( ) * / ^`, which ends any other token and goes on
with nothing: `2*(3)` needs no white space, but `2 + 3` does, for `2 +3` would be
two numerals. Cutting such a text into tokens finds the tokens that were written.
-/
namespace Reckoner

/-- Whether a token that is this character alone needs no white space beside it. -/
def isTightChar (c : Char) : Bool := c == '(' || c == ')' || c == '*' || c == '/' || c == '^'

def isTight : Text → Bool
  | [c] => isTightChar c
  | _ => false

/-- The token stands for the symbol, where a registry gives the variables their
values. -/
inductive Registry.Denotes (r : Registry) : Text → Symbol → Prop where
  | numeral {token : Text} {n : Numeral} (h : Numeral.Written token n) :
      r.Denotes token (.number n.value)
  | reference {name : Text} (h : ∀ c ∈ name, isWordChar c = true) :
      r.Denotes (referenceSign :: name) (.number ((r.get? name).getD 0))
  | operator (op : Operator) : r.Denotes [op.symbol] (.operator op)
  | opening : r.Denotes ['('] .opening
  | closing : r.Denotes [')'] .closing

theorem Registry.Denotes.digit {r : Registry} {c : Char} (h : c.isDigit = true) :
    r.Denotes [c] (.number (Numeral.mk false [c] []).value) := by
  have hwritten : Numeral.Written ([] ++ [c]) ⟨([] : Text) == ['-'], [c], []⟩ :=
    .whole (by simp [Numeral.signs]) (by simpa using h) (by simp)
  exact .numeral hwritten

/-- The text writes the tokens in a row, with white space where it is needed. -/
inductive Spaced : List Text → Text → Prop where
  | nil {gap : Text} (hgap : ∀ c ∈ gap, isBlank c = true) : Spaced [] gap
  | cons {gap token rest : Text} {tokens : List Text} (hgap : ∀ c ∈ gap, isBlank c = true)
      (hapart : ∀ next ∈ tokens.head?,
        isTight token = true ∨ isTight next = true ∨ ∃ c ∈ rest.head?, isBlank c = true)
      (hrest : Spaced tokens rest) : Spaced (token :: tokens) (gap ++ (token ++ rest))

namespace Spaced

theorem last (token : Text) : Spaced [token] token := by
  have h := @cons [] token [] [] (by simp) (by simp) (.nil (by simp))
  rwa [List.append_nil] at h

/-- White space in front changes nothing. -/
theorem blank {c : Char} {tokens : List Text} {rest : Text} (hc : isBlank c = true)
    (h : Spaced tokens rest) : Spaced tokens (c :: rest) := by
  cases h with
  | nil hgap => exact .nil (List.forall_mem_cons.mpr ⟨hc, hgap⟩)
  | cons hgap hapart hrest =>
      exact .cons (List.forall_mem_cons.mpr ⟨hc, hgap⟩) hapart hrest

/-- White space parts any token from those behind it. -/
theorem parted {c : Char} {token rest : Text} {tokens : List Text} (hc : isBlank c = true)
    (h : Spaced tokens rest) : Spaced (token :: tokens) (token ++ c :: rest) := by
  have hapart : ∀ next ∈ tokens.head?, isTight token = true ∨ isTight next = true ∨
      ∃ d ∈ (c :: rest).head?, isBlank d = true := fun _ _ => .inr (.inr ⟨c, rfl, hc⟩)
  exact @cons [] token _ _ (by simp) hapart (h.blank hc)

/-- Two tokens stand side by side if one of them needs no white space. -/
theorem beside {token next rest : Text} {tokens : List Text}
    (htight : isTight token = true ∨ isTight next = true) (h : Spaced (next :: tokens) rest) :
    Spaced (token :: next :: tokens) (token ++ rest) := by
  refine @cons [] token _ _ (by simp) ?_ h
  intro other hother
  obtain rfl := Option.some.inj hother
  exact htight.imp_right .inl

end Spaced

/-! ## Characters between tokens -/

/-- Whether `c` ends any token before it. -/
def isBoundary (c : Char) : Bool := isBlank c || isTightChar c

/-- White space is no part of a token that is not free text. -/
theorem not_token_of_isBlank {c : Char} (h : isBlank c = true) :
    isWordChar c = false ∧ c.isDigit = false ∧ isSymbolChar c = false ∧
      c ≠ '.' ∧ c ≠ referenceSign := by
  have hall := CodeRanges.all_of_contains (p := fun n =>
    !isWordChar (.ofNat n) && !(Char.ofNat n).isDigit && !isSymbolChar (.ofNat n) &&
      Char.ofNat n != '.' && Char.ofNat n != referenceSign) (by decide +kernel) h
  simpa [Char.ofNat_toNat, and_assoc] using hall

theorem eq_of_isTightChar {c : Char} (h : isTightChar c = true) :
    c = '(' ∨ c = ')' ∨ c = '*' ∨ c = '/' ∨ c = '^' := by
  simpa [isTightChar, or_assoc] using h

theorem not_inner_of_isBoundary {c : Char} (h : isBoundary c = true) :
    isWordChar c = false ∧ c.isDigit = false ∧ c ≠ '.' ∧ c ≠ '-' ∧ c ≠ '+' := by
  simp only [isBoundary, Bool.or_eq_true] at h
  rcases h with h | h
  · obtain ⟨hword, hdigit, hsymbol, hpoint, -⟩ := not_token_of_isBlank h
    refine ⟨hword, hdigit, hpoint, ?_, ?_⟩
    · rintro rfl
      exact absurd hsymbol (by decide)
    · rintro rfl
      exact absurd hsymbol (by decide)
  · rcases eq_of_isTightChar h with rfl | rfl | rfl | rfl | rfl <;> decide +kernel

/-- Behind a token there is nothing, or a boundary. -/
def Bounded (rest : Text) : Prop := ∀ c ∈ rest.head?, isBoundary c = true

theorem Bounded.ends {rest : Text} (h : Bounded rest) : Numeral.Ends rest := by
  intro c hc
  obtain ⟨-, hdigit, hpoint, -⟩ := not_inner_of_isBoundary (h c hc)
  exact ⟨hdigit, hpoint⟩

/-! ## One token -/

namespace Token

theorem takeProper?_of_take? {t : Text} {found : Text × Text} (h : Numeral.take? t = some found) :
    takeProper? t = some found := by
  cases t with
  | nil => cases h
  | cons c rest =>
      have hsign : c ≠ referenceSign := by
        rintro rfl
        have hnone : Numeral.take? (referenceSign :: rest) = none :=
          Numeral.take?_cons_eq_none (by decide) (by decide) (by decide)
        rw [h] at hnone
        cases hnone
      simp [takeProper?, hsign, h]

/-- A symbol that begins no numeral is a token on its own. -/
theorem takeProper?_symbol {c : Char} {rest : Text} (hsymbol : isSymbolChar c = true)
    (hnone : Numeral.take? (c :: rest) = none) : takeProper? (c :: rest) = some ([c], rest) := by
  have hsign : c ≠ referenceSign := by
    rintro rfl
    exact absurd hsymbol (by decide)
  simp [takeProper?, hsign, hnone, hsymbol]

theorem takeProper?_tight {c : Char} {rest : Text} (h : isTightChar c = true) :
    takeProper? (c :: rest) = some ([c], rest) := by
  have hhead : isBoundary c = true := by simp [isBoundary, h]
  obtain ⟨-, hdigit, hpoint, hsign⟩ := not_inner_of_isBoundary hhead
  refine takeProper?_symbol ?_ (Numeral.take?_cons_eq_none hdigit hpoint hsign)
  rcases eq_of_isTightChar h with rfl | rfl | rfl | rfl | rfl <;> decide

/-- A sign in front of a boundary is a symbol. -/
theorem takeProper?_sign {c : Char} {rest : Text} (h : c = '-' ∨ c = '+') (hrest : Bounded rest) :
    takeProper? (c :: rest) = some ([c], rest) := by
  refine takeProper?_symbol ?_ (Numeral.take?_sign_of_ends h hrest.ends)
  rcases h with rfl | rfl <;> decide

theorem takeProper?_reference {name rest : Text} (hname : ∀ c ∈ name, isWordChar c = true)
    (hrest : Bounded rest) :
    takeProper? (referenceSign :: (name ++ rest)) = some (referenceSign :: name, rest) := by
  have hstop : ∀ c ∈ rest.head?, isWordChar c = false := fun c hc =>
    (not_inner_of_isBoundary (hrest c hc)).1
  rw [takeProper?_referenceSign, takeWhile_run hname hstop, dropWhile_run hname hstop]

/-- No token but white space begins with white space. -/
theorem takeProper?_of_isBlank {c : Char} {rest : Text} (h : isBlank c = true) :
    takeProper? (c :: rest) = none := by
  have hhead : isBoundary c = true := by simp [isBoundary, h]
  obtain ⟨-, hdigit, hpoint, hsign⟩ := not_inner_of_isBoundary hhead
  obtain ⟨-, -, hsymbol, -, hreference⟩ := not_token_of_isBlank h
  simp [takeProper?, hreference, hsymbol, Numeral.take?_cons_eq_none hdigit hpoint hsign]

/-- White space in front of a token is passed over. -/
theorem next?_of_takeProper? {gap t token rest : Text} (hgap : ∀ c ∈ gap, isBlank c = true)
    (h : takeProper? t = some (token, rest)) : next? (gap ++ t) = some (token, rest) := by
  have hhead : ∀ c ∈ t.head?, isBlank c = false := by
    intro c hc
    cases t with
    | nil => cases hc
    | cons d t =>
        obtain rfl : d = c := by simpa using hc
        refine Bool.eq_false_iff.mpr fun hblank => ?_
        rw [takeProper?_of_isBlank hblank] at h
        cases h
  have hdrop : (gap ++ t).dropWhile isBlank = t := dropWhile_run hgap hhead
  unfold next?
  rw [hdrop]
  cases t with
  | nil => cases h
  | cons c t => simp [h]

end Token

/-- A token that stands for a symbol is cut off whole, in front of a boundary or
where it needs none. -/
theorem Registry.Denotes.takeProper? {r : Registry} {token rest : Text} {s : Symbol}
    (h : r.Denotes token s) (hrest : isTight token = true ∨ Bounded rest) :
    Token.takeProper? (token ++ rest) = some (token, rest) := by
  cases h with
  | @numeral _ n hwritten =>
      rcases hrest with htight | hrest
      · -- none of the five characters is a numeral
        exfalso
        have hparse := Numeral.parse?_of_written hwritten
        match token, htight with
        | [c], htight =>
          rcases eq_of_isTightChar htight with rfl | rfl | rfl | rfl | rfl <;> cases hparse
      · exact Token.takeProper?_of_take? (Numeral.take?_of_written hwritten hrest.ends)
  | @reference name hname =>
      rcases hrest with htight | hrest
      · match name, htight with
        | [], htight => exact absurd htight (by decide)
      · exact Token.takeProper?_reference hname hrest
  | operator op =>
      cases op with
      | add | sub =>
          refine Token.takeProper?_sign (by decide) (hrest.resolve_left (by decide))
      | mul | div | pow => exact Token.takeProper?_tight (by decide)
  | opening => exact Token.takeProper?_tight (by decide)
  | closing => exact Token.takeProper?_tight (by decide)

/-- Only word characters follow the sign of a reference that is cut off. -/
theorem Token.isWordChar_of_next? {t name rest : Text}
    (h : next? t = some (referenceSign :: name, rest)) :
    ∀ c ∈ name, isWordChar c = true := by
  have htext : t.dropWhile isBlank = referenceSign :: (name ++ rest) := (next?_append h).symm
  unfold next? at h
  rw [htext] at h
  simp only [takeProper?_referenceSign, Option.getD_some, Option.some.injEq, Prod.mk.injEq,
    List.cons.injEq, true_and] at h
  intro c hc
  rw [← h.1] at hc
  exact List.mem_takeWhile_imp hc

/-! ## All the tokens -/

/-- The next token begins with a boundary, or white space in front of it does. -/
theorem Spaced.bounded {tokens : List Text} {rest : Text} (h : Spaced tokens rest)
    (hnext : ∀ next ∈ tokens.head?, isTight next = true ∨ ∃ c ∈ rest.head?, isBlank c = true) :
    Bounded rest := by
  intro c hc
  cases h with
  | nil hgap => simp [isBoundary, hgap c (List.mem_of_mem_head? hc)]
  | @cons gap next tail tokens hgap hapart htail =>
      rcases hnext next rfl with htight | ⟨d, hd, hblank⟩
      · match next, htight with
        | [d], htight =>
          cases gap with
          | nil =>
              obtain rfl : d = c := by simpa using hc
              have : isTightChar d = true := htight
              simp [isBoundary, this]
          | cons b gap =>
              obtain rfl : b = c := by simpa using hc
              simp [isBoundary, hgap b (by simp)]
      · obtain rfl : c = d := Option.some.inj (hc.symm.trans hd)
        simp [isBoundary, hblank]

/-- The tokens of a text are the ones that it was written with. -/
theorem tokens_of_spaced {r : Registry} {words : List Text} {symbols : List Symbol}
    {formula : Text} (h : Spaced words formula) (hwords : List.Forall₂ r.Denotes words symbols) :
    tokens formula = words := by
  -- each step of the writing is undone by taking one token off
  induction h generalizing symbols with
  | nil hgap =>
      refine tokens_of_next?_none ?_
      have hdrop := List.dropWhile_eq_nil_iff.mpr hgap
      unfold Token.next?
      rw [hdrop]
  | @cons gap word rest words hgap hapart hrest ih =>
      cases hwords with
      | @cons _ s _ symbols hword hwords =>
          have hbounded : isTight word = true ∨ Bounded rest := by
            by_cases htight : isTight word = true
            · exact .inl htight
            · exact .inr (hrest.bounded fun next hnext => (hapart next hnext).resolve_left htight)
          have hnext := Token.next?_of_takeProper? hgap (hword.takeProper? hbounded)
          rw [tokens_of_next?_some hnext, ih hwords]

/-- A token that stands for a symbol is a text of one token. -/
theorem Registry.Denotes.tokens_eq {r : Registry} {token : Text} {s : Symbol}
    (h : r.Denotes token s) : tokens token = [token] :=
  tokens_of_spaced (.last token) (.cons h .nil)

end Reckoner
