import Reckoner.Numeral
import Reckoner.Operator
import Reckoner.Text.Blank
import Reckoner.Text.Word

/-!
# Tokens

A formula is cut into tokens from left to right. At each place the first of these
that fits is taken, as long as it gets:

* white space, which separates and is no token;
* a reference to a variable: `$` and the word characters after it, if any;
* a numeral, its sign included: `2 -4` is two numerals, `2 - 4` has an operator;
* one of the symbols `+ - * / ^ ( )`;
* free text, up to the next place where one of the others fits.

A token is kept as its text. What it means is decided later (`Reckoner.Symbol`).
-/
namespace Reckoner

/-- The sign in front of the name of a variable. -/
def referenceSign : Char := '$'

def isParenthesis (c : Char) : Bool := c == '(' || c == ')'

/-- Whether `c` is a token on its own. -/
def isSymbolChar (c : Char) : Bool := (Operator.ofSymbol? c).isSome || isParenthesis c

namespace Token

/-- The reference, numeral or symbol at the start of a text, and the rest. -/
def takeProper? : Text → Option (Text × Text)
  | [] => none
  | c :: rest =>
    if c = referenceSign then some (c :: rest.takeWhile isWordChar, rest.dropWhile isWordChar)
    else match Numeral.take? (c :: rest) with
      | some found => some found
      | none => if isSymbolChar c then some ([c], rest) else none

theorem takeProper?_referenceSign (rest : Text) :
    takeProper? (referenceSign :: rest) =
      some (referenceSign :: rest.takeWhile isWordChar, rest.dropWhile isWordChar) := by
  simp [takeProper?]

/-- The free text at the start of a text, and the rest. -/
def takeFree : Text → Text × Text
  | [] => ([], [])
  | c :: rest =>
    if isBlank c || (takeProper? (c :: rest)).isSome then ([], c :: rest)
    else
      let (free, rest) := takeFree rest
      (c :: free, rest)

/-- The first token of a text, and the rest. -/
def next? (t : Text) : Option (Text × Text) :=
  match t.dropWhile isBlank with
  | [] => none
  | t => some ((takeProper? t).getD (takeFree t))

/-! ## Each token takes at least one character -/

theorem takeProper?_append {t token rest : Text} (h : takeProper? t = some (token, rest)) :
    token ++ rest = t := by
  unfold takeProper? at h
  split at h
  · simp at h
  · split at h
    · simp only [Option.some.injEq, Prod.mk.injEq] at h
      obtain ⟨rfl, rfl⟩ := h
      rw [List.cons_append, List.takeWhile_append_dropWhile]
    · split at h
      · rename_i found hfound
        obtain rfl := Option.some.inj h
        exact Numeral.take?_append hfound
      · split at h
        · simp only [Option.some.injEq, Prod.mk.injEq] at h
          obtain ⟨rfl, rfl⟩ := h
          rfl
        · simp at h

theorem takeProper?_ne_nil {t token rest : Text} (h : takeProper? t = some (token, rest)) :
    token ≠ [] := by
  unfold takeProper? at h
  split at h
  · simp at h
  · split at h
    · simp only [Option.some.injEq, Prod.mk.injEq] at h
      simp [← h.1]
    · split at h
      · rename_i found hfound
        obtain rfl := Option.some.inj h
        exact Numeral.take?_ne_nil hfound
      · split at h
        · simp only [Option.some.injEq, Prod.mk.injEq] at h
          simp [← h.1]
        · simp at h

theorem takeFree_append (t : Text) : (takeFree t).1 ++ (takeFree t).2 = t := by
  induction t with
  | nil => rfl
  | cons c rest ih =>
      unfold takeFree
      split
      · rfl
      · simpa using ih

theorem takeFree_ne_nil {c : Char} {rest : Text} (hblank : isBlank c = false)
    (hproper : takeProper? (c :: rest) = none) : (takeFree (c :: rest)).1 ≠ [] := by
  simp [takeFree, hblank, hproper]

/-- The token and the rest are the text without its leading white space. -/
theorem next?_append {t token rest : Text} (h : next? t = some (token, rest)) :
    token ++ rest = t.dropWhile isBlank := by
  unfold next? at h
  split at h
  · simp at h
  · rename_i hne
    have h := Option.some.inj h
    cases hp : takeProper? (t.dropWhile isBlank) with
    | none =>
        rw [hp, Option.getD_none] at h
        have happ := takeFree_append (t.dropWhile isBlank)
        rwa [h] at happ
    | some found =>
        rw [hp, Option.getD_some] at h
        exact takeProper?_append (h ▸ hp)

theorem next?_ne_nil {t token rest : Text} (h : next? t = some (token, rest)) : token ≠ [] := by
  unfold next? at h
  cases ht : t.dropWhile isBlank with
  | nil => simp [ht] at h
  | cons c cs =>
      have hblank : isBlank c = false := by
        have hhead := List.head?_dropWhile_not isBlank t
        simpa [ht] using hhead
      rw [ht] at h
      have h := Option.some.inj h
      cases hp : takeProper? (c :: cs) with
      | none =>
          rw [hp, Option.getD_none] at h
          have hfree := takeFree_ne_nil hblank hp
          rwa [h] at hfree
      | some found =>
          rw [hp, Option.getD_some] at h
          exact takeProper?_ne_nil (h ▸ hp)

theorem next?_length {t token rest : Text} (h : next? t = some (token, rest)) :
    rest.length < t.length := by
  have happ := congrArg List.length (next?_append h)
  have hpos := List.length_pos_iff.mpr (next?_ne_nil h)
  have hdrop := (List.dropWhile_sublist isBlank (l := t)).length_le
  simp only [List.length_append] at happ
  omega

end Token

/-! ## All the tokens -/

/-- The tokens of a formula, behind those already found, which are in reverse. -/
def tokensAfter (found : List Text) (t : Text) : List Text :=
  match _h : Token.next? t with
  | none => found.reverse
  | some (token, rest) => tokensAfter (token :: found) rest
termination_by t.length
decreasing_by exact Token.next?_length _h

def tokens (t : Text) : List Text := tokensAfter [] t

/-- What is left of a formula behind its first `n` tokens. -/
def afterTokens : Nat → Text → Text
  | 0, t => t
  | n + 1, t =>
    match Token.next? t with
    | none => []
    | some (_, rest) => afterTokens n rest

theorem tokensAfter_eq (found : List Text) (t : Text) :
    tokensAfter found t = found.reverse ++ tokens t := by
  induction hn : t.length using Nat.strongRecOn generalizing found t with
  | ind n ih =>
      subst hn
      unfold tokens
      rw [tokensAfter, tokensAfter]
      split
      · simp
      · rename_i token rest h
        have hlen := Token.next?_length h
        rw [ih _ hlen (token :: found) rest rfl, ih _ hlen [token] rest rfl]
        simp

theorem tokens_of_next?_none {t : Text} (h : Token.next? t = none) : tokens t = [] := by
  rw [tokens, tokensAfter]
  split
  · rfl
  · simp_all

theorem tokens_of_next?_some {t token rest : Text} (h : Token.next? t = some (token, rest)) :
    tokens t = token :: tokens rest := by
  rw [tokens, tokensAfter]
  split
  · simp_all
  · rename_i token' rest' h'
    obtain ⟨rfl, rfl⟩ : token' = token ∧ rest' = rest := by simpa [h'] using h
    rw [tokensAfter_eq]
    simp

@[simp] theorem tokens_nil : tokens [] = [] := tokens_of_next?_none rfl

/-- Each of the tokens is the first one of what is left of the formula there. -/
theorem exists_next?_of_mem_tokens {t token : Text} (h : token ∈ tokens t) :
    ∃ t' rest, Token.next? t' = some (token, rest) := by
  induction hn : t.length using Nat.strongRecOn generalizing t with
  | ind n ih =>
      subst hn
      cases hnext : Token.next? t with
      | none =>
          rw [tokens_of_next?_none hnext] at h
          cases h
      | some found =>
          obtain ⟨first, rest⟩ := found
          rw [tokens_of_next?_some hnext] at h
          rcases List.mem_cons.mp h with rfl | hrest
          · exact ⟨t, rest, hnext⟩
          · exact ih rest.length (Token.next?_length hnext) hrest rfl

/-- Going on after some tokens finds exactly the ones not yet found. -/
theorem tokens_afterTokens (n : Nat) (t : Text) :
    tokens (afterTokens n t) = (tokens t).drop n := by
  induction n generalizing t with
  | zero => rfl
  | succ n ih =>
      unfold afterTokens
      cases h : Token.next? t with
      | none => simp [tokens_of_next?_none h]
      | some found =>
          obtain ⟨token, rest⟩ := found
          simp [tokens_of_next?_some h, ih]

end Reckoner
