import Mathlib.Data.List.Chain
import Reckoner.Grammar
import Reckoner.Proofs.Postfix.Accepted

/-!
# Operands in a row

What a formula of the grammar has beyond balanced parentheses and one number more
than operators. No operand directly follows another one in it: that is all, so
among symbols that balance and count right, it tells the formulas from the rest.
Such symbols are read as an operand, an operator, an operand and so on, and each
operand becomes an atom as soon as its parentheses are closed.
-/
namespace Reckoner

namespace Symbol

/-- Whether an operand may end with the symbol. -/
def endsOperand : Symbol → Bool
  | .number _ | .closing => true
  | .operator _ | .opening => false

/-- Whether an operand may begin with the symbol. -/
def beginsOperand : Symbol → Bool
  | .number _ | .opening => true
  | .operator _ | .closing => false

/-- Not the end of an operand and the beginning of another. -/
def Apart (s next : Symbol) : Prop := s.endsOperand = true → next.beginsOperand = false

theorem apart_of_not_ends {s next : Symbol} (h : s.endsOperand = false) : s.Apart next := by
  intro hends
  rw [h] at hends
  cases hends

theorem apart_of_not_begins {s next : Symbol} (h : next.beginsOperand = false) :
    s.Apart next := fun _ => h

end Symbol

/-! ## Formulas have no operands in a row -/

/-- An operator may stand between any two. -/
theorem isChain_operator {left right : List Symbol} (op : Operator)
    (hleft : left.IsChain Symbol.Apart) (hright : right.IsChain Symbol.Apart) :
    (left ++ .operator op :: right).IsChain Symbol.Apart := by
  refine List.isChain_append.mpr ⟨hleft, hright.cons ?_, ?_⟩
  · intro next _
    exact Symbol.apart_of_not_ends rfl
  · intro s _ next hnext
    obtain rfl := Option.some.inj hnext
    exact Symbol.apart_of_not_begins rfl

/-- Neither within a phrase nor where two phrases meet do operands stand in a row. -/
theorem Derives.isChain {kind : Phrase} {symbols : List Symbol} {t : Tree}
    (h : Derives kind symbols t) : symbols.IsChain Symbol.Apart := by
  induction h with
  | number v => exact .singleton _
  | group h ih =>
      refine List.IsChain.cons (List.isChain_append.mpr ⟨ih, .singleton _, ?_⟩) ?_
      · intro s _ next hnext
        obtain rfl := Option.some.inj hnext
        exact Symbol.apart_of_not_begins rfl
      · intro next _
        exact Symbol.apart_of_not_ends rfl
  | ofAtom h ih => exact ih
  | power hl hr ihl ihr => exact isChain_operator .pow ihl ihr
  | ofPower h ih => exact ih
  | @product op _ _ _ _ hop hl hr ihl ihr => exact isChain_operator op ihl ihr
  | ofProduct h ih => exact ih
  | @sum op _ _ _ _ hop hl hr ihl ihr => exact isChain_operator op ihl ihr

/-! ## Counting -/

/-- The symbols are read with an operand and an operator by turns. An operand is
expected, or else one has just ended. -/
inductive Alternates : (expected : Bool) → List Symbol → Prop where
  | nil : Alternates false []
  | number {symbols : List Symbol} (v : Float) (h : Alternates false symbols) :
      Alternates true (.number v :: symbols)
  | opening {symbols : List Symbol} (h : Alternates true symbols) :
      Alternates true (.opening :: symbols)
  | operator {symbols : List Symbol} (op : Operator) (h : Alternates true symbols) :
      Alternates false (.operator op :: symbols)
  | closing {symbols : List Symbol} (h : Alternates false symbols) :
      Alternates false (.closing :: symbols)

/-- With no operands in a row, there is at most one number more than operators, and
at most as many behind an operand. If there are so many, they come by turns. -/
theorem countP_le_of_isChain {expected : Bool} {symbols : List Symbol}
    (h : symbols.IsChain Symbol.Apart)
    (hhead : expected = false → ∀ s ∈ symbols.head?, s.beginsOperand = false) :
    symbols.countP Symbol.isNumber ≤ symbols.countP Symbol.isOperator + expected.toNat ∧
      (symbols.countP Symbol.isNumber = symbols.countP Symbol.isOperator + expected.toNat →
        Alternates expected symbols) := by
  induction symbols generalizing expected with
  | nil =>
      cases expected with
      | false => exact ⟨Nat.le_refl _, fun _ => .nil⟩
      | true => exact ⟨Nat.zero_le _, fun heq => by cases heq⟩
  | cons s symbols ih =>
      obtain ⟨hnext, htail⟩ := List.isChain_cons.mp h
      -- a number or `)` lets no operand begin next, so one is no longer expected
      cases s with
      | number v =>
          cases expected with
          | false => cases hhead rfl _ rfl
          | true =>
              obtain ⟨hle, heq⟩ := @ih false htail fun _ next hmem => hnext next hmem rfl
              simp only [List.countP_cons, Symbol.isNumber, Symbol.isOperator, if_true,
                Bool.false_eq_true, if_false, Bool.toNat_true, Bool.toNat_false] at hle heq ⊢
              exact ⟨by omega, fun hcount => .number v (heq (by omega))⟩
      | opening =>
          cases expected with
          | false => cases hhead rfl _ rfl
          | true =>
              obtain ⟨hle, heq⟩ := @ih true htail (by simp)
              exact ⟨hle, fun hcount => .opening (heq hcount)⟩
      | operator op =>
          obtain ⟨hle, heq⟩ := @ih true htail (by simp)
          simp only [List.countP_cons, Symbol.isNumber, Symbol.isOperator, if_true,
            Bool.false_eq_true, if_false, Bool.toNat_true] at hle heq ⊢
          refine ⟨by omega, fun hcount => ?_⟩
          cases expected with
          | false => exact .operator op (heq (by simpa using hcount))
          | true =>
              rw [Bool.toNat_true] at hcount
              omega
      | closing =>
          obtain ⟨hle, heq⟩ := @ih false htail fun _ next hmem => hnext next hmem rfl
          simp only [List.countP_cons, Symbol.isNumber, Symbol.isOperator,
            Bool.false_eq_true, if_false, Bool.toNat_false] at hle heq ⊢
          refine ⟨by omega, fun hcount => ?_⟩
          cases expected with
          | false => exact .closing (heq (by simpa using hcount))
          | true =>
              rw [Bool.toNat_true] at hcount
              omega

/-! ## Operands and operators by turns are formulas -/

/-- The symbols are a sum, if an operand is expected; if one has just ended, they
make any atom before them a sum. -/
def Completes : (expected : Bool) → List Symbol → Prop
  | true, symbols => ∃ t, Derives .sum symbols t
  | false, symbols => ∀ (atom : List Symbol) (a : Tree), Derives .atom atom a →
      ∃ t, Derives .sum (atom ++ symbols) t

/-- The symbols close so many parentheses, and complete the operand that each of
them ends. -/
inductive CompletesEach : Nat → List Symbol → Prop where
  | nil : CompletesEach 0 []
  | closing {depth : Nat} {symbols rest : List Symbol} (h : Completes false symbols)
      (hrest : CompletesEach depth rest) :
      CompletesEach (depth + 1) (.closing :: (symbols ++ rest))

namespace Derives

theorem exists_product_of_atom {atom symbols : List Symbol} {op : Operator} {a t : Tree}
    (hatom : Derives .atom atom a) (hop : op = .mul ∨ op = .div ∨ op = .pow)
    (h : Derives .product symbols t) :
    ∃ t, Derives .product (atom ++ .operator op :: symbols) t := by
  generalize hkind : Phrase.product = kind at h
  induction h with
  | ofPower h ih =>
      rcases hop with rfl | rfl | rfl
      · exact ⟨_, .product (.inl rfl) (.ofPower (.ofAtom hatom)) h⟩
      · exact ⟨_, .product (.inr rfl) (.ofPower (.ofAtom hatom)) h⟩
      · exact ⟨_, .ofPower (.power hatom h)⟩
  | product hop' hl hr ihl ihr =>
      -- the atom joins the leftmost power of the product
      obtain ⟨l, hl⟩ := ihl rfl
      have hproduct := Derives.product hop' hl hr
      rw [List.append_assoc, List.cons_append] at hproduct
      exact ⟨_, hproduct⟩
  | _ => cases hkind

/-- An atom and an operator in front of a sum make a sum, however the operator binds. -/
theorem exists_sum_of_atom {atom symbols : List Symbol} {a t : Tree}
    (hatom : Derives .atom atom a) (op : Operator) (h : Derives .sum symbols t) :
    ∃ t, Derives .sum (atom ++ .operator op :: symbols) t := by
  generalize hkind : Phrase.sum = kind at h
  induction h with
  | ofProduct h ih =>
      have hadd : op = .add ∨ op = .sub → ∃ t, Derives .sum (atom ++ .operator op :: _) t :=
        fun hop => ⟨_, .sum hop (.ofProduct (.ofPower (.ofAtom hatom))) h⟩
      have hmul : op = .mul ∨ op = .div ∨ op = .pow →
          ∃ t, Derives .sum (atom ++ .operator op :: _) t := fun hop =>
        (hatom.exists_product_of_atom hop h).imp fun _ hproduct => .ofProduct hproduct
      cases op with
      | add => exact hadd (.inl rfl)
      | sub => exact hadd (.inr rfl)
      | mul => exact hmul (.inl rfl)
      | div => exact hmul (.inr (.inl rfl))
      | pow => exact hmul (.inr (.inr rfl))
  | sum hop hl hr ihl ihr =>
      obtain ⟨l, hl⟩ := ihl rfl
      have hsum := Derives.sum hop hl hr
      rw [List.append_assoc, List.cons_append] at hsum
      exact ⟨_, hsum⟩
  | _ => cases hkind

end Derives

theorem completes_nil : Completes false [] := by
  intro atom a hatom
  rw [List.append_nil]
  exact ⟨a, .ofProduct (.ofPower (.ofAtom hatom))⟩

theorem Alternates.exists_completes {expected : Bool} {symbols : List Symbol} {depth : Nat}
    (h : Alternates expected symbols) (hcloses : Closes depth symbols) :
    ∃ first rest, symbols = first ++ rest ∧ Completes expected first ∧
      CompletesEach depth rest := by
  induction h generalizing depth with
  | nil =>
      obtain rfl := (closes_nil depth).mp hcloses
      exact ⟨[], [], rfl, completes_nil, .nil⟩
  | number v h ih =>
      obtain ⟨first, rest, rfl, hfirst, hrest⟩ := ih hcloses
      exact ⟨.number v :: first, rest, rfl, hfirst [.number v] _ (.number v), hrest⟩
  | opening h ih =>
      obtain ⟨first, rest, rfl, ⟨t, hfirst⟩, hrest⟩ := ih hcloses
      cases hrest with
      | @closing _ tail rest htail hrest =>
          -- what is behind the group belongs to the operand that the group begins
          have hsum := htail _ _ (.group hfirst)
          exact ⟨Symbol.opening :: first ++ [Symbol.closing] ++ tail, rest, by simp, hsum, hrest⟩
  | operator op h ih =>
      obtain ⟨first, rest, rfl, ⟨t, hfirst⟩, hrest⟩ := ih hcloses
      exact ⟨.operator op :: first, rest, rfl, fun atom a hatom =>
        hatom.exists_sum_of_atom op hfirst, hrest⟩
  | closing h ih =>
      cases depth with
      | zero => exact absurd hcloses (not_closes_closing_zero _)
      | succ depth =>
          obtain ⟨first, rest, rfl, hfirst, hrest⟩ := ih hcloses
          -- the operand that has ended is the group, and what follows completes it
          exact ⟨[], _, rfl, completes_nil, .closing hfirst hrest⟩

/-- Balanced symbols with one number more than operators are a formula unless two
operands stand in a row. -/
theorem exists_derives_iff_isChain {symbols : List Symbol} (hbalanced : Balanced symbols)
    (hcount : symbols.countP Symbol.isNumber = symbols.countP Symbol.isOperator + 1) :
    (∃ t, Derives .sum symbols t) ↔ symbols.IsChain Symbol.Apart := by
  constructor
  · rintro ⟨t, h⟩
    exact h.isChain
  · intro hchain
    have halternates := (@countP_le_of_isChain true _ hchain (by simp)).2 hcount
    obtain ⟨first, rest, rfl, hfirst, hrest⟩ :=
      halternates.exists_completes (balanced_iff_closes.mp hbalanced)
    cases hrest
    rwa [List.append_nil]

end Reckoner
