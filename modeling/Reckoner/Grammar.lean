import Reckoner.Tree

/-!
# The grammar of formulas

Which sequences of symbols are formulas, and of which tree each is the notation:

* an atom is a number, or a sum between parentheses;
* a power is an atom, or an atom, `^` and a power: `^` groups on the right;
* a product is a power, or a product, `*` or `/`, and a power;
* a sum is a product, or a sum, `+` or `-`, and a product.

The grammar says nothing of how formulas are read.
-/
namespace Reckoner

/-- The kinds of phrases, each within the next. -/
inductive Phrase where
  | atom | power | product | sum
deriving DecidableEq, Repr

/-- The symbols are a phrase of a kind, and the notation of a tree. -/
inductive Derives : Phrase → List Symbol → Tree → Prop where
  | number (v : Float) : Derives .atom [.number v] (.number v)
  | group {symbols : List Symbol} {t : Tree} (h : Derives .sum symbols t) :
      Derives .atom (.opening :: symbols ++ [.closing]) t
  | ofAtom {symbols : List Symbol} {t : Tree} (h : Derives .atom symbols t) :
      Derives .power symbols t
  | power {base exponent : List Symbol} {l r : Tree} (hl : Derives .atom base l)
      (hr : Derives .power exponent r) :
      Derives .power (base ++ .operator .pow :: exponent) (.node .pow l r)
  | ofPower {symbols : List Symbol} {t : Tree} (h : Derives .power symbols t) :
      Derives .product symbols t
  | product {op : Operator} {left right : List Symbol} {l r : Tree}
      (hop : op = .mul ∨ op = .div) (hl : Derives .product left l) (hr : Derives .power right r) :
      Derives .product (left ++ .operator op :: right) (.node op l r)
  | ofProduct {symbols : List Symbol} {t : Tree} (h : Derives .product symbols t) :
      Derives .sum symbols t
  | sum {op : Operator} {left right : List Symbol} {l r : Tree}
      (hop : op = .add ∨ op = .sub) (hl : Derives .sum left l) (hr : Derives .product right r) :
      Derives .sum (left ++ .operator op :: right) (.node op l r)

namespace Derives

/-- A phrase is not empty. -/
theorem ne_nil {kind : Phrase} {symbols : List Symbol} {t : Tree} (h : Derives kind symbols t) :
    symbols ≠ [] := by
  induction h with
  | number v => simp
  | group h ih => simp
  | ofAtom h ih => exact ih
  | power hl hr ihl ihr => simp
  | ofPower h ih => exact ih
  | product hop hl hr ihl ihr => simp
  | ofProduct h ih => exact ih
  | sum hop hl hr ihl ihr => simp

/-- A number alone is a phrase of every kind. -/
theorem of_number (v : Float) (kind : Phrase) : Derives kind [.number v] (.number v) := by
  cases kind with
  | atom => exact .number v
  | power => exact .ofAtom (.number v)
  | product => exact .ofPower (.ofAtom (.number v))
  | sum => exact .ofProduct (.ofPower (.ofAtom (.number v)))

end Derives

end Reckoner
