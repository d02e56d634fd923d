/-!
# Operators

The five binary operators: how each is written, how tightly it binds, on which
side a chain of it begins, and what it computes.
-/
namespace Reckoner

inductive Operator where
  | add | sub | mul | div | pow
deriving DecidableEq, Repr

/-- The side on which a chain of operators of one precedence is grouped. -/
inductive Associativity where
  | left | right
deriving DecidableEq, Repr

namespace Operator

def all : List Operator := [.add, .sub, .mul, .div, .pow]

def symbol : Operator → Char
  | .add => '+'
  | .sub => '-'
  | .mul => '*'
  | .div => '/'
  | .pow => '^'

def ofSymbol? (c : Char) : Option Operator := all.find? (·.symbol == c)

/-- The greater, the tighter. -/
def precedence : Operator → Nat
  | .add | .sub => 4
  | .mul | .div => 5
  | .pow => 6

def associativity : Operator → Associativity
  | .pow => .right
  | _ => .left

/-- The value of an operator at two operands, in binary64 arithmetic: `1 / 0` is
infinite and `0 / 0` not a number. -/
def apply : Operator → Float → Float → Float
  | .add, left, right => left + right
  | .sub, left, right => left - right
  | .mul, left, right => left * right
  | .div, left, right => left / right
  | .pow, left, right => left.pow right

/-- Whether `earlier`, already read, takes its right operand before `later` takes
its left one: it binds tighter, or as tightly in a chain grouped on the left. -/
def yieldsTo (later earlier : Operator) : Bool :=
  match later.associativity with
  | .left => later.precedence ≤ earlier.precedence
  | .right => later.precedence < earlier.precedence

theorem ofSymbol?_symbol (op : Operator) : ofSymbol? op.symbol = some op := by
  cases op <;> rfl

theorem symbol_of_ofSymbol? {c : Char} {op : Operator} (h : ofSymbol? c = some op) :
    op.symbol = c := by
  have hfound := List.find?_some h
  exact eq_of_beq hfound

end Operator

end Reckoner
