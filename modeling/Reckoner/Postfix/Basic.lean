import Reckoner.Stack
import Reckoner.Symbol

/-!
# Postfix formulas

A formula in postfix order: each operator stands behind its two operands, and no
parenthesis is needed. It is a stack, and the operator applied last is on top.
-/
namespace Reckoner

inductive Term where
  | number (v : Float)
  | operator (op : Operator)
deriving DecidableEq

def Term.text : Term → Text
  | .number v => numberText v
  | .operator op => [op.symbol]

abbrev Postfix := Stack Term

/-- The terms from the bottom to the top, parted by spaces. -/
def Postfix.text (p : Postfix) : Text := Text.unwords (p.toList.map Term.text)

end Reckoner
