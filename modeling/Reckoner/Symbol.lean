import Reckoner.Decimal.Shortest
import Reckoner.Failure
import Reckoner.Numeral
import Reckoner.Operator

/-!
# Symbols

What the tokens of a formula mean, once the references to variables have given
way to their values: numbers, operators and parentheses.
-/
namespace Reckoner

/-- A token behind the look-up of variables: a text still to be read, or the value
of a variable. -/
inductive Fragment where
  | raw (t : Text)
  | value (v : Float)
deriving DecidableEq

inductive Symbol where
  | number (v : Float)
  | operator (op : Operator)
  | opening
  | closing
deriving DecidableEq

namespace Symbol

/-- The symbol that a single character is. -/
def ofChar? (c : Char) : Option Symbol :=
  if c = '(' then some .opening
  else if c = ')' then some .closing
  else (Operator.ofSymbol? c).map .operator

/-- The symbol that a text is: a single character, or else a numeral. -/
def ofText? (t : Text) : Option Symbol :=
  let single := match t with
    | [c] => ofChar? c
    | _ => none
  single <|> (Numeral.parse? t).map fun n => .number n.value

/-- The symbol that a fragment stands for. -/
def ofFragment : Fragment → Except Failure Symbol
  | .value v => .ok (.number v)
  | .raw t =>
    match ofText? t with
    | some symbol => .ok symbol
    | none => .error (.malformed t)

def text : Symbol → Text
  | .number v => numberText v
  | .operator op => [op.symbol]
  | .opening => ['(']
  | .closing => [')']

end Symbol

end Reckoner
