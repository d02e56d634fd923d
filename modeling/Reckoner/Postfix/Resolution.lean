import Reckoner.Postfix.Basic

/-!
# Resolution

The value of a postfix formula, read from its top downwards. An operator comes
before its operands, the right one first, so it waits until both are known. The
operators that wait form a stack of their own; a limit may be put on their number.
-/
namespace Reckoner

/-- An operator that waits for its operands: for the right one, then for the left
one. -/
structure Pending where
  operator : Operator
  right? : Option Float
deriving DecidableEq

namespace Resolution

/-- What becomes of a value that was just found. -/
inductive Settled where
  /-- No operator waits: it is the value of the formula. -/
  | done (v : Float)
  /-- An operator took it for its right operand, and waits for the left one. -/
  | waiting (pending : List Pending)
deriving DecidableEq

/-- Hands a value to the operators that wait, the latest first. One that lacked
only its left operand is applied, and its value goes on to the next. -/
def settle (v : Float) : List Pending → Settled
  | [] => .done v
  | ⟨op, none⟩ :: rest => .waiting (⟨op, some v⟩ :: rest)
  | ⟨op, some right⟩ :: rest => settle (op.apply v right) rest

/-- The limit that so many operators exceed, if there is one. -/
def exceeded? (limit : Option Nat) (pending : List Pending) : Option Nat :=
  limit.filter fun limit => limit < pending.length

/-- Resolves the terms listed from the top down, with operators already waiting.
The answer is the value and the terms left over. -/
def run (limit : Option Nat) : List Pending → List Term → Except Failure (Float × List Term)
  | _, [] => .error .missingOperand
  | pending, .operator op :: below =>
    let pending := ⟨op, none⟩ :: pending
    match exceeded? limit pending with
    | some limit => .error (.tooDeep limit)
    | none => run limit pending below
  | pending, .number v :: below =>
    match settle v pending with
    | .done v => .ok (v, below)
    | .waiting pending => run limit pending below

end Resolution

/-- The value of a postfix formula, all of whose terms must be used up. -/
def Postfix.resolve (p : Postfix) (limit : Option Nat) : Except Failure Float :=
  match Resolution.run limit [] p.topDown with
  | .error failure => .error failure
  | .ok (v, []) => .ok v
  | .ok (_, below) => .error (.leftover below.length)

end Reckoner
