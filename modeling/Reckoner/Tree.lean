import Reckoner.Postfix.Basic

/-!
# Expression trees

The trees that formulas are notations of: their values, and their listing in
postfix order. A listing is replayed from its start with a stack of values; the
replay of what a tree lists leaves the value of the tree on the stack.
-/
namespace Reckoner

inductive Tree where
  | number (v : Float)
  | node (op : Operator) (left right : Tree)
deriving DecidableEq

namespace Tree

def value : Tree → Float
  | .number v => v
  | .node op left right => op.apply left.value right.value

/-- The terms of a tree in postfix order. -/
def terms : Tree → List Term
  | .number v => [.number v]
  | .node op left right => left.terms ++ right.terms ++ [.operator op]

/-- The number of a tree that is one, and else its outermost operator. -/
def root : Tree → Term
  | .number v => .number v
  | .node op _ _ => .operator op

/-- The number of operators on the longest way from the root to a number. -/
def height : Tree → Nat
  | .number _ => 0
  | .node _ left right => max left.height right.height + 1

theorem terms_ne_nil (t : Tree) : t.terms ≠ [] := by
  cases t <;> simp [terms]

/-- The root comes last. -/
theorem getLast?_terms (t : Tree) : t.terms.getLast? = some t.root := by
  cases t <;> simp [terms, root]

end Tree

/-! ## Replay -/

/-- Replays terms with a stack of values, its top first. A number is pushed; an
operator takes its right operand from the top and its left one from below. -/
def replay : List Term → List Float → Option (List Float)
  | [], stack => some stack
  | .number v :: terms, stack => replay terms (v :: stack)
  | .operator op :: terms, right :: left :: stack => replay terms (op.apply left right :: stack)
  | .operator _ :: _, _ => none

theorem replay_append (terms more : List Term) (stack : List Float) :
    replay (terms ++ more) stack = (replay terms stack).bind (replay more) := by
  induction terms generalizing stack with
  | nil => rfl
  | cons term terms ih =>
      cases term with
      | number v => exact ih (v :: stack)
      | operator op =>
          match stack with
          | [] => rfl
          | [_] => rfl
          | right :: left :: stack => exact ih (op.apply left right :: stack)

/-- What a tree lists comes to its value, whatever is on the stack before. -/
theorem replay_terms (t : Tree) (stack : List Float) :
    replay t.terms stack = some (t.value :: stack) := by
  induction t generalizing stack with
  | number v => rfl
  | node op left right ihl ihr =>
      simp only [Tree.terms, replay_append, ihl, ihr, Option.bind_some]
      rfl

end Reckoner
