import Reckoner.Postfix.Basic

/-!
# The shunting yard

Symbols arrive in reading order and leave in postfix order. A number leaves at
once. An operator waits for its right operand: it leaves when a later operator
yields to it, or when its group ends. A group begins at the start of the formula
and at each opening parenthesis, so what waits outside a parenthesis is out of
reach until that parenthesis is closed.

Whether each operator gets its two operands is not decided here.
-/
namespace Reckoner

structure Yard where
  /-- What has left, so far. -/
  output : Postfix
  /-- The operators that wait in the innermost open group, the latest first. -/
  group : List Operator
  /-- The operators that wait in the groups around it, the innermost first. -/
  outer : List (List Operator)
deriving DecidableEq

namespace Yard

def empty : Yard := ⟨.empty, [], []⟩

/-- Lets operators leave, in the order in which they are listed. -/
def release (output : Postfix) (ops : List Operator) : Postfix :=
  output.pushAll (ops.map Term.operator)

/-- An operator arrives: those it yields to leave, and it waits. -/
def operator (y : Yard) (op : Operator) : Yard :=
  { y with
    output := release y.output (y.group.takeWhile op.yieldsTo)
    group := op :: y.group.dropWhile op.yieldsTo }

/-- A parenthesis is closed: its group leaves, and the one around it goes on. -/
def close (y : Yard) : Except Failure Yard :=
  match y.outer with
  | [] => .error .unbalanced
  | group :: outer => .ok ⟨release y.output y.group, group, outer⟩

/-- A symbol arrives. -/
def read (y : Yard) : Symbol → Except Failure Yard
  | .number v => .ok { y with output := y.output.push (.number v) }
  | .operator op => .ok (y.operator op)
  | .opening => .ok { y with group := [], outer := y.group :: y.outer }
  | .closing => y.close

def readAll (y : Yard) (symbols : List Symbol) : Except Failure Yard := symbols.foldlM read y

/-- The formula ends: no parenthesis may be open, and the last group leaves. -/
def finish (y : Yard) : Except Failure Postfix :=
  match y.outer with
  | [] => .ok (release y.output y.group)
  | _ :: _ => .error .unbalanced

@[simp] theorem toList_release (output : Postfix) (ops : List Operator) :
    (release output ops).toList = output.toList ++ ops.map Term.operator := by
  simp [release]

@[simp] theorem readAll_nil (y : Yard) : y.readAll [] = .ok y := rfl

@[simp] theorem readAll_cons (y : Yard) (s : Symbol) (symbols : List Symbol) :
    y.readAll (s :: symbols) = y.read s >>= fun y => y.readAll symbols := rfl

@[simp] theorem readAll_singleton (y : Yard) (s : Symbol) : y.readAll [s] = y.read s := by
  rw [readAll_cons]
  cases y.read s <;> rfl

theorem readAll_append (y : Yard) (symbols more : List Symbol) :
    y.readAll (symbols ++ more) = y.readAll symbols >>= fun y => y.readAll more := by
  simp [readAll, List.foldlM_append]

end Yard

/-- The postfix order of a formula in reading order. -/
def Postfix.ofSymbols (symbols : List Symbol) : Except Failure Postfix :=
  Yard.empty.readAll symbols >>= Yard.finish

end Reckoner
