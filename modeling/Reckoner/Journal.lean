import Reckoner.Decimal.Shortest
import Reckoner.Failure
import Reckoner.Text.Quoted

/-!
# The journal

What the calculator notes down while it works, and values that come with such
notes.
-/
namespace Reckoner

inductive Level where
  | debug | info | warn
deriving DecidableEq, Repr

def Level.text : Level → Text
  | .debug => "DEBUG".toList
  | .info => "INFO".toList
  | .warn => "WARN".toList

inductive Record where
  /-- A variable got a value. -/
  | registered (name : Text) (value : Float)
  /-- A reference to a name without a value was taken for zero. -/
  | unknownVariable (name : Text)
  /-- A formula was put into postfix order, whose text follows. -/
  | compiled (formula postfixText : Text)
  /-- A formula has a value. -/
  | result (value : Float)
  /-- A formula has none, and the user is told why. -/
  | refused (failure : Failure)
deriving DecidableEq

namespace Record

def level : Record → Level
  | .registered .. => .info
  | .unknownVariable _ => .warn
  | .compiled .. | .result _ | .refused _ => .debug

def message : Record → Text
  | .registered name value => "variable $".toList ++ name ++ " = ".toList ++ numberText value
  | .unknownVariable name =>
    "variable $".toList ++ name ++ " non enregistrée : remplacée par 0".toList
  | .compiled formula postfixText =>
    formula.quoted ++ " => postfixe [".toList ++ postfixText ++ [']']
  | .result value => "résultat = ".toList ++ numberText value
  | .refused failure => "formule refusée : ".toList ++ failure.message

end Record

/-- A value and what was noted down on the way to it, in order. -/
structure Logged (α : Type) where
  value : α
  journal : List Record
deriving DecidableEq

namespace Logged

variable {α β γ : Type}

/-- Notes down one record. -/
def note (record : Record) : Logged Unit := ⟨(), [record]⟩

instance : Monad Logged where
  pure a := ⟨a, []⟩
  bind x f := ⟨(f x.value).value, x.journal ++ (f x.value).journal⟩

@[simp] theorem value_pure (a : α) : (pure a : Logged α).value = a := rfl

@[simp] theorem journal_pure (a : α) : (pure a : Logged α).journal = [] := rfl

@[simp] theorem value_bind (x : Logged α) (f : α → Logged β) :
    (x >>= f).value = (f x.value).value := rfl

@[simp] theorem journal_bind (x : Logged α) (f : α → Logged β) :
    (x >>= f).journal = x.journal ++ (f x.value).journal := rfl

@[simp] theorem value_note (record : Record) : (note record).value = () := rfl

@[simp] theorem journal_note (record : Record) : (note record).journal = [record] := rfl

end Logged

end Reckoner
