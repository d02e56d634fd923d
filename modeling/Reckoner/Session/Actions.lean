import Reckoner.Decimal.Reading
import Reckoner.Entry
import Reckoner.Session.Basic

/-!
# The actions of a session

What the user can have done to a session: edit the entry, evaluate it, register
a variable and remove one.
-/
namespace Reckoner.Session

/-! ## The entry -/

/-- A key inserts a text. An empty text is no key. -/
def insert (s : Session) (kind : Insertion) (text : Text) : Session :=
  if text.isEmpty then s
  else { s with entry := Entry.insert kind text s.entry, focusWanted := true }

def erase (s : Session) : Session := { s with entry := Entry.erase s.entry }

/-- The erasing key of the keyboard, with a cursor that reaches from one character
to another. It takes back a whole reference, and only where the cursor stands
right behind it, at the end of the entry, and selects nothing; in any other case
it is none of the session's business. -/
def eraseReference? (s : Session) (cursor : Option (Nat × Nat)) : Option Session :=
  if cursor = some (s.entry.length, s.entry.length) ∧ (Entry.beforeReference? s.entry).isSome then
    some s.erase
  else none

/-! ## Evaluation -/

/-- Evaluates the entry, white space around it apart, and shows what comes out. -/
def evaluate (s : Session) : Logged Session := do
  let formula := Text.trim isBlank s.entry
  if formula.isEmpty then return s.complain Complaint.emptyEntry.message
  match ← s.evaluator.explain formula with
  | .ok (value, steps) =>
    return s.present (numberText value) (Reckoner.reading? value s.digits) steps
  | .error failure =>
    Logged.note (.refused failure)
    return s.complain (Complaint.formula failure).message

/-! ## Variables -/

/-- The name that a text written by the user stands for: without white space
around it, and without the signs of reference in front. -/
def cleanName (written : Text) : Text := (Text.trim isBlank written).dropWhile (· == referenceSign)

/-- The name that a text written by the user stands for, if a variable may be
registered under it. -/
def checkName (written : Text) : Except Complaint Text :=
  let name := cleanName written
  if name.isEmpty then .error .emptyName
  else if name.all isNameChar then .ok name
  else .error (.invalidName name)

/-- Registers the variable whose name and value are filled in. -/
def register (s : Session) : Logged Session := do
  match checkName s.variableName with
  | .error complaint => return s.complain complaint.message
  | .ok name =>
    let evaluator ← s.evaluator.register name s.variableValue
    return { s with evaluator, variableName := [], error := [], focusWanted := true }

def forget (s : Session) (name : Text) : Session :=
  { s with evaluator := s.evaluator.forget name, focusWanted := true }

end Reckoner.Session
