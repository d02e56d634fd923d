import Reckoner.Evaluator

/-!
# Sessions

What the calculator remembers between two actions of its user: the formula being
entered, what the last evaluation showed, the variables, and whether the entry
asks for the keyboard.

The result shown stays there when a later formula fails; all else that an
evaluation shows goes with the error.
-/
namespace Reckoner

/-- Why the user does not get what was asked for. -/
inductive Complaint where
  | emptyEntry
  | emptyName
  | invalidName (name : Text)
  | formula (failure : Failure)
deriving DecidableEq, Repr

/-- The sentence shown to the user. -/
def Complaint.message : Complaint → Text
  | .emptyEntry => "Entrée vide".toList
  | .emptyName => "Nom de variable vide".toList
  | .invalidName name => "Nom de variable invalide : '".toList ++ name ++ ['\'']
  | .formula failure => failure.message

/-- No complaint is silent. -/
theorem Complaint.message_ne_nil (c : Complaint) : c.message ≠ [] := by
  unfold Complaint.message
  split
  · simp
  · simp
  · simp
  · exact Failure.message_ne_nil _

/-- The steps of no formula. -/
def Steps.empty : Steps := ⟨[], []⟩

structure Session where
  entry : Text
  /-- The text of the last value found. -/
  result : Text
  /-- Its truncated reading, if it has one that is still shown. Whether there is one and
  what it says change together, so one field holds both. -/
  reading? : Option Text
  /-- The last complaint, empty once it is settled. -/
  error : Text
  steps : Steps
  /-- How many decimals a reading has. -/
  digits : Nat
  evaluator : Evaluator
  /-- The name and the value of a variable about to be registered. -/
  variableName : Text
  variableValue : Float
  /-- Whether the entry asks for the keyboard. -/
  focusWanted : Bool
deriving DecidableEq

namespace Session

def defaultDigits : Nat := 20

/-- More decimals than this are not shown. -/
def maxDigits : Nat := 200

def initial : Session where
  entry := []
  result := []
  reading? := none
  error := []
  steps := .empty
  digits := defaultDigits
  evaluator := .empty
  variableName := []
  variableValue := 0
  focusWanted := true

def bindings (s : Session) : List (Text × Float) := s.evaluator.registry.entries

/-! ## What is shown -/

/-- Shows a complaint. The last result stays; its reading and its steps go. -/
def complain (s : Session) (message : Text) : Session :=
  { s with error := message, reading? := none, steps := .empty, focusWanted := true }

/-- Shows a result with its reading and its steps. -/
def present (s : Session) (result : Text) (reading? : Option Text) (steps : Steps) : Session :=
  { s with error := [], result, reading?, steps, focusWanted := true }

/-- Clears all that evaluations show. -/
def clearResults (s : Session) : Session :=
  { s with result := [], reading? := none, error := [], steps := .empty, focusWanted := true }

def clearEntry (s : Session) : Session := { s with entry := [], focusWanted := true }

/-- Back to the beginning, the limit on the depth of formulas apart. -/
def reset (s : Session) : Session :=
  { initial with evaluator := s.evaluator.forgetAll }

def setDigits (s : Session) (digits : Nat) : Session :=
  { s with digits := min digits maxDigits, focusWanted := true }

end Session

end Reckoner
