import Reckoner.Session.Actions

/-!
# The screen

A session as its user sees it: the items on the screen, in the order in which
they are displayed, and what each button does.
-/
namespace Reckoner

/-- The screen: a session, where the keyboard goes, and which sections are
unfolded. -/
structure Screen where
  session : Session
  /-- Whether the entry has the keyboard. -/
  keyboardFocus : Bool
  variablesOpen : Bool
  stepsOpen : Bool
deriving DecidableEq

inductive Button where
  | clearEntry
  | clearResults
  | reset
  | erase
  | evaluate
  /-- A key that shows a label and inserts a text. -/
  | key (label : Text) (kind : Insertion) (text : Text)
  /-- The header that folds and unfolds the section of the variables. -/
  | foldVariables
  /-- The header that folds and unfolds the section of the steps. -/
  | foldSteps
  | register
  /-- Inserts a reference to a variable. -/
  | recall (name : Text)
  /-- Removes a variable. -/
  | forget (name : Text)
deriving DecidableEq, Repr

namespace Button

def digit (c : Char) : Button := .key [c] .digit [c]

def operator (op : Operator) : Button := .key [op.symbol] .operator [op.symbol]

def opening : Button := .key ['('] .opening ['(']

def closing : Button := .key [')'] .closing [')']

def sign : Button := .key ['±'] .sign ['-']

def reference : Button := .key [referenceSign] .reference [referenceSign]

def label : Button → Text
  | .clearEntry => "C".toList
  | .clearResults => "CLR".toList
  | .reset => "AC".toList
  | .erase => "DEL".toList
  | .evaluate => "=".toList
  | .key label _ _ => label
  | .foldVariables => "Variables".toList
  | .foldSteps => "Démarche".toList
  | .register => "Enregistrer".toList
  | .recall name => referenceSign :: name
  | .forget _ => "✕".toList

end Button

inductive Item where
  | label (text : Text)
  | field (content : Text)
  /-- A number that can be dragged, with its unit. -/
  | slider (text : Text)
  | button (b : Button)
deriving DecidableEq, Repr

namespace Item

def text : Item → Text
  | .label text => text
  | .field content => content
  | .slider text => text
  | .button b => b.label

def button? : Item → Option Button
  | .button b => some b
  | _ => none

end Item

namespace Screen

/-! ## The items, section by section -/

def heading (s : Screen) : List Item :=
  [.label "Calculatrice formules".toList, .label "Entrée :".toList, .field s.session.entry]

def actions (s : Screen) : List Item :=
  [.button .clearEntry, .button .clearResults, .button .reset, .label "ΣLocal :".toList,
   .slider (Nat.toDigits 10 s.session.digits ++ " chiffres".toList)]

def keypad : List Item :=
  [.opening, .closing, .operator .add, .operator .sub, .operator .mul, .operator .div,
   .operator .pow, .sign, .reference, .evaluate,
   .digit '7', .digit '8', .digit '9', .erase,
   .digit '4', .digit '5', .digit '6', .operator .div,
   .digit '1', .digit '2', .digit '3', .digit '.', .digit '0'].map .button
  ++ [.label [], .label [], .label []]

def errorLine (s : Screen) : List Item :=
  if s.session.error.isEmpty then [] else [.label s.session.error]

/-- One line of the list of variables. -/
def variableLine : Text × Float → List Item
  | (name, value) =>
    [.button (.recall name), .label ("= ".toList ++ numberText value), .button (.forget name)]

def variableList (s : Screen) : List Item :=
  if s.session.bindings.isEmpty then [.label "aucune (une variable inconnue vaut 0)".toList]
  else s.session.bindings.flatMap variableLine

def variableSection (s : Screen) : List Item :=
  .button .foldVariables ::
    if s.variablesOpen then
      [.label [referenceSign], .field s.session.variableName, .label "=".toList, .slider [],
       .button .register] ++ s.variableList
    else []

def resultSection (s : Screen) : List Item :=
  [.label "Résultat :".toList, .label s.session.result, .label "ΣLocal :".toList,
   .label (s.session.reading?.getD "indisponible".toList)]

def stepsSection (s : Screen) : List Item :=
  .button .foldSteps ::
    if s.stepsOpen then
      [.label "Jetons :".toList, .label s.session.steps.tokens,
       .label "Postfixe :".toList, .label s.session.steps.postfixText]
    else []

def items (s : Screen) : List Item :=
  s.heading ++ s.actions ++ keypad ++ s.errorLine ++ s.variableSection ++ s.resultSection ++
    s.stepsSection

/-- The buttons, in the order of display. -/
def buttons (s : Screen) : List Button := s.items.filterMap Item.button?

/-- The button with a label that comes behind `rank` others with the same one. -/
def button? (s : Screen) (label : Text) (rank : Nat) : Option Button :=
  (s.buttons.filter (·.label == label))[rank]?

end Screen

end Reckoner
