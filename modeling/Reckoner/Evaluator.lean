import Reckoner.Journal
import Reckoner.Postfix.Resolution
import Reckoner.Postfix.Yard
import Reckoner.Registry

/-!
# The evaluator

From the text of a formula to its value: tokens, symbols, postfix order,
resolution. The registry of variables is all that outlives an evaluation, and no
evaluation changes it.
-/
namespace Reckoner

/-- How a formula was understood: its tokens and its postfix order, as texts. -/
structure Steps where
  tokens : Text
  postfixText : Text
deriving DecidableEq, Repr

structure Evaluator where
  registry : Registry
  /-- How many operators may wait for their operands at once; none is no limit. -/
  depthLimit : Option Nat
deriving DecidableEq

namespace Evaluator

def empty : Evaluator := ⟨.empty, none⟩

/-! ## The registry -/

def register (e : Evaluator) (name : Text) (value : Float) : Logged Evaluator :=
  ⟨{ e with registry := e.registry.insert name value }, [.registered name value]⟩

def registerAll (e : Evaluator) (bindings : List (Text × Float)) : Logged Evaluator :=
  bindings.foldlM (fun e (name, value) => e.register name value) e

def forget (e : Evaluator) (name : Text) : Evaluator :=
  { e with registry := e.registry.erase name }

def forgetAll (e : Evaluator) : Evaluator := { e with registry := .empty }

/-! ## Formulas -/

/-- What a token stands for, with a record if it is the name of no variable. -/
def substitute (e : Evaluator) (token : Text) : Logged Fragment :=
  ⟨e.registry.substitute token, (e.registry.unknown? token).toList.map .unknownVariable⟩

/-- The symbols of a formula up to the first token that is none, behind those
already found. Symbols and records found are in reverse. -/
def symbolsAfter (e : Evaluator) (symbols : List Symbol) (journal : List Record) :
    List Text → Logged (Except Failure (List Symbol))
  | [] => ⟨.ok symbols.reverse, journal.reverse⟩
  | token :: tokens =>
    let fragment := e.substitute token
    let journal := fragment.journal.reverse ++ journal
    match Symbol.ofFragment fragment.value with
    | .error failure => ⟨.error failure, journal.reverse⟩
    | .ok symbol => e.symbolsAfter (symbol :: symbols) journal tokens

/-- The symbols that the tokens of a formula stand for. -/
def symbols (e : Evaluator) (tokens : List Text) : Logged (Except Failure (List Symbol)) :=
  e.symbolsAfter [] [] tokens

/-- A formula in postfix order. -/
def analyse (e : Evaluator) (formula : Text) : Logged (Except Failure Postfix) := do
  let symbols ← e.symbols (tokens formula)
  match symbols >>= Postfix.ofSymbols with
  | .error failure => return .error failure
  | .ok p =>
    Logged.note (.compiled formula p.text)
    return .ok p

/-- The value of a postfix formula. -/
def execute (e : Evaluator) (p : Postfix) : Logged (Except Failure Float) := do
  match p.resolve e.depthLimit with
  | .error failure => return .error failure
  | .ok v =>
    Logged.note (.result v)
    return .ok v

@[simp] theorem value_execute (e : Evaluator) (p : Postfix) :
    (e.execute p).value = p.resolve e.depthLimit := by
  unfold execute
  cases p.resolve e.depthLimit <;> rfl

/-- The value of a formula. -/
def evaluate (e : Evaluator) (formula : Text) : Logged (Except Failure Float) := do
  match ← e.analyse formula with
  | .error failure => return .error failure
  | .ok p => e.execute p

theorem value_analyse (e : Evaluator) (formula : Text) :
    (e.analyse formula).value = (e.symbols (tokens formula)).value >>= Postfix.ofSymbols := by
  unfold analyse
  rw [Logged.value_bind]
  cases (e.symbols (tokens formula)).value >>= Postfix.ofSymbols <;> rfl

theorem value_evaluate (e : Evaluator) (formula : Text) :
    (e.evaluate formula).value =
      (e.analyse formula).value >>= fun p => p.resolve e.depthLimit := by
  unfold evaluate
  rw [Logged.value_bind]
  cases (e.analyse formula).value with
  | error failure => rfl
  | ok p => exact e.value_execute p

/-- The value of a formula, and the steps to it. -/
def explain (e : Evaluator) (formula : Text) : Logged (Except Failure (Float × Steps)) := do
  match ← e.analyse formula with
  | .error failure => return .error failure
  | .ok p =>
    let value ← e.execute p
    return value.map fun v => (v, ⟨Text.unwords (tokens formula), p.text⟩)

theorem value_explain (e : Evaluator) (formula : Text) :
    (e.explain formula).value = (e.analyse formula).value >>= fun p =>
      (p.resolve e.depthLimit).map fun v => (v, ⟨Text.unwords (tokens formula), p.text⟩) := by
  unfold explain
  rw [Logged.value_bind]
  cases (e.analyse formula).value with
  | error failure => rfl
  | ok p =>
      rw [Logged.value_bind, value_execute]
      rfl

/-- The steps are added to the value, and to nothing else. -/
theorem value_evaluate_eq_map_explain (e : Evaluator) (formula : Text) :
    (e.evaluate formula).value = (e.explain formula).value.map Prod.fst := by
  rw [value_evaluate, value_explain]
  cases (e.analyse formula).value with
  | error failure => rfl
  | ok p =>
      change p.resolve e.depthLimit = ((p.resolve e.depthLimit).map _).map Prod.fst
      cases p.resolve e.depthLimit <;> rfl

/-- All that an evaluation looks at in a formula are its tokens. -/
theorem value_explain_congr (e : Evaluator) {formula other : Text}
    (h : tokens formula = tokens other) :
    (e.explain formula).value = (e.explain other).value := by
  rw [value_explain, value_explain, value_analyse, value_analyse, h]

theorem value_evaluate_congr (e : Evaluator) {formula other : Text}
    (h : tokens formula = tokens other) :
    (e.evaluate formula).value = (e.evaluate other).value := by
  rw [value_evaluate_eq_map_explain, value_evaluate_eq_map_explain, e.value_explain_congr h]

/-- The steps to a value are the tokens of the formula and its postfix order. -/
theorem exists_analyse_of_explain {e : Evaluator} {formula : Text} {v : Float} {steps : Steps}
    (h : (e.explain formula).value = .ok (v, steps)) :
    ∃ p, (e.analyse formula).value = .ok p ∧ steps = ⟨Text.unwords (tokens formula), p.text⟩ := by
  rw [value_explain] at h
  obtain ⟨p, hanalyse, hresolve⟩ := bind_eq_ok_iff.mp h
  refine ⟨p, hanalyse, ?_⟩
  cases hvalue : p.resolve e.depthLimit with
  | error failure =>
      rw [hvalue] at hresolve
      cases hresolve
  | ok value =>
      rw [hvalue] at hresolve
      exact ((Prod.mk.inj (Except.ok.inj hresolve)).2).symm

theorem explain_nil (e : Evaluator) : (e.explain []).value = .error .missingOperand := by
  rw [value_explain, value_analyse, tokens_nil]
  rfl

/-- Evaluates a formula and gives its value to a variable. -/
def store (e : Evaluator) (name formula : Text) : Logged (Evaluator × Except Failure Float) := do
  match ← e.evaluate formula with
  | .error failure => return (e, .error failure)
  | .ok v => return (← e.register name v, .ok v)

end Evaluator

end Reckoner
