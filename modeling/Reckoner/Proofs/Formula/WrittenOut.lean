import Reckoner.Proofs.Decimal.RoundTrip
import Reckoner.Proofs.Formula.Reference
import Reckoner.Proofs.Formula.Shown

/-!
# Formulas written out

A formula is written out where each reference to a variable has given way to the text of
its value. As long as the values are finite, what is written out has the same outcome,
whatever is registered: the text of a value is a numeral of that value, its sign included,
and no neighbour takes that sign away or gives it another one, for spaces stand between
the tokens. It is the same in formulas that fail, since a reference is never what fails.
-/
namespace Reckoner

namespace Registry

/-- A token with a reference to a variable replaced by the text of its value. -/
def writeOut (r : Registry) (token : Text) : Text :=
  match reference? token with
  | none => token
  | some name =>
    match r.get? name with
    | some v => numberText v
    | none => ['0']

/-- The tokens of a formula in a row, each of them written out. -/
def writtenOut (r : Registry) (formula : Text) : Text :=
  Text.unwords ((tokens formula).map r.writeOut)

/-- The variables that the tokens refer to have finite values, if they have any. -/
def FiniteOn (r : Registry) (words : List Text) : Prop :=
  ∀ name v, referenceSign :: name ∈ words → r.get? name = some v → v.isFinite = true

section WriteOut

variable {r : Registry} {words : List Text} {token name formula : Text}

/-! ## One token -/

theorem writeOut_of_not_reference (r : Registry) (h : reference? token = none) :
    r.writeOut token = token := by
  rw [writeOut, h]

/-- A reference is written out as a numeral of what the name stands for. -/
theorem FiniteOn.exists_written (h : r.FiniteOn words) (hmem : referenceSign :: name ∈ words) :
    ∃ n, Numeral.Written (r.writeOut (referenceSign :: name)) n ∧ n.value = r.meaning name := by
  have hreference : reference? (referenceSign :: name) = some name := by simp [reference?]
  unfold writeOut meaning
  rw [hreference]
  dsimp only
  cases hvalue : r.get? name with
  | some v => exact exists_written_numberText (h name v hmem hvalue)
  | none =>
      have hzero : numberText 0 = ['0'] := by decide +kernel
      have hwritten := exists_written_numberText (v := 0) (by decide +kernel)
      rw [hzero] at hwritten
      exact hwritten

/-- What is written out is cut as one token again. -/
theorem FiniteOn.tokens_writeOut (h : r.FiniteOn words) (hmem : token ∈ words)
    (htoken : tokens token = [token]) : tokens (r.writeOut token) = [r.writeOut token] := by
  rcases reference?_cases token with ⟨name, rfl⟩ | hnone
  · obtain ⟨n, hwritten, -⟩ := h.exists_written hmem
    have hdenotes : r.Denotes (r.writeOut (referenceSign :: name)) (.number n.value) :=
      .numeral hwritten
    exact hdenotes.tokens_eq
  · rw [r.writeOut_of_not_reference hnone]
    exact htoken

/-- What is written out stands for the same symbol, whatever is registered. -/
theorem FiniteOn.symbol_writeOut (h : r.FiniteOn words) (hmem : token ∈ words)
    (other : Registry) : other.symbol (r.writeOut token) = r.symbol token := by
  rcases reference?_cases token with ⟨name, rfl⟩ | hnone
  · obtain ⟨n, hwritten, hvalue⟩ := h.exists_written hmem
    rw [symbol_of_denotes (.numeral hwritten), hvalue, symbol, substitute_of_reference]
    rfl
  · rw [r.writeOut_of_not_reference hnone, symbol, symbol, substitute_of_not_reference hnone,
      substitute_of_not_reference hnone]

/-! ## All tokens of a formula -/

theorem FiniteOn.tokens_writtenOut (h : r.FiniteOn (tokens formula)) :
    tokens (r.writtenOut formula) = (tokens formula).map r.writeOut := by
  apply tokens_unwords
  intro word hword
  obtain ⟨token, hmem, rfl⟩ := List.mem_map.mp hword
  exact h.tokens_writeOut hmem (tokens_of_mem_tokens hmem)

theorem FiniteOn.mapM_symbol_writtenOut (h : r.FiniteOn (tokens formula)) (other : Registry) :
    (tokens (r.writtenOut formula)).mapM other.symbol = (tokens formula).mapM r.symbol := by
  rw [h.tokens_writtenOut, List.mapM_map]
  exact mapM_congr_of_mem fun _ hmem => h.symbol_writeOut hmem other

end WriteOut

end Registry

/-! ## The outcomes -/

namespace Evaluator

/-- The text of a finite value is a formula of that value, however low the limit on the
depth. -/
theorem evaluate_numberText (e : Evaluator) {v : Float} (h : v.isFinite = true) :
    (e.evaluate (numberText v)).value = .ok v := by
  obtain ⟨n, hwritten, hvalue⟩ := exists_written_numberText h
  have hdenotes : e.registry.Denotes (numberText v) (.number n.value) := .numeral hwritten
  rw [hvalue] at hdenotes
  have hsymbols : (e.symbols [numberText v]).value = .ok [.number v] :=
    value_symbols_eq_ok_iff.mpr (.cons (Registry.symbol_of_denotes hdenotes) .nil)
  rw [value_evaluate, value_analyse, hdenotes.tokens_eq, hsymbols]
  cases e.depthLimit <;> rfl

/-- A formula written out has the tokens of the formula, each of them written out, and no
matter what is registered it has the same postfix order, the same value or failure, and
the same steps but for the tokens. The text of a finite value is itself evaluated to that
value. -/
theorem outcomes_of_writtenOut {e : Evaluator} {formula : Text}
    (h : e.registry.FiniteOn (tokens formula)) :
    tokens (e.registry.writtenOut formula) = (tokens formula).map e.registry.writeOut ∧
    (∀ other : Evaluator, other.depthLimit = e.depthLimit →
      (other.analyse (e.registry.writtenOut formula)).value = (e.analyse formula).value ∧
      (other.evaluate (e.registry.writtenOut formula)).value = (e.evaluate formula).value ∧
      (other.explain (e.registry.writtenOut formula)).value =
        (e.explain formula).value.map fun (v, steps) =>
          (v, { steps with tokens := e.registry.writtenOut formula })) ∧
    ∀ v : Float, v.isFinite = true →
      ∀ other : Evaluator, (other.evaluate (numberText v)).value = .ok v := by
  refine ⟨h.tokens_writtenOut, ?_, fun v hfinite other => other.evaluate_numberText hfinite⟩
  intro other hlimit
  have hanalyse : (other.analyse (e.registry.writtenOut formula)).value =
      (e.analyse formula).value :=
    value_analyse_of_symbols (h.mapM_symbol_writtenOut other.registry)
  have htext : Text.unwords (tokens (e.registry.writtenOut formula)) =
      e.registry.writtenOut formula := by
    rw [h.tokens_writtenOut]
    rfl
  refine ⟨hanalyse, ?_, ?_⟩
  · rw [value_evaluate, value_evaluate, hanalyse, hlimit]
  · rw [value_explain, value_explain, hanalyse, htext, hlimit]
    cases (e.analyse formula).value with
    | error failure => rfl
    | ok p =>
        cases hvalue : p.resolve e.depthLimit with
        | error failure => simp [bind, Except.bind, Except.map, hvalue]
        | ok v => simp [bind, Except.bind, Except.map, hvalue]

/-- `3-$a*$b`, where `$a` is negative and `$b` is unknown, is written out as
`3 - -2.5 * 0`. -/
theorem outcomes_of_writtenOut_of_negative :
    ∃ (e : Evaluator) (formula : Text), e.registry.FiniteOn (tokens formula) ∧
      tokens formula = [['3'], ['-'], ['$', 'a'], ['*'], ['$', 'b']] ∧
      e.registry.writtenOut formula =
        ['3', ' ', '-', ' ', '-', '2', '.', '5', ' ', '*', ' ', '0'] ∧
      (e.evaluate formula).value = .ok 3 ∧
      (Evaluator.empty.evaluate
        ['3', ' ', '-', ' ', '-', '2', '.', '5', ' ', '*', ' ', '0']).value = .ok 3 ∧
      (e.evaluate (numberText (-2.5))).value = .ok (-2.5) := by
  have hfinite : (Registry.empty.insert ['a'] (-2.5)).FiniteOn
      (tokens ['3', '-', '$', 'a', '*', '$', 'b']) := by
    intro name v _ hv
    by_cases hname : name = ['a']
    · rw [hname, Registry.get?_insert_self] at hv
      obtain rfl := Option.some.inj hv
      decide +kernel
    · rw [Registry.get?_insert_of_ne _ _ hname] at hv
      cases hv
  have htokens : tokens ['3', '-', '$', 'a', '*', '$', 'b'] =
      [['3'], ['-'], ['$', 'a'], ['*'], ['$', 'b']] := by decide +kernel
  have hwritten : (Registry.empty.insert ['a'] (-2.5)).writtenOut
      ['3', '-', '$', 'a', '*', '$', 'b'] =
      ['3', ' ', '-', ' ', '-', '2', '.', '5', ' ', '*', ' ', '0'] := by decide +kernel
  have hvalue : ((Evaluator.mk (Registry.empty.insert ['a'] (-2.5)) none).evaluate
      ['3', '-', '$', 'a', '*', '$', 'b']).value = .ok 3 := by decide +kernel
  obtain ⟨-, hother, htext⟩ := outcomes_of_writtenOut
    (e := ⟨Registry.empty.insert ['a'] (-2.5), none⟩) hfinite
  have hempty := (hother Evaluator.empty rfl).2.1.trans hvalue
  rw [hwritten] at hempty
  exact ⟨_, _, hfinite, htokens, hwritten, hvalue, hempty, htext _ (by decide +kernel) _⟩

end Evaluator

end Reckoner
