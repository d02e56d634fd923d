import Reckoner.Proofs.Formula.Evaluation

/-!
# What an evaluation looks up

An evaluation reads the registry in one place, where a token is replaced by what it
stands for, and there it looks up the name in that token. So two evaluators have the same
outcomes on a formula as soon as they agree on the names that are tokens of it, a name
without a value counting as zero. What else is registered, overwritten or removed is
never seen, however close its name is to one that is.
-/
namespace Reckoner

/-- What a name stands for in a formula. -/
def Registry.meaning (r : Registry) (name : Text) : Float := (r.get? name).getD 0

/-- The registries give the same values to all the names that the tokens refer to. -/
def Registry.AgreeOn (r other : Registry) (words : List Text) : Prop :=
  ∀ name, referenceSign :: name ∈ words → r.meaning name = other.meaning name

/-- The evaluators cannot be told apart by the formula. -/
structure Evaluator.SameOutcomes (e other : Evaluator) (formula : Text) : Prop where
  analyse : (e.analyse formula).value = (other.analyse formula).value
  evaluate : (e.evaluate formula).value = (other.evaluate formula).value
  explain : (e.explain formula).value = (other.explain formula).value

/-! ## One token -/

namespace Registry

variable {r other : Registry}

theorem substitute_of_reference (r : Registry) (name : Text) :
    r.substitute (referenceSign :: name) = .value (r.meaning name) := by
  simp [substitute, reference?, meaning]

theorem substitute_of_not_reference {token : Text} (h : reference? token = none) :
    r.substitute token = .raw token := by
  simp [substitute, h]

/-- A token is a reference, or the registry has no part in it. -/
theorem reference?_cases (token : Text) :
    (∃ name, token = referenceSign :: name) ∨ reference? token = none := by
  cases token with
  | nil => exact .inr rfl
  | cons c name =>
      by_cases hc : c = referenceSign
      · exact .inl ⟨name, by rw [hc]⟩
      · exact .inr (by simp [reference?, hc])

theorem AgreeOn.symbol {words : List Text} {token : Text} (h : r.AgreeOn other words)
    (hmem : token ∈ words) : r.symbol token = other.symbol token := by
  unfold Registry.symbol
  rcases reference?_cases token with ⟨name, rfl⟩ | hnone
  · rw [substitute_of_reference, substitute_of_reference, h name hmem]
  · rw [substitute_of_not_reference hnone, substitute_of_not_reference hnone]

/-! ## Registries that differ elsewhere -/

theorem agreeOn_insert {words : List Text} {name : Text} (h : referenceSign :: name ∉ words)
    (v : Float) : r.AgreeOn (r.insert name v) words := by
  intro other hother
  have hne : other ≠ name := by
    intro heq
    exact h (heq ▸ hother)
  rw [meaning, meaning, get?_insert_of_ne r v hne]

theorem agreeOn_erase {words : List Text} {name : Text} (h : referenceSign :: name ∉ words) :
    r.AgreeOn (r.erase name) words := by
  intro other hother
  have hne : other ≠ name := by
    intro heq
    exact h (heq ▸ hother)
  rw [meaning, meaning, get?_erase_of_ne r hne]

/-- A variable worth zero might as well not be registered. -/
theorem agreeOn_erase_zero {name : Text} (h : r.get? name = some 0) (words : List Text) :
    r.AgreeOn (r.erase name) words := by
  intro other _
  by_cases heq : other = name
  · rw [heq, meaning, meaning, h, get?_erase_self]
    rfl
  · rw [meaning, meaning, get?_erase_of_ne r heq]

theorem agreeOn_insert_zero {name : Text} (h : r.get? name = none) (words : List Text) :
    r.AgreeOn (r.insert name 0) words := by
  intro other _
  by_cases heq : other = name
  · rw [heq, meaning, meaning, h, get?_insert_self]
    rfl
  · rw [meaning, meaning, get?_insert_of_ne r 0 heq]

end Registry

/-! ## A formula -/

theorem mapM_congr_of_mem {α β ε : Type} {f g : α → Except ε β} {l : List α}
    (h : ∀ a ∈ l, f a = g a) : l.mapM f = l.mapM g := by
  induction l with
  | nil => rfl
  | cons a l ih =>
      obtain ⟨ha, hl⟩ := List.forall_mem_cons.mp h
      rw [List.mapM_cons, List.mapM_cons, ha, ih hl]

namespace Evaluator

variable {e other : Evaluator} {formula : Text}

/-- An analysis sees no more of a formula and a registry than the symbols of the tokens. -/
theorem value_analyse_of_symbols {formula' : Text}
    (h : (tokens formula).mapM e.registry.symbol = (tokens formula').mapM other.registry.symbol) :
    (e.analyse formula).value = (other.analyse formula').value := by
  rw [value_analyse, value_analyse, value_symbols, value_symbols, h]

theorem sameOutcomes_of_agreeOn (hlimit : e.depthLimit = other.depthLimit)
    (h : e.registry.AgreeOn other.registry (tokens formula)) : e.SameOutcomes other formula := by
  have hsymbols : (tokens formula).mapM e.registry.symbol =
      (tokens formula).mapM other.registry.symbol :=
    mapM_congr_of_mem fun _ hmem => h.symbol hmem
  have hanalyse := value_analyse_of_symbols hsymbols
  constructor
  · exact hanalyse
  · rw [value_evaluate, value_evaluate, hanalyse, hlimit]
  · rw [value_explain, value_explain, hanalyse, hlimit]

/-- The outcomes of a formula depend on the registry through the names that are tokens of
the formula, and through no others. So a name that is no token of it may be registered,
overwritten or removed; and whether a variable is worth zero or is not registered is the
same. -/
theorem outcomes_of_references (e : Evaluator) (formula : Text) :
    (∀ other : Evaluator, e.depthLimit = other.depthLimit →
      e.registry.AgreeOn other.registry (tokens formula) → e.SameOutcomes other formula) ∧
    (∀ name, referenceSign :: name ∉ tokens formula →
      (∀ v, e.SameOutcomes (e.register name v).value formula) ∧
        e.SameOutcomes (e.forget name) formula) ∧
    (∀ name, e.registry.get? name = some 0 → e.SameOutcomes (e.forget name) formula) ∧
    ∀ name, e.registry.get? name = none → e.SameOutcomes (e.register name 0).value formula := by
  refine ⟨fun other => sameOutcomes_of_agreeOn, fun name hname => ⟨fun v => ?_, ?_⟩,
    fun name hname => ?_, fun name hname => ?_⟩
  · exact sameOutcomes_of_agreeOn rfl (Registry.agreeOn_insert hname v)
  · exact sameOutcomes_of_agreeOn rfl (Registry.agreeOn_erase hname)
  · exact sameOutcomes_of_agreeOn rfl (Registry.agreeOn_erase_zero hname _)
  · exact sameOutcomes_of_agreeOn rfl (Registry.agreeOn_insert_zero hname _)

/-- In `$abc+$z` neither `$a` nor `$b` is looked up, and that `$z` is zero may go
unsaid. -/
theorem outcomes_of_references_of_longer :
    ∃ (e other : Evaluator) (formula : Text),
      tokens formula = [['$', 'a', 'b', 'c'], ['+'], ['$', 'z']] ∧
      e.registry.AgreeOn other.registry (tokens formula) ∧
      e.registry.get? ['z'] = some 0 ∧ e.registry.get? ['b'] = none ∧
      (e.evaluate formula).value = .ok 2 ∧
      (other.evaluate formula).value = .ok 2 ∧
      ((e.register ['a'] 5).value.evaluate formula).value = .ok 2 ∧
      ((e.forget ['z']).evaluate formula).value = .ok 2 ∧
      ((e.register ['b'] 0).value.evaluate formula).value = .ok 2 := by
  have htokens : tokens ['$', 'a', 'b', 'c', '+', '$', 'z'] =
      [['$', 'a', 'b', 'c'], ['+'], ['$', 'z']] := by decide +kernel
  have hagree : ((Registry.empty.insert ['a', 'b', 'c'] 2).insert ['z'] 0).AgreeOn
      (Registry.empty.insert ['a', 'b', 'c'] 2) (tokens ['$', 'a', 'b', 'c', '+', '$', 'z']) := by
    intro name _
    by_cases hname : name = ['z']
    · rw [hname]
      decide +kernel
    · rw [Registry.meaning, Registry.meaning, Registry.get?_insert_of_ne _ 0 hname]
  have hunreferenced : referenceSign :: ['a'] ∉ tokens ['$', 'a', 'b', 'c', '+', '$', 'z'] := by
    rw [htokens]
    decide
  have hvalue : ((Evaluator.mk ((Registry.empty.insert ['a', 'b', 'c'] 2).insert ['z'] 0)
      (some 3)).evaluate ['$', 'a', 'b', 'c', '+', '$', 'z']).value = .ok 2 := by decide +kernel
  have hzero : ((Registry.empty.insert ['a', 'b', 'c'] 2).insert ['z'] 0).get? ['z'] = some 0 :=
    Registry.get?_insert_self _ _ _
  have hnone : ((Registry.empty.insert ['a', 'b', 'c'] 2).insert ['z'] 0).get? ['b'] = none := by
    decide +kernel
  obtain ⟨hother, hforeign, hforget, hregister⟩ := outcomes_of_references
    ⟨(Registry.empty.insert ['a', 'b', 'c'] 2).insert ['z'] 0, some 3⟩
    ['$', 'a', 'b', 'c', '+', '$', 'z']
  have hsame := hother ⟨Registry.empty.insert ['a', 'b', 'c'] 2, some 3⟩ rfl hagree
  exact ⟨_, _, _, htokens, hagree, hzero, hnone, hvalue, hsame.evaluate.symm.trans hvalue,
    ((hforeign _ hunreferenced).1 5).evaluate.symm.trans hvalue,
    (hforget _ hzero).evaluate.symm.trans hvalue, (hregister _ hnone).evaluate.symm.trans hvalue⟩

end Evaluator

end Reckoner
