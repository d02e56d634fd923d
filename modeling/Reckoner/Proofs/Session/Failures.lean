import Reckoner.Proofs.Session.Runs

/-!
# What a failure leaves

What the user has filled in and registered is the user's, and a failure takes none of it. An
evaluation that finds no value changes what is shown, and there it spares the last result; a
registration that is refused does the same. One that is accepted binds one name, and leaves
what is shown as it was, but for the complaint that it settles.

The sessions here are any at all, not only those that a run from the beginning comes to.
-/
namespace Reckoner.Session

/-- What the user has filled in and registered. -/
structure Holdings where
  entry : Text
  variableName : Text
  variableValue : Float
  digits : Nat
  registry : Registry

def holdings (s : Session) : Holdings :=
  ⟨s.entry, s.variableName, s.variableValue, s.digits, s.evaluator.registry⟩

/-! ## What an evaluation comes to -/

/-- What an evaluation of the entry finds, or why it finds nothing. -/
def outcome (s : Session) : Except Complaint Finding :=
  if Text.trim isBlank s.entry = [] then .error .emptyEntry
  else match (s.evaluator.explain s.entry).value with
    | .ok (value, steps) => .ok ⟨value, steps, s.digits⟩
    | .error failure => .error (.formula failure)

/-- The session behind an evaluation with an outcome. -/
def conclude (s : Session) : Except Complaint Finding → Session
  | .ok f => s.present (numberText f.value) (Reckoner.reading? f.value f.digits) f.steps
  | .error c => s.complain c.message

/-- White space around the entry apart, it is the entry that is evaluated. -/
theorem value_evaluate (s : Session) : s.evaluate.value = s.conclude s.outcome := by
  have htrim : (s.evaluator.explain (Text.trim isBlank s.entry)).value =
      (s.evaluator.explain s.entry).value :=
    s.evaluator.value_explain_congr (tokens_trim s.entry)
  rw [evaluate, outcome]
  by_cases hempty : Text.trim isBlank s.entry = []
  · rw [if_pos hempty, if_pos (List.isEmpty_iff.mpr hempty)]
    rfl
  · rw [if_neg hempty, if_neg (by simpa using hempty), Logged.value_bind, htrim]
    cases (s.evaluator.explain s.entry).value with
    | ok found => rfl
    | error failure => rfl

section Outcome

variable {s : Session}

theorem exists_explain_of_outcome {f : Finding} (h : s.outcome = .ok f) :
    Text.trim isBlank s.entry ≠ [] ∧
      (s.evaluator.explain s.entry).value = .ok (f.value, f.steps) := by
  unfold outcome at h
  split at h
  · cases h
  · rename_i hne
    split at h
    · rename_i value steps hvalue
      obtain rfl := Except.ok.inj h
      exact ⟨hne, hvalue⟩
    · cases h

/-- A blank entry has no value. -/
theorem trim_ne_nil_of_evaluate {v : Float} (h : (s.evaluator.evaluate s.entry).value = .ok v) :
    Text.trim isBlank s.entry ≠ [] := by
  intro hempty
  rw [← s.evaluator.value_evaluate_congr (tokens_trim s.entry), hempty,
    Evaluator.value_evaluate_eq_map_explain, Evaluator.explain_nil] at h
  cases h

/-- Where the entry has a value, this value is what is found, with the steps to it. -/
theorem outcome_of_evaluate {v : Float} (h : (s.evaluator.evaluate s.entry).value = .ok v) :
    ∃ p, (s.evaluator.analyse s.entry).value = .ok p ∧
      s.outcome = .ok ⟨v, ⟨Text.unwords (tokens s.entry), p.text⟩, s.digits⟩ := by
  have hne := trim_ne_nil_of_evaluate h
  rw [Evaluator.value_evaluate_eq_map_explain] at h
  unfold outcome
  rw [if_neg hne]
  cases hexplain : (s.evaluator.explain s.entry).value with
  | error failure =>
      rw [hexplain] at h
      cases h
  | ok found =>
      rw [hexplain] at h
      obtain rfl := Except.ok.inj h
      obtain ⟨p, hanalyse, hsteps⟩ := Evaluator.exists_analyse_of_explain hexplain
      exact ⟨p, hanalyse, by rw [← hsteps]⟩

theorem exists_outcome_iff :
    (∃ f, s.outcome = .ok f) ↔
      Text.trim isBlank s.entry ≠ [] ∧ ∃ v, (s.evaluator.evaluate s.entry).value = .ok v := by
  constructor
  · rintro ⟨f, hf⟩
    obtain ⟨hne, hexplain⟩ := exists_explain_of_outcome hf
    refine ⟨hne, f.value, ?_⟩
    rw [Evaluator.value_evaluate_eq_map_explain, hexplain]
    rfl
  · rintro ⟨-, v, hv⟩
    obtain ⟨p, -, houtcome⟩ := outcome_of_evaluate hv
    exact ⟨_, houtcome⟩

end Outcome

/-! ## The session behind it -/

section Conclude

variable (s : Session) (found : Except Complaint Finding)

@[simp] theorem holdings_conclude : (s.conclude found).holdings = s.holdings := by
  cases found <;> rfl

/-- What is shown has no part in an evaluation. -/
@[simp] theorem outcome_conclude : (s.conclude found).outcome = s.outcome := by
  cases found <;> rfl

@[simp] theorem conclude_conclude : (s.conclude found).conclude found = s.conclude found := by
  cases found <;> rfl

theorem error_conclude_eq_nil_iff : (s.conclude found).error = [] ↔ ∃ f, found = .ok f := by
  cases found with
  | ok f => exact iff_of_true rfl ⟨f, rfl⟩
  | error c => exact iff_of_false c.message_ne_nil (by simp)

variable {s found}

theorem display_conclude_of_error (h : (s.conclude found).error ≠ []) :
    (s.conclude found).display = ⟨s.result, none, (s.conclude found).error, .empty⟩ := by
  cases found with
  | ok f => exact absurd rfl h
  | error c => rfl

end Conclude

/-- Nothing changes from one evaluation to the next. -/
theorem evaluate_evaluate (s : Session) : s.evaluate.value.evaluate.value = s.evaluate.value := by
  rw [value_evaluate, value_evaluate, outcome_conclude, conclude_conclude]

/-! ## Registrations -/

section Register

variable {s : Session}

theorem error_register_eq_nil_iff :
    s.register.value.error = [] ↔
      cleanName s.variableName ≠ [] ∧ ∀ c ∈ cleanName s.variableName, isNameChar c = true := by
  have haccepted : (∃ name, checkName s.variableName = .ok name) ↔
      cleanName s.variableName ≠ [] ∧ ∀ c ∈ cleanName s.variableName, isNameChar c = true := by
    simp only [checkName_eq_ok_iff, exists_eq_left']
  rw [← haccepted, register]
  cases checkName s.variableName with
  | ok name => exact iff_of_true rfl ⟨name, rfl⟩
  | error c => exact iff_of_false c.message_ne_nil (by simp)

/-- A registration that is refused takes no more than an evaluation without a value. -/
theorem register_of_error_ne_nil (h : s.register.value.error ≠ []) :
    ∃ c : Complaint, s.register.value = s.conclude (.error c) := by
  obtain ⟨c, hdone⟩ | ⟨name, -, hdone⟩ := s.perform_register_cases
  · exact ⟨c, hdone⟩
  · exact absurd (congrArg error hdone) h

theorem register_of_error_eq_nil (h : s.register.value.error = []) :
    s.register.value =
      { s with
        evaluator :=
          { s.evaluator with
            registry := s.evaluator.registry.insert (cleanName s.variableName) s.variableValue }
        variableName := [], error := [], focusWanted := true } := by
  obtain ⟨c, hdone⟩ | ⟨name, hname, hdone⟩ := s.perform_register_cases
  · exact absurd ((congrArg error hdone).symm.trans h) c.message_ne_nil
  · rw [← (checkName_eq_ok_iff.mp hname).1] at hdone
    exact hdone

end Register

/-- An evaluation leaves alone what the user has filled in and registered. It settles the
complaint exactly if the entry has a value, and then all that is shown is of this value; if
not, only the last result is still shown beside the complaint. Evaluating once more changes
nothing. A registration is refused for the name alone: then it leaves the same alone, and
otherwise it binds that name, to the value filled in, and no other, and nothing that is shown
changes but the complaint. -/
theorem failures_spare_holdings (s : Session) :
    (s.evaluate.value.holdings = s.holdings ∧
      (s.evaluate.value.error = [] ↔
        Text.trim isBlank s.entry ≠ [] ∧ ∃ v, (s.evaluator.evaluate s.entry).value = .ok v) ∧
      (∀ v, (s.evaluator.evaluate s.entry).value = .ok v →
        ∃ p, (s.evaluator.analyse s.entry).value = .ok p ∧
          s.evaluate.value.display =
            ⟨numberText v, Reckoner.reading? v s.digits, [],
              ⟨Text.unwords (tokens s.entry), p.text⟩⟩) ∧
      (s.evaluate.value.error ≠ [] →
        s.evaluate.value.display = ⟨s.result, none, s.evaluate.value.error, .empty⟩) ∧
      s.evaluate.value.evaluate.value = s.evaluate.value) ∧
    (s.register.value.error = [] ↔
      cleanName s.variableName ≠ [] ∧ ∀ c ∈ cleanName s.variableName, isNameChar c = true) ∧
    (s.register.value.error ≠ [] →
      s.register.value.holdings = s.holdings ∧ s.register.value.result = s.result) ∧
    (s.register.value.error = [] →
      s.register.value.evaluator.registry.get? (cleanName s.variableName) =
          some s.variableValue ∧
        (∀ other, other ≠ cleanName s.variableName →
          s.register.value.evaluator.registry.get? other = s.evaluator.registry.get? other) ∧
        s.register.value.display = { s.display with error := [] }) := by
  refine ⟨⟨?holdings, ?settled, ?found, ?missed, evaluate_evaluate s⟩, error_register_eq_nil_iff,
    ?refused, ?accepted⟩
  case holdings => rw [value_evaluate, holdings_conclude]
  case settled => rw [value_evaluate, error_conclude_eq_nil_iff, exists_outcome_iff]
  case found =>
    intro v hv
    obtain ⟨p, hanalyse, houtcome⟩ := outcome_of_evaluate hv
    refine ⟨p, hanalyse, ?_⟩
    rw [value_evaluate, houtcome]
    rfl
  case missed =>
    intro herror
    rw [value_evaluate] at herror ⊢
    exact display_conclude_of_error herror
  case refused =>
    intro herror
    obtain ⟨c, hdone⟩ := register_of_error_ne_nil herror
    rw [hdone]
    exact ⟨holdings_conclude s _, rfl⟩
  case accepted =>
    intro herror
    rw [register_of_error_eq_nil herror]
    exact ⟨Registry.get?_insert_self _ _ _, fun other => Registry.get?_insert_of_ne _ _, rfl⟩

/-- `2 -4` has no value and `a b` is no name, so the `7` found before is still shown. ` 2 ` has
one and `$x` stands for a name, so the complaint is settled. -/
theorem failures_spare_holdings_of_leftover :
    let s : Session :=
      { initial with
        entry := ['2', ' ', '-', '4'], result := ['7'], reading? := some ['7'],
        steps := ⟨['7'], ['7']⟩, variableName := ['a', ' ', 'b'] }
    let t : Session :=
      { s with entry := [' ', '2', ' '], variableName := [' ', '$', 'x'], digits := 1 }
    (s.evaluate.value.error ≠ [] ∧ s.evaluate.value.holdings = s.holdings ∧
      s.evaluate.value.display = ⟨['7'], none, s.evaluate.value.error, .empty⟩) ∧
    (s.register.value.error ≠ [] ∧ s.register.value.holdings = s.holdings ∧
      s.register.value.result = ['7']) ∧
    ((t.evaluator.evaluate t.entry).value = .ok 2 ∧ t.evaluate.value.error = [] ∧
      ∃ p, (t.evaluator.analyse t.entry).value = .ok p ∧
        t.evaluate.value.display =
          ⟨numberText 2, Reckoner.reading? 2 1, [], ⟨Text.unwords (tokens t.entry), p.text⟩⟩) ∧
    t.register.value.error = [] ∧ t.register.value.evaluator.registry.get? ['x'] = some 0 := by
  intro s t
  have hleftover : s.evaluate.value.error ≠ [] := by decide +kernel
  have hname : s.register.value.error ≠ [] := by decide +kernel
  have hvalue : (t.evaluator.evaluate t.entry).value = .ok 2 := by decide +kernel
  have hsettled : t.evaluate.value.error = [] := by decide +kernel
  have haccepted : t.register.value.error = [] := by decide +kernel
  obtain ⟨⟨hsame, -, -, hmissed, -⟩, -, hrefused, -⟩ := failures_spare_holdings s
  obtain ⟨⟨-, -, hfound, -⟩, -, -, hregistered⟩ := failures_spare_holdings t
  have hx : cleanName t.variableName = ['x'] := by decide +kernel
  exact ⟨⟨hleftover, hsame, hmissed hleftover⟩, ⟨hname, hrefused hname⟩,
    ⟨hvalue, hsettled, hfound 2 hvalue⟩, haccepted, hx ▸ (hregistered haccepted).1⟩

end Reckoner.Session
