import Mathlib.Data.List.ReduceOption
import Reckoner.Proofs.Session.Names

/-!
# Runs of a session

Whatever is done to a session, and in whatever order, what it shows stays coherent:
the result, its reading and its steps are never those of two different evaluations,
and of these only the result stays beside a complaint.

The formula that was evaluated is gone once the entry is edited. So a run is followed
together with what its evaluations have found.
-/
namespace Reckoner

namespace Session

/-! ## Actions -/

/-- What may be done to a session, by its keys and by its text fields. -/
inductive Action where
  | setEntry (text : Text)
  | setVariableName (text : Text)
  | setVariableValue (value : Float)
  | setDigits (digits : Nat)
  | insert (kind : Insertion) (text : Text)
  | erase
  | eraseReference (cursor : Option (Nat × Nat))
  | evaluate
  | register
  | forget (name : Text)
  | clearEntry
  | clearResults
  | reset

def perform (s : Session) : Action → Session
  | .setEntry text => { s with entry := text }
  | .setVariableName text => { s with variableName := text }
  | .setVariableValue value => { s with variableValue := value }
  | .setDigits digits => s.setDigits digits
  | .insert kind text => s.insert kind text
  | .erase => s.erase
  | .eraseReference cursor => (s.eraseReference? cursor).getD s
  | .evaluate => s.evaluate.value
  | .register => s.register.value
  | .forget name => s.forget name
  | .clearEntry => s.clearEntry
  | .clearResults => s.clearResults
  | .reset => s.reset

def performAll (s : Session) (actions : List Action) : Session := actions.foldl perform s

/-- Where a key inserts something, only the entry changes. -/
theorem perform_insert_cases (s : Session) (kind : Insertion) (text : Text) :
    s.perform (.insert kind text) = s ∨
      s.perform (.insert kind text) =
        { s with entry := Entry.insert kind text s.entry, focusWanted := true } := by
  rw [perform, insert]
  split
  · exact .inl rfl
  · exact .inr rfl

theorem perform_eraseReference_cases (s : Session) (cursor : Option (Nat × Nat)) :
    s.perform (.eraseReference cursor) = s ∨ s.perform (.eraseReference cursor) = s.erase := by
  rw [perform, eraseReference?]
  split
  · exact .inr rfl
  · exact .inl rfl

/-! ## Evaluations -/

/-- A value, the steps to it, and how many decimals were asked for when it was found. -/
structure Finding where
  value : Float
  steps : Steps
  digits : Nat

/-- What an evaluation of the entry finds. -/
def finding? (s : Session) : Option Finding :=
  match (s.evaluator.explain (Text.trim isBlank s.entry)).value with
  | .ok (value, steps) => some ⟨value, steps, s.digits⟩
  | .error _ => none

theorem finding?_eq_none_of_blank {s : Session} (h : Text.trim isBlank s.entry = []) :
    s.finding? = none := by
  unfold finding?
  rw [h, Evaluator.explain_nil]

/-- An evaluation shows what it finds, or complains that there is nothing. -/
theorem perform_evaluate_cases (s : Session) :
    (∃ f, s.finding? = some f ∧
      s.perform .evaluate =
        s.present (numberText f.value) (Reckoner.reading? f.value f.digits) f.steps) ∨
    (s.finding? = none ∧ ∃ c : Complaint, s.perform .evaluate = s.complain c.message) := by
  rw [perform, evaluate]
  by_cases hempty : (Text.trim isBlank s.entry).isEmpty = true
  · rw [if_pos hempty]
    exact .inr ⟨finding?_eq_none_of_blank (List.isEmpty_iff.mp hempty), .emptyEntry, rfl⟩
  · rw [if_neg hempty, Logged.value_bind]
    unfold finding?
    cases (s.evaluator.explain (Text.trim isBlank s.entry)).value with
    | ok found => exact .inl ⟨_, rfl, rfl⟩
    | error failure => exact .inr ⟨rfl, .formula failure, rfl⟩

/-- A registration complains, or settles the last complaint. -/
theorem perform_register_cases (s : Session) :
    (∃ c : Complaint, s.perform .register = s.complain c.message) ∨
    ∃ name, checkName s.variableName = .ok name ∧
      s.perform .register =
        { s with
          evaluator :=
            { s.evaluator with registry := s.evaluator.registry.insert name s.variableValue }
          variableName := [], error := [], focusWanted := true } := by
  rw [perform, register]
  cases checkName s.variableName with
  | error c => exact .inl ⟨c, rfl⟩
  | ok name => exact .inr ⟨name, rfl, rfl⟩

/-! ## Decimals, names and the limit -/

/-- A reading never has too many decimals, every name is one that is accepted, and
formulas of any depth are resolved. -/
structure Sound (s : Session) : Prop where
  digits_le : s.digits ≤ maxDigits
  names : ∀ binding ∈ s.bindings, binding.1 ≠ [] ∧ ∀ c ∈ binding.1, isNameChar c = true
  no_limit : s.evaluator.depthLimit = none

theorem sound_initial : initial.Sound where
  digits_le := by decide
  names := List.forall_mem_nil _
  no_limit := rfl

theorem Sound.perform {s : Session} (h : s.Sound) (a : Action) : (s.perform a).Sound := by
  obtain ⟨hdigits, hnames, hlimit⟩ := h
  cases a with
  | setEntry | setVariableName | setVariableValue | erase | clearEntry | clearResults =>
      exact ⟨hdigits, hnames, hlimit⟩
  | setDigits digits => exact ⟨Nat.min_le_right _ _, hnames, hlimit⟩
  | insert kind text =>
      obtain hdone | hdone := s.perform_insert_cases kind text <;> rw [hdone]
      · exact ⟨hdigits, hnames, hlimit⟩
      · exact ⟨hdigits, hnames, hlimit⟩
  | eraseReference cursor =>
      obtain hdone | hdone := s.perform_eraseReference_cases cursor <;> rw [hdone]
      · exact ⟨hdigits, hnames, hlimit⟩
      · exact ⟨hdigits, hnames, hlimit⟩
  | evaluate =>
      obtain ⟨f, -, hdone⟩ | ⟨-, c, hdone⟩ := s.perform_evaluate_cases <;> rw [hdone]
      · exact ⟨hdigits, hnames, hlimit⟩
      · exact ⟨hdigits, hnames, hlimit⟩
  | register =>
      obtain ⟨c, hdone⟩ | ⟨name, hname, hdone⟩ := s.perform_register_cases <;> rw [hdone]
      · exact ⟨hdigits, hnames, hlimit⟩
      · -- the only new name is one that was checked
        refine ⟨hdigits, fun binding hbinding => ?_, hlimit⟩
        obtain rfl | hbefore := Registry.mem_entries_insert hbinding
        · exact (checkName_eq_ok_iff.mp hname).2
        · exact hnames binding hbefore
  | forget name =>
      exact ⟨hdigits, fun binding hbinding => hnames binding (List.mem_filter.mp hbinding).1,
        hlimit⟩
  | reset => exact ⟨sound_initial.digits_le, sound_initial.names, hlimit⟩

/-! ## What is shown -/

/-- What a session shows of its evaluations. -/
structure Display where
  result : Text
  reading? : Option Text
  error : Text
  steps : Steps
deriving DecidableEq

def display (s : Session) : Display := ⟨s.result, s.reading?, s.error, s.steps⟩

namespace Display

/-- What an evaluation shows. -/
def ofFinding (f : Finding) : Display :=
  ⟨numberText f.value, Reckoner.reading? f.value f.digits, [], f.steps⟩

/-- What one action does to what is shown, with the evaluations that it makes. -/
inductive Step (d : Display) : List (Option Finding) → Display → Prop where
  | keep : Step d [] d
  | settle : Step d [] { d with error := [] }
  | clear : Step d [] ⟨[], none, [], .empty⟩
  | complain {evaluations : List (Option Finding)} {message : Text}
      (hfound : evaluations.reduceOption = []) (hmessage : message ≠ []) :
      Step d evaluations ⟨d.result, none, message, .empty⟩
  | present (f : Finding) : Step d [some f] (ofFinding f)

/-- What is shown after some evaluations, the latest in front. -/
structure Follows (d : Display) (evaluations : List (Option Finding)) : Prop where
  /-- Beside a complaint there is neither a reading nor any steps. -/
  of_error : d.error ≠ [] → d.reading? = none ∧ d.steps = .empty
  /-- There is a reading exactly if its text is not empty. -/
  isSome_iff : d.reading?.isSome = true ↔ d.reading?.getD [] ≠ []
  /-- The steps, the result and the reading beside them are those of the latest
  evaluation, which has found a value. -/
  of_steps : d.steps ≠ .empty → ∃ f, evaluations.head? = some (some f) ∧
    d.result = numberText f.value ∧ d.reading? = Reckoner.reading? f.value f.digits ∧
    d.steps = f.steps
  /-- A result with steps and without a reading is not finite. -/
  of_no_reading : d.steps ≠ .empty → d.reading? = none →
    d.result ∈ ["inf".toList, "-inf".toList, "NaN".toList]
  /-- The result is the one of the latest evaluation that has found a value. -/
  of_result : d.result ≠ [] → ∃ f, evaluations.reduceOption.head? = some f ∧
    d.result = numberText f.value

theorem follows_clear (evaluations : List (Option Finding)) :
    Follows ⟨[], none, [], .empty⟩ evaluations where
  of_error h := absurd rfl h
  isSome_iff := by simp
  of_steps h := absurd rfl h
  of_no_reading h := absurd rfl h
  of_result h := absurd rfl h

theorem follows_ofFinding (f : Finding) (evaluations : List (Option Finding)) :
    Follows (ofFinding f) (some f :: evaluations) where
  of_error h := absurd rfl h
  isSome_iff := by
    unfold ofFinding
    cases hreading : Reckoner.reading? f.value f.digits with
    | none => simp
    | some t => simpa using reading?_ne_nil hreading
  of_steps _ := ⟨f, rfl, rfl, rfl, rfl⟩
  of_no_reading _ h := numberText_of_reading?_eq_none h
  of_result _ := ⟨f, by simp, rfl⟩

/-- One action more, and what is shown still follows the evaluations. -/
theorem Follows.step {d d' : Display} {before now : List (Option Finding)}
    (h : d.Follows before) (hstep : d.Step now d') : d'.Follows (now ++ before) := by
  cases hstep with
  | keep => exact h
  | settle => exact { h with of_error := fun herror => absurd rfl herror }
  | clear => exact follows_clear _
  | complain hfound hmessage =>
      refine ⟨fun _ => ⟨rfl, rfl⟩, by simp, fun h => absurd rfl h, fun h => absurd rfl h, ?_⟩
      -- the result stays, and so does the latest evaluation that has found a value
      intro hresult
      rw [List.reduceOption_append, hfound]
      exact h.of_result hresult
  | present f => exact follows_ofFinding f before

end Display

/-- The evaluations that an action makes. -/
def Action.evaluations (s : Session) : Action → List (Option Finding)
  | .evaluate => [s.finding?]
  | _ => []

/-- Every action does one of a few things to what is shown. -/
theorem display_perform (s : Session) (a : Action) :
    s.display.Step (a.evaluations s) (s.perform a).display := by
  cases a with
  | setEntry | setVariableName | setVariableValue | setDigits | erase | forget | clearEntry =>
      exact .keep
  | insert kind text =>
      obtain hdone | hdone := s.perform_insert_cases kind text <;> rw [hdone]
      · exact .keep
      · exact .keep
  | eraseReference cursor =>
      obtain hdone | hdone := s.perform_eraseReference_cases cursor <;> rw [hdone]
      · exact .keep
      · exact .keep
  | evaluate =>
      rw [Action.evaluations]
      obtain ⟨f, hfound, hdone⟩ | ⟨hfound, c, hdone⟩ := s.perform_evaluate_cases <;>
        rw [hfound, hdone]
      · exact .present f
      · exact .complain (by simp) c.message_ne_nil
  | register =>
      obtain ⟨c, hdone⟩ | ⟨name, -, hdone⟩ := s.perform_register_cases <;> rw [hdone]
      · exact .complain rfl c.message_ne_nil
      · exact .settle
  | clearResults | reset => exact .clear

/-! ## Histories -/

/-- A session, and what the evaluations on the way to it have found, the latest in
front. -/
structure History where
  session : Session
  evaluations : List (Option Finding)

namespace History

def perform (h : History) (a : Action) : History :=
  ⟨h.session.perform a, a.evaluations h.session ++ h.evaluations⟩

/-- The history of a run from the beginning. -/
def after (actions : List Action) : History := actions.foldl perform ⟨.initial, []⟩

/-- Following the evaluations does not change the run. -/
theorem session_after (actions : List Action) :
    (after actions).session = initial.performAll actions :=
  (List.foldl_hom History.session fun _ _ => rfl).symm

/-- A session whose display follows its evaluations. -/
structure Coherent (h : History) : Prop where
  sound : h.session.Sound
  follows : h.session.display.Follows h.evaluations

theorem Coherent.perform {h : History} (hcoherent : h.Coherent) (a : Action) :
    (h.perform a).Coherent where
  sound := hcoherent.sound.perform a
  follows := hcoherent.follows.step (h.session.display_perform a)

/-- After every run from the beginning, the session is coherent. -/
theorem coherent_after (actions : List Action) : (after actions).Coherent := by
  -- the actions that are left start from any coherent history
  have hfrom : ∀ h : History, h.Coherent → (actions.foldl History.perform h).Coherent := by
    induction actions with
    | nil => exact fun _ hcoherent => hcoherent
    | cons a actions ih => exact fun h hcoherent => ih (h.perform a) (hcoherent.perform a)
  exact hfrom _ ⟨sound_initial, Display.follows_clear []⟩

/-- Behind a formula that is refused, the result of the one before is still shown. -/
example :
    (after [.setEntry ['2'], .evaluate, .setEntry [')'], .evaluate]).session.display =
      ⟨['2'], none, Failure.unbalanced.message, .empty⟩ := by
  decide +kernel

end History

end Session

end Reckoner
