import Reckoner.Proofs.Session.Runs
import Reckoner.Screen.Events

/-!
# The Enter key

Enter passes through three steps: the text field of the entry gives the keyboard up, a
request of the entry for the keyboard is served, and the formula is evaluated if the entry
has the keyboard. Together they come to this: Enter evaluates the formula like `=` where a
request is still to be served, and nowhere else. Between two events, when all requests are
served, it only takes the keyboard away.
-/
namespace Reckoner

namespace Session

theorem focusWanted_insert {s : Session} {kind : Insertion} {text : Text} (h : text ≠ []) :
    (s.insert kind text).focusWanted = true := by
  rw [insert, if_neg (by simpa using h)]

theorem focusWanted_register (s : Session) : s.register.value.focusWanted = true := by
  obtain ⟨c, hdone⟩ | ⟨name, -, hdone⟩ := s.perform_register_cases
  · exact congrArg focusWanted hdone
  · exact congrArg focusWanted hdone

/-- An evaluation asks for the keyboard, whatever was asked for before. -/
theorem evaluate_with_focusWanted (s : Session) (wanted : Bool) :
    evaluate { s with focusWanted := wanted } = s.evaluate := rfl

end Session

namespace Screen

/-! ## Runs -/

/-- What may happen at the screen. -/
inductive Event where
  | press (b : Button)
  | enter
  | escape
  | backspace (cursor : Option (Nat × Nat))
  | typeText (text : Text)
  | blur
  | slideDigits (digits : Nat)
  | setFields (entry variableName : Text) (variableValue : Float)

/-- What an event changes at once. -/
def handle (s : Screen) : Event → Logged Screen
  | .press b => s.press b
  | .enter => s.enter
  | .escape => pure s.escape
  | .backspace cursor => pure (s.backspace cursor)
  | .typeText text => pure (s.typeText text)
  | .blur => pure s.blur
  | .slideDigits digits => pure (s.slideDigits digits)
  | .setFields entry variableName variableValue =>
    pure { s with session := { s.session with entry, variableName, variableValue } }

/-- The screen after some events, where the requests of each are served before the next. -/
def run (s : Screen) (events : List Event) : Screen :=
  events.foldl (fun s e => (s.handle e).value.serve) s

/-! ## Enter and `=` -/

theorem serve_of_focusWanted {s : Screen} (h : s.session.focusWanted = true) :
    s.serve = { s with session := { s.session with focusWanted := false }, keyboardFocus := true } :=
  if_pos h

theorem serve_of_not_focusWanted {s : Screen} (h : s.session.focusWanted = false) :
    s.serve = s := if_neg (ne_true_of_eq_false h)

@[simp] theorem keyboardFocus_serve (s : Screen) :
    s.serve.keyboardFocus = (s.session.focusWanted || s.keyboardFocus) := by
  cases h : s.session.focusWanted with
  | false => rw [serve_of_not_focusWanted h, Bool.false_or]
  | true => rw [serve_of_focusWanted h, Bool.true_or]

/-- Behind Enter, the text field is without the keyboard. -/
theorem fieldEnter_eq_blur (s : Screen) : s.fieldEnter = s.blur := by
  obtain ⟨session, keyboardFocus, variablesOpen, stepsOpen⟩ := s
  cases keyboardFocus <;> rfl

/-- Where a request is to be served, it gives back what the text field gave up, and
the formula is evaluated. -/
theorem enter_of_focusWanted {s : Screen} (h : s.session.focusWanted = true) :
    s.enter = s.serve.press .evaluate := by
  have hback : s.blur.serve = s.serve := by
    rw [serve_of_focusWanted h]
    exact serve_of_focusWanted h
  have hfocus : s.serve.keyboardFocus = true := by simp [h]
  rw [enter, fieldEnter_eq_blur, hback]
  exact if_pos hfocus

/-- Where there is no request, the keyboard is gone before the formula could be evaluated. -/
theorem enter_of_not_focusWanted {s : Screen} (h : s.session.focusWanted = false) :
    s.enter = pure s.blur := by
  have hgone : s.blur.serve = s.blur := serve_of_not_focusWanted h
  rw [enter, fieldEnter_eq_blur, hgone]
  rfl

/-- Behind `=`, the entry asks for the keyboard. -/
theorem focusWanted_press_evaluate (s : Screen) :
    (s.press .evaluate).value.session.focusWanted = true := rfl

/-- Whether a request is served before `=` makes no difference once it is served behind it. -/
theorem serve_press_evaluate_serve (s : Screen) :
    serve <$> s.serve.press .evaluate = serve <$> s.press .evaluate := by
  cases h : s.session.focusWanted with
  | false => rw [serve_of_not_focusWanted h]
  | true =>
      rw [serve_of_focusWanted h, press, Session.evaluate_with_focusWanted]
      rfl

theorem serve_enter_of_focusWanted {s : Screen} (h : s.session.focusWanted = true) :
    serve <$> s.enter = serve <$> s.press .evaluate := by
  rw [enter_of_focusWanted h, serve_press_evaluate_serve]

theorem serve_value_enter_eq_iff (s : Screen) :
    s.enter.value.serve = (s.press .evaluate).value.serve ↔ s.session.focusWanted = true := by
  constructor
  · intro h
    by_contra hwanted
    rw [Bool.not_eq_true] at hwanted
    -- without a request the keyboard is gone, while `=` gives it back
    have hfocus := congrArg Screen.keyboardFocus h
    rw [keyboardFocus_serve, keyboardFocus_serve, focusWanted_press_evaluate,
      enter_of_not_focusWanted hwanted, Logged.value_pure, blur, hwanted] at hfocus
    cases hfocus
  · intro hwanted
    exact congrArg Logged.value (serve_enter_of_focusWanted hwanted)

theorem serve_enter_eq_iff (s : Screen) :
    serve <$> s.enter = serve <$> s.press .evaluate ↔ s.session.focusWanted = true := by
  refine ⟨fun h => ?_, serve_enter_of_focusWanted⟩
  exact s.serve_value_enter_eq_iff.mp (congrArg Logged.value h)

/-! ## Enter right behind a button -/

/-- The text that an item inserts, if it is a key. -/
def keyText? : Item → Option Text
  | .button (.key _ _ text) => some text
  | _ => none

theorem keyText?_of_mem_variableSection {s : Screen} {item : Item}
    (h : item ∈ s.variableSection) : keyText? item = none := by
  have hline : ∀ binding, ∀ item ∈ variableLine binding, keyText? item = none := by
    rintro ⟨name, value⟩ item hitem
    simp only [variableLine, List.mem_cons, List.not_mem_nil, or_false] at hitem
    rcases hitem with rfl | rfl | rfl <;> rfl
  have hlist : ∀ item ∈ s.variableList, keyText? item = none := by
    intro item hitem
    unfold variableList at hitem
    split at hitem
    · obtain rfl := List.mem_singleton.mp hitem
      rfl
    · obtain ⟨binding, -, hitem⟩ := List.mem_flatMap.mp hitem
      exact hline binding item hitem
  unfold variableSection at h
  split at h
  · simp only [List.cons_append, List.nil_append, List.mem_cons] at h
    rcases h with rfl | rfl | rfl | rfl | rfl | rfl | h
    · rfl
    · rfl
    · rfl
    · rfl
    · rfl
    · rfl
    · exact hlist item h
  · obtain rfl := List.mem_singleton.mp h
    rfl

/-- The keys of the screen are those of the keypad. -/
theorem filterMap_keyText? (s : Screen) : s.items.filterMap keyText? = keypad.filterMap keyText? := by
  have hvariables : s.variableSection.filterMap keyText? = [] :=
    List.filterMap_eq_nil_iff.mpr fun _ => keyText?_of_mem_variableSection
  have herror : s.errorLine.filterMap keyText? = [] := by
    unfold errorLine
    split <;> rfl
  have hsteps : s.stepsSection.filterMap keyText? = [] := by
    unfold stepsSection
    split <;> rfl
  have hheading : s.heading.filterMap keyText? = [] := rfl
  have hactions : s.actions.filterMap keyText? = [] := rfl
  have hresult : s.resultSection.filterMap keyText? = [] := rfl
  simp only [items, List.filterMap_append, hheading, hactions, herror, hvariables, hresult,
    hsteps, List.nil_append, List.append_nil]

/-- No key of the screen is without a text. -/
theorem text_ne_nil_of_mem_buttons {s : Screen} {label text : Text} {kind : Insertion}
    (h : .key label kind text ∈ s.buttons) : text ≠ [] := by
  obtain ⟨item, hitem, hbutton⟩ := List.mem_filterMap.mp h
  have hkey : keyText? item = some text := by
    cases item with
    | button b =>
        obtain rfl := Option.some.inj hbutton
        rfl
    | label | field | slider => cases hbutton
  have hmem : text ∈ keypad.filterMap keyText? :=
    s.filterMap_keyText? ▸ List.mem_filterMap.mpr ⟨item, hitem, hkey⟩
  have hkeypad : ∀ text ∈ keypad.filterMap keyText?, text ≠ [] := by decide
  exact hkeypad text hmem

/-- Every button but the headers of the sections has the entry ask for the keyboard. -/
theorem focusWanted_press {s : Screen} {b : Button} (hrest : s.session.focusWanted = false)
    (hb : b ∈ s.buttons) :
    (s.press b).value.session.focusWanted = true ↔ b ≠ .foldVariables ∧ b ≠ .foldSteps := by
  cases b with
  | clearEntry | clearResults | reset | erase | evaluate | forget => exact iff_of_true rfl (by simp)
  | key label kind text =>
      exact iff_of_true (Session.focusWanted_insert (text_ne_nil_of_mem_buttons hb)) (by simp)
  | «recall» name => exact iff_of_true (Session.focusWanted_insert (by simp)) (by simp)
  | register => exact iff_of_true s.session.focusWanted_register (by simp)
  | foldVariables => exact iff_of_false (ne_true_of_eq_false hrest) (by simp)
  | foldSteps => exact iff_of_false (ne_true_of_eq_false hrest) (by simp)

/-! ## Runs without `=` -/

@[simp] theorem display_serve (s : Screen) : s.serve.session.display = s.session.display := by
  unfold serve
  split <;> rfl

theorem display_backspace (s : Screen) (cursor : Option (Nat × Nat)) :
    (s.backspace cursor).session.display = s.session.display := by
  unfold backspace
  split
  · dsimp only
    split
    · -- a whole reference was taken back, which changes the entry only
      rename_i session herased
      unfold Session.eraseReference? at herased
      split at herased
      · obtain rfl := Option.some.inj herased
        rfl
      · cases herased
    · rfl
  · rfl

/-- At rest, no event but `=` makes an evaluation. -/
theorem display_handle {s : Screen} (hrest : s.session.focusWanted = false) {e : Event}
    (he : e ≠ .press .evaluate) :
    s.session.display.Step [] (s.handle e).value.session.display := by
  cases e with
  | press b =>
      cases b with
      | evaluate => exact absurd rfl he
      | clearEntry | erase | foldVariables | foldSteps | forget => exact .keep
      | clearResults | reset => exact .clear
      | key label kind text => exact s.session.display_perform (.insert kind text)
      | «recall» name => exact s.session.display_perform (.insert .reference (referenceSign :: name))
      | register => exact s.session.display_perform .register
  | enter =>
      rw [handle, enter_of_not_focusWanted hrest]
      exact .keep
  | backspace cursor =>
      rw [handle, Logged.value_pure, display_backspace]
      exact .keep
  | typeText text =>
      rw [handle, Logged.value_pure, typeText]
      split <;> exact .keep
  | slideDigits digits =>
      rw [handle, Logged.value_pure, slideDigits]
      split <;> exact .keep
  | escape | blur | setFields => exact .keep

/-- Each part of what is shown stays or goes. -/
structure Fades (d d' : Session.Display) : Prop where
  result : d'.result = d.result ∨ d'.result = []
  reading : d'.reading? = d.reading? ∨ d'.reading? = none
  steps : d'.steps = d.steps ∨ d'.steps = .empty

theorem fades_refl (d : Session.Display) : Fades d d := ⟨.inl rfl, .inl rfl, .inl rfl⟩

theorem Fades.trans {d d' d'' : Session.Display} (h : Fades d d') (h' : Fades d' d'') :
    Fades d d'' where
  result := h'.result.elim (fun heq => heq ▸ h.result) .inr
  reading := h'.reading.elim (fun heq => heq ▸ h.reading) .inr
  steps := h'.steps.elim (fun heq => heq ▸ h.steps) .inr

theorem fades_of_step {d d' : Session.Display} (h : d.Step [] d') : Fades d d' := by
  cases h with
  | keep => exact fades_refl d
  | settle => exact ⟨.inl rfl, .inl rfl, .inl rfl⟩
  | clear => exact ⟨.inr rfl, .inr rfl, .inr rfl⟩
  | complain => exact ⟨.inl rfl, .inr rfl, .inr rfl⟩

/-- A run without `=`, at rest before each event, shows nothing new, however often Enter
is pressed in it. -/
theorem fades_run {s : Screen} (hrest : s.session.focusWanted = false) {events : List Event}
    (h : .press .evaluate ∉ events) :
    Fades s.session.display (s.run events).session.display := by
  induction events generalizing s with
  | nil => exact fades_refl _
  | cons e events ih =>
      obtain ⟨he, hevents⟩ := not_or.mp (List.mem_cons.not.mp h)
      have hstep : Fades s.session.display (s.handle e).value.serve.session.display := by
        rw [display_serve]
        exact fades_of_step (display_handle hrest fun heq => he heq.symm)
      exact hstep.trans (ih (focusWanted_serve _) hevents)

/-! ## What Enter does -/

/-- Once the requests are served, Enter has done what `=` does exactly where one was still
to be served before, as right behind every button but a header. At rest it only takes the
keyboard away from the entry, and a run from there without `=` evaluates nothing. -/
theorem enter_evaluates_iff (s : Screen) :
    (s.enter.value.serve = (s.press .evaluate).value.serve ↔ s.session.focusWanted = true) ∧
    (s.session.focusWanted = false →
      s.enter = pure { s with keyboardFocus := false } ∧
      (s.press .evaluate).value.serve.keyboardFocus = true ∧
      (∀ b ∈ s.buttons,
        serve <$> (s.press b).value.enter = serve <$> (s.press b).value.press .evaluate ↔
          b ≠ .foldVariables ∧ b ≠ .foldSteps) ∧
      ∀ events : List Event, .press .evaluate ∉ events →
        Fades s.session.display (s.run events).session.display) := by
  refine ⟨s.serve_value_enter_eq_iff, fun hrest => ⟨enter_of_not_focusWanted hrest, ?_, ?_,
    fun _ => fades_run hrest⟩⟩
  · rw [keyboardFocus_serve, focusWanted_press_evaluate, Bool.true_or]
  · exact fun b hb => (serve_enter_eq_iff _).trans (focusWanted_press hrest hb)

/-- The keyboard is in the entry, where `1` has been typed: Enter shows nothing and takes
the keyboard away, and `=` shows the value. -/
theorem exists_enter_not_evaluates :
    let s := initial.run [.typeText ['1']]
    s.keyboardFocus = true ∧ s.session.focusWanted = false ∧
      s.enter.value.serve.session.result = [] ∧ s.enter.value.serve.keyboardFocus = false ∧
      (s.press .evaluate).value.serve.session.result = ['1'] ∧
      (s.press .evaluate).value.serve.keyboardFocus = true := by
  decide +kernel

end Screen

end Reckoner
