import Reckoner.Screen.Basic

/-!
# What the user does at the screen

An event changes the screen at once, and may leave a request of the entry for the
keyboard. The request is served before the next event, unless Enter is pressed
first: then it is served between what the text field makes of Enter and what the
calculator makes of it.
-/
namespace Reckoner.Screen

/-- Serves the request of the entry for the keyboard. -/
def serve (s : Screen) : Screen :=
  if s.session.focusWanted then
    { s with session := { s.session with focusWanted := false }, keyboardFocus := true }
  else s

def initial : Screen := serve ⟨.initial, false, true, true⟩

/-- Once the request is served, nothing is asked for any more. -/
@[simp] theorem focusWanted_serve (s : Screen) : s.serve.session.focusWanted = false := by
  unfold serve
  split
  · rfl
  · rename_i h
    simpa using h

@[simp] theorem serve_serve (s : Screen) : s.serve.serve = s.serve := by
  rw [serve, focusWanted_serve]
  rfl

/-- The entry has the keyboard at the start. -/
theorem keyboardFocus_initial : initial.keyboardFocus = true := rfl

/-! ## Buttons -/

/-- Goes on with a session, and has the entry ask for the keyboard. -/
def act (s : Screen) (session : Session) : Screen :=
  { s with session := { session with focusWanted := true } }

/-- A button is clicked. The headers of the sections take the keyboard away from
the entry; all other buttons give it back. -/
def press (s : Screen) : Button → Logged Screen
  | .clearEntry => return s.act s.session.clearEntry
  | .clearResults => return s.act s.session.clearResults
  | .reset => return s.act s.session.reset
  | .erase => return s.act s.session.erase
  | .evaluate => return s.act (← s.session.evaluate)
  | .key _ kind text => return { s with session := s.session.insert kind text }
  | .foldVariables => return { s with variablesOpen := !s.variablesOpen, keyboardFocus := false }
  | .foldSteps => return { s with stepsOpen := !s.stepsOpen, keyboardFocus := false }
  | .register => return { s with session := ← s.session.register }
  | .recall name => return { s with session := s.session.insert .reference (referenceSign :: name) }
  | .forget name => return { s with session := s.session.forget name }

/-! ## Keys -/

/-- The entry gives the keyboard up. -/
def blur (s : Screen) : Screen := { s with keyboardFocus := false }

/-- What the text field of the entry makes of Enter: as every field of one line, it
gives the keyboard up if it has it. -/
def fieldEnter (s : Screen) : Screen := if s.keyboardFocus then s.blur else s

/-- Enter is pressed. The text field comes first, then the request of the entry for
the keyboard; the formula is evaluated if the entry has the keyboard after both. -/
def enter (s : Screen) : Logged Screen :=
  let shown := s.fieldEnter.serve
  if shown.keyboardFocus then return shown.act (← shown.session.evaluate) else return shown

/-- Escape is pressed, wherever the keyboard goes. -/
def escape (s : Screen) : Screen := { s with session := s.session.clearEntry }

/-- The erasing key is pressed, with a cursor that reaches from one character of
the entry to another. What the session leaves alone is left to the text field: it
deletes what the cursor selects, or the character before it. -/
def backspace (s : Screen) (cursor : Option (Nat × Nat)) : Screen :=
  if s.keyboardFocus then
    let entry := s.session.entry
    let (primary, secondary) := cursor.getD (entry.length, entry.length)
    match s.session.eraseReference? (some (primary, secondary)) with
    | some session => s.act session
    | none =>
      -- a cursor beyond the end stands at the end
      let first := min (min primary secondary) entry.length
      let last := min (max primary secondary) entry.length
      let first := if first = last then first - 1 else first
      { s with session := { s.session with entry := Entry.deleteBetween first last entry } }
  else s

/-- A text is typed at the end of the entry. A line break alone is no text. -/
def typeText (s : Screen) (text : Text) : Screen :=
  if s.keyboardFocus ∧ text ≠ ['\n'] ∧ text ≠ ['\r'] then
    { s with session := { s.session with entry := s.session.entry ++ text } }
  else s

/-! ## The number of decimals -/

/-- The slider for the number of decimals is set. Nothing happens where that
changes nothing. -/
def slideDigits (s : Screen) (digits : Nat) : Screen :=
  let digits := min digits Session.maxDigits
  if digits = s.session.digits then s else { s with session := s.session.setDigits digits }

end Reckoner.Screen
