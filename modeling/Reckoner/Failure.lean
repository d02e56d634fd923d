import Reckoner.Text.Basic

/-!
# Failures

Why a formula has no value. A failure stops the evaluation: there is no partial
result. Division by zero is none of them: it follows the rules of binary64.
-/
namespace Reckoner

inductive Failure where
  /-- A piece of the formula is neither a symbol, nor a numeral, nor a reference to a variable. -/
  | malformed (piece : Text)
  /-- A closing parenthesis has no partner, or an opening one. -/
  | unbalanced
  /-- An operator lacks an operand, or there is nothing to evaluate. -/
  | missingOperand
  /-- Terms are left over once the value is known. -/
  | leftover (count : Nat)
  /-- More operators than the limit allows wait for their operands. -/
  | tooDeep (limit : Nat)
deriving DecidableEq, Repr

/-- The sentence shown to the user. -/
def Failure.message : Failure → Text
  | .malformed piece => "jeton malformé : '".toList ++ piece ++ ['\'']
  | .unbalanced => "parenthèses non appariées".toList
  | .missingOperand => "pile vide : opérande manquant".toList
  | .leftover count =>
    "expression invalide : ".toList ++ Nat.toDigits 10 count ++ " terme(s) sans opérateur".toList
  | .tooDeep limit =>
    "imbrication trop profonde (limite : ".toList ++ Nat.toDigits 10 limit ++ [')']

/-- No failure is silent. -/
theorem Failure.message_ne_nil (f : Failure) : f.message ≠ [] := by
  unfold Failure.message
  split <;> simp

/-! ## One stage behind another -/

/-- Of two stages, the second goes on with what the first has found. -/
theorem bind_eq_ok_iff {ε α β : Type} {x : Except ε α} {f : α → Except ε β} {b : β} :
    x >>= f = .ok b ↔ ∃ a, x = .ok a ∧ f a = .ok b := by
  cases x with
  | error failure =>
      refine iff_of_false nofun ?_
      rintro ⟨a, ha, -⟩
      cases ha
  | ok a => exact ⟨fun h => ⟨a, rfl, h⟩, fun ⟨_, ha, h⟩ => Except.ok.inj ha ▸ h⟩

/-- Of two stages, either the first fails, or the second does on what the first has found. -/
theorem bind_eq_error_iff {ε α β : Type} {x : Except ε α} {f : α → Except ε β} {failure : ε} :
    x >>= f = .error failure ↔
      x = .error failure ∨ ∃ a, x = .ok a ∧ f a = .error failure := by
  cases x with
  | error cause => simp [bind, Except.bind]
  | ok a => simp [bind, Except.bind]

end Reckoner
