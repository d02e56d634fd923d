import Reckoner.Proofs.Formula.Spacing

/-!
# Tokens as they are shown

The tokens of a formula are shown in a row, one space between two of them. That text is
a formula too, and it has the same tokens: whatever a token is, malformed or not, and
whatever stood beside it, on its own it is cut as it was in its place. So what is shown
can be evaluated in the place of the formula, with the same outcome and the same steps.
-/
namespace Reckoner

namespace Token

/-! ## A token on its own -/

section Alone

variable {kind : Kind} {token rest : Text}

theorem Proper.alone (h : Proper kind token rest) : Proper kind token [] := by
  cases h with
  | reference hname hlongest => exact .reference hname nofun
  | numeral hn hlongest =>
      refine .numeral hn fun longer m hlonger _ => ?_
      rw [List.append_nil] at hlonger
      exact hlonger.length_le
  | symbol hc halone => exact .symbol hc fun _ => Numeral.not_starts_nil

/-- What begins in a text does so too where more text follows. -/
theorem Stops.append {t : Text} (h : Stops t) (more : Text) : Stops (t ++ more) := by
  cases t with
  | nil =>
      rcases h with ⟨c, hc, -⟩ | ⟨kind, token, rest, happend, hproper⟩
      · cases hc
      · have htoken : token = [] := (List.append_eq_nil_iff.mp happend).1
        exact absurd htoken (Fits.proper hproper).ne_nil
  | cons c t =>
      rw [List.cons_append, stops_cons_iff]
      rcases stops_cons_iff.mp h with hbreak | ⟨d, hd, hprefix⟩
      · exact .inl hbreak
      · refine .inr ⟨d, hd, ?_⟩
        exact hprefix.imp (·.trans (List.prefix_append _ more)) (·.trans (List.prefix_append _ more))

/-- A token that fits somewhere fits where nothing follows it. -/
theorem Fits.alone (h : Fits kind token rest) : Fits kind token [] := by
  cases h with
  | proper h => exact .proper h.alone
  | free hne hinside hlongest =>
      -- cut short, free text begins nothing that it did not begin before
      refine .free hne (fun part hpart hpart' hstops => ?_) (.inl rfl)
      rw [List.append_nil] at hstops
      exact hinside part hpart hpart' (hstops.append rest)

end Alone

end Token

/-- Each token of a text is a text of that one token. -/
theorem tokens_of_mem_tokens {t token : Text} (h : token ∈ tokens t) : tokens token = [token] := by
  obtain ⟨before, rest, hnext⟩ := exists_next?_of_mem_tokens h
  obtain ⟨kind, hfits⟩ := Token.exists_fits_of_next? hnext
  have halone : Token.next? token = some (token, []) := by
    simpa using @Token.next?_of_fits [] _ _ _ (by simp) hfits.alone
  rw [tokens_of_next?_some halone, tokens_nil]

/-! ## Tokens in a row -/

theorem tokens_unwords {words : List Text} (h : ∀ word ∈ words, tokens word = [word]) :
    tokens (Text.unwords words) = words := by
  induction words with
  | nil => exact tokens_nil
  | cons word words ih =>
      obtain ⟨hword, hwords⟩ := List.forall_mem_cons.mp h
      cases words with
      | nil => rw [Text.unwords_singleton, hword]
      | cons next words =>
          have hspace : ∀ c ∈ [' '], isBlank c = true := List.forall_mem_singleton.mpr isBlank_space
          rw [Text.unwords_cons_cons, tokens_append_gap _ _ (by simp) hspace, hword, ih hwords]
          rfl

/-- What is shown of a formula has the tokens of the formula. -/
theorem tokens_unwords_tokens (formula : Text) :
    tokens (Text.unwords (tokens formula)) = tokens formula :=
  tokens_unwords fun _ => tokens_of_mem_tokens

/-- The tokens that are shown are a formula with the same tokens, outcome and steps. The
steps of a value show the tokens, and the terms of the postfix order from the bottom to
the top; evaluating the tokens that they show gives the same value and steps again. -/
theorem Evaluator.explain_shown (e : Evaluator) (formula : Text) :
    tokens (Text.unwords (tokens formula)) = tokens formula ∧
    (e.explain (Text.unwords (tokens formula))).value = (e.explain formula).value ∧
    (e.evaluate formula).value = (e.explain formula).value.map Prod.fst ∧
    ∀ v steps, (e.explain formula).value = .ok (v, steps) →
      steps.tokens = Text.unwords (tokens formula) ∧
      (e.explain steps.tokens).value = .ok (v, steps) ∧
      ∃ p, (e.analyse formula).value = .ok p ∧
        steps.postfixText = Text.unwords (p.toList.map fun
          | .number x => numberText x
          | .operator op => [op.symbol]) := by
  have hshown : (e.explain (Text.unwords (tokens formula))).value = (e.explain formula).value :=
    e.value_explain_congr (tokens_unwords_tokens formula)
  refine ⟨tokens_unwords_tokens formula, hshown, e.value_evaluate_eq_map_explain formula,
    fun v steps h => ?_⟩
  obtain ⟨p, hanalyse, rfl⟩ := exists_analyse_of_explain h
  exact ⟨rfl, hshown.trans h, p, hanalyse, rfl⟩

/-- `(1+ 2)` is shown as `( 1 + 2 )`, and that as itself. -/
theorem Evaluator.explain_shown_of_sum :
    ∃ v steps, (Evaluator.empty.explain ['(', '1', '+', ' ', '2', ')']).value = .ok (v, steps) ∧
      steps.tokens = ['(', ' ', '1', ' ', '+', ' ', '2', ' ', ')'] ∧
      (Evaluator.empty.explain ['(', ' ', '1', ' ', '+', ' ', '2', ' ', ')']).value =
        .ok (v, steps) := by
  have hsum : (Evaluator.empty.explain ['(', '1', '+', ' ', '2', ')']).value =
      .ok (3, ⟨['(', ' ', '1', ' ', '+', ' ', '2', ' ', ')'], ['1', ' ', '2', ' ', '+']⟩) := by
    decide +kernel
  obtain ⟨-, -, -, hsteps⟩ := Evaluator.empty.explain_shown ['(', '1', '+', ' ', '2', ')']
  exact ⟨_, _, hsum, rfl, (hsteps _ _ hsum).2.1⟩

end Reckoner
