import Reckoner.Proofs.Formula.Evaluation
import Reckoner.Proofs.Postfix.Juxtaposition

/-!
# What an evaluation accepts

An evaluation fails on everything that is no token, on parentheses that do not
balance, and on operands that do not match the operators in number. It does not
look at where an operator stands: `1 2 +` has the value of `1 + 2`. Apart from
such operands in a row, what it accepts are the formulas of the grammar.
-/
namespace Reckoner

/-! ## Tokens that are symbols -/

namespace Registry

theorem reference?_eq_some {token name : Text} (h : reference? token = some name) :
    token = referenceSign :: name := by
  cases token with
  | nil => cases h
  | cons c rest =>
      simp only [reference?] at h
      split at h
      · rename_i hc
        rw [hc, Option.some.inj h]
      · cases h

/-- A token that a formula is cut into denotes the symbol that it stands for. -/
theorem denotes_of_symbol {r : Registry} {token : Text} {s : Symbol}
    (hname : ∀ name, token = referenceSign :: name → ∀ c ∈ name, isWordChar c = true)
    (h : r.symbol token = .ok s) : r.Denotes token s := by
  unfold symbol substitute at h
  cases href : reference? token with
  | some name =>
      obtain rfl := reference?_eq_some href
      rw [href] at h
      obtain rfl := Except.ok.inj h
      exact .reference (hname name rfl)
  | none =>
      rw [href] at h
      simp only [Symbol.ofFragment] at h
      cases htext : Symbol.ofText? token with
      | none => simp [htext] at h
      | some s' =>
          simp only [htext, Except.ok.injEq] at h
          subst h
          rcases Symbol.ofText?_eq_some_iff.mp htext with ⟨c, rfl, hc⟩ | ⟨n, hn, rfl⟩
          · rcases Symbol.eq_of_ofChar? hc with ⟨rfl, rfl⟩ | ⟨rfl, rfl⟩ | ⟨op, rfl, rfl⟩
            · exact .opening
            · exact .closing
            · exact .operator op
          · exact .numeral hn

end Registry

/-- In a token of a formula, only word characters follow the sign of a reference. -/
theorem isWordChar_of_mem_tokens {formula token : Text} (h : token ∈ tokens formula) :
    ∀ name, token = referenceSign :: name → ∀ c ∈ name, isWordChar c = true := by
  rintro name rfl
  obtain ⟨t, rest, hnext⟩ := exists_next?_of_mem_tokens h
  exact Token.isWordChar_of_next? hnext

/-- The symbols of a formula are those that its tokens denote. -/
theorem Evaluator.denotes_of_symbols {e : Evaluator} {formula : Text} {symbols : List Symbol}
    (h : (e.symbols (tokens formula)).value = .ok symbols) :
    List.Forall₂ e.registry.Denotes (tokens formula) symbols := by
  have hnames : ∀ token ∈ tokens formula, ∀ name, token = referenceSign :: name →
      ∀ c ∈ name, isWordChar c = true := fun token hmem => isWordChar_of_mem_tokens hmem
  have hboth := (List.forall₂_and_left _ _).mpr ⟨hnames, value_symbols_eq_ok_iff.mp h⟩
  exact hboth.imp fun token s ⟨hname, hs⟩ => Registry.denotes_of_symbol hname hs

/-! ## What is accepted -/

theorem Evaluator.stages_of_evaluate {e : Evaluator} {formula : Text} {v : Float}
    (h : (e.evaluate formula).value = .ok v) :
    ∃ symbols p, (e.symbols (tokens formula)).value = .ok symbols ∧
      Postfix.ofSymbols symbols = .ok p ∧ p.resolve e.depthLimit = .ok v := by
  rw [value_evaluate, value_analyse] at h
  obtain ⟨p, hanalyse, hresolve⟩ := bind_eq_ok_iff.mp h
  obtain ⟨symbols, hsymbols, hlisting⟩ := bind_eq_ok_iff.mp hanalyse
  exact ⟨symbols, p, hsymbols, hlisting, hresolve⟩

/-- What an evaluation accepts has balanced parentheses and one number more than
operators. It is a formula of the grammar exactly if no two operands stand in a
row, and its value is then the one of its tree. -/
theorem Evaluator.derives_iff_isChain_of_evaluate {r : Registry} {formula : Text} {v : Float}
    (h : ((Evaluator.mk r none).evaluate formula).value = .ok v) :
    ∃ symbols : List Symbol, List.Forall₂ r.Denotes (tokens formula) symbols ∧
      Balanced symbols ∧
      symbols.countP Symbol.isNumber = symbols.countP Symbol.isOperator + 1 ∧
      ((∃ t, Derives .sum symbols t) ↔ symbols.IsChain Symbol.Apart) ∧
      ∀ t, Derives .sum symbols t → t.value = v := by
  obtain ⟨symbols, p, hsymbols, hlisting, hresolve⟩ := stages_of_evaluate h
  obtain ⟨t, hterms, -⟩ := replay_eq_singleton_iff.mp (Postfix.resolve_eq_ok_iff.mp hresolve)
  have hbalanced : Balanced symbols := Postfix.exists_ofSymbols_iff.mp ⟨p, hlisting⟩
  have hcount := Postfix.countP_of_ofSymbols hlisting hterms
  refine ⟨symbols, denotes_of_symbols hsymbols, hbalanced, hcount,
    exists_derives_iff_isChain hbalanced hcount, fun t hderives => ?_⟩
  rw [Postfix.ofSymbols_of_derives hderives] at hlisting
  obtain rfl := Except.ok.inj hlisting
  rw [Postfix.resolve_eq_ok (Stack.toList_ofList t.terms)] at hresolve
  exact Except.ok.inj hresolve

/-- `1 + 2` is accepted. -/
theorem Evaluator.derives_iff_isChain_of_evaluate_sum :
    ∃ symbols : List Symbol,
      List.Forall₂ Registry.empty.Denotes (tokens ['1', ' ', '+', ' ', '2']) symbols ∧
      Balanced symbols ∧
      symbols.countP Symbol.isNumber = symbols.countP Symbol.isOperator + 1 ∧
      ((∃ t, Derives .sum symbols t) ↔ symbols.IsChain Symbol.Apart) ∧
      ∀ t, Derives .sum symbols t →
        t.value = Operator.add.apply (Numeral.mk false ['1'] []).value
          (Numeral.mk false ['2'] []).value := by
  have hspaced : Spaced [['1'], ['+'], ['2']] ['1', ' ', '+', ' ', '2'] :=
    .parted isBlank_space (.parted isBlank_space (.last ['2']))
  have hone := @Registry.Denotes.digit .empty '1' rfl
  have htwo := @Registry.Denotes.digit .empty '2' rfl
  have hwords := List.Forall₂.cons hone (.cons (.operator .add) (.cons htwo .nil))
  exact derives_iff_isChain_of_evaluate
    (evaluate_of_listing hwords hspaced (t := .node .add (.number _) (.number _)) rfl)

/-- `1 2 +` is accepted too, and is no formula of the grammar. -/
theorem Evaluator.exists_evaluate_not_derives :
    ((Evaluator.mk .empty none).evaluate ['1', ' ', '2', ' ', '+']).value =
      .ok (Operator.add.apply (Numeral.mk false ['1'] []).value
        (Numeral.mk false ['2'] []).value) ∧
    ¬ ∃ symbols t,
      List.Forall₂ Registry.empty.Denotes (tokens ['1', ' ', '2', ' ', '+']) symbols ∧
        Derives .sum symbols t := by
  have hspaced : Spaced [['1'], ['2'], ['+']] ['1', ' ', '2', ' ', '+'] :=
    .parted isBlank_space (.parted isBlank_space (.last ['+']))
  have hone := @Registry.Denotes.digit .empty '1' rfl
  have htwo := @Registry.Denotes.digit .empty '2' rfl
  have hwords := List.Forall₂.cons hone (.cons htwo (.cons (.operator .add) .nil))
  refine ⟨evaluate_of_listing hwords hspaced (t := .node .add (.number _) (.number _)) rfl, ?_⟩
  rintro ⟨symbols, t, hsymbols, hderives⟩
  rw [tokens_of_spaced hspaced hwords] at hsymbols
  obtain rfl := Registry.eq_of_denotes hwords hsymbols
  -- `1` and `2` stand in a row
  have hapart := List.isChain_cons_cons.mp hderives.isChain
  cases hapart.1 rfl

end Reckoner
