import Reckoner.Proofs.Formula.Accepted
import Reckoner.Proofs.Formula.Cut

/-!
# What an analysis refuses

An analysis fails for one of two reasons, and looks for them in this order: a token
that is neither a reference nor a numeral nor a symbol, the first of these being the
one reported; then parentheses that do not balance. It looks for nothing else, and at
no value, so all evaluators refuse the same formulas, each for the same reason.
-/
namespace Reckoner

/-! ## Tokens -/

/-- No prefix holds more closing parentheses than opening ones, and the totals agree. -/
structure Token.Balanced (tokens : List Text) : Prop where
  opened : ∀ before, before <+: tokens → before.count [')'] ≤ before.count ['(']
  closed : tokens.count [')'] = tokens.count ['(']

namespace Registry

variable {r : Registry}

/-- A token denotes one symbol at most. -/
theorem Denotes.unique {token : Text} {s s' : Symbol} (h : r.Denotes token s)
    (h' : r.Denotes token s') : s = s' :=
  Except.ok.inj ((symbol_of_denotes h).symm.trans (symbol_of_denotes h'))

/-- The well-formed tokens are those that denote a symbol. -/
theorem exists_denotes_iff {token : Text} :
    (∃ s, r.Denotes token s) ↔ Token.WellFormed token := by
  constructor
  · rintro ⟨s, h⟩
    cases h with
    | numeral hn => exact .numeral hn
    | reference hname => exact .reference hname
    | operator op => exact .symbol (by cases op <;> decide)
    | opening => exact .symbol (by decide)
    | closing => exact .symbol (by decide)
  · intro h
    cases h with
    | reference hname => exact ⟨_, .reference hname⟩
    | numeral hn => exact ⟨_, .numeral hn⟩
    | symbol hc =>
        rcases Token.eq_of_isSymbolChar hc with ⟨op, rfl⟩ | rfl | rfl
        · exact ⟨_, .operator op⟩
        · exact ⟨_, .opening⟩
        · exact ⟨_, .closing⟩

/-- What is no symbol is reported as it stands. -/
theorem eq_malformed_of_symbol {token : Text} {failure : Failure}
    (h : r.symbol token = .error failure) : failure = .malformed token := by
  unfold symbol substitute at h
  cases href : reference? token with
  | some name =>
      rw [href] at h
      cases h
  | none =>
      rw [href] at h
      unfold Symbol.ofFragment at h
      cases htext : Symbol.ofText? token with
      | some s => simp [htext] at h
      | none =>
          simp only [htext, Except.error.injEq] at h
          exact h.symm

theorem exists_symbol_iff {formula token : Text} (hmem : token ∈ tokens formula) :
    (∃ s, r.symbol token = .ok s) ↔ Token.WellFormed token := by
  rw [← exists_denotes_iff (r := r)]
  exact exists_congr fun s => ⟨denotes_of_symbol (isWordChar_of_mem_tokens hmem), symbol_of_denotes⟩

theorem symbol_eq_error_iff {formula token : Text} {failure : Failure}
    (hmem : token ∈ tokens formula) :
    r.symbol token = .error failure ↔ ¬ Token.WellFormed token ∧ failure = .malformed token := by
  rw [← exists_symbol_iff (r := r) hmem]
  constructor
  · intro h
    refine ⟨?_, eq_malformed_of_symbol h⟩
    rintro ⟨s, hs⟩
    cases hs.symm.trans h
  · rintro ⟨hnone, rfl⟩
    cases h : r.symbol token with
    | ok s => exact absurd ⟨s, h⟩ hnone
    | error cause => rw [eq_malformed_of_symbol h]

/-! ## Parentheses -/

theorem Denotes.eq_opening_iff {token : Text} {s : Symbol} (h : r.Denotes token s) :
    token = ['('] ↔ s = .opening := by
  constructor
  · rintro rfl
    exact h.unique .opening
  · rintro rfl
    cases h
    rfl

theorem Denotes.eq_closing_iff {token : Text} {s : Symbol} (h : r.Denotes token s) :
    token = [')'] ↔ s = .closing := by
  constructor
  · rintro rfl
    exact h.unique .closing
  · rintro rfl
    cases h
    rfl

end Registry

theorem forall_prefix_iff_take {α : Type} {p : List α → Prop} {l : List α} :
    (∀ before, before <+: l → p before) ↔ ∀ n, p (l.take n) := by
  constructor
  · intro h n
    exact h _ (List.take_prefix n l)
  · intro h before hbefore
    rw [List.prefix_iff_eq_take.mp hbefore]
    exact h before.length

theorem count_of_denotes {r : Registry} {words : List Text} {symbols : List Symbol}
    (h : List.Forall₂ r.Denotes words symbols) :
    words.count ['('] = symbols.count .opening ∧ words.count [')'] = symbols.count .closing := by
  induction h with
  | nil => exact ⟨rfl, rfl⟩
  | cons hword _ ih => simp [List.count_cons, ih, hword.eq_opening_iff, hword.eq_closing_iff]

/-- Tokens balance as the symbols that they denote. -/
theorem Token.balanced_iff_of_denotes {r : Registry} {words : List Text} {symbols : List Symbol}
    (h : List.Forall₂ r.Denotes words symbols) :
    Token.Balanced words ↔ Reckoner.Balanced symbols := by
  have hwords : Token.Balanced words ↔
      (∀ n, (words.take n).count [')'] ≤ (words.take n).count ['(']) ∧
        words.count [')'] = words.count ['('] :=
    ⟨fun h => ⟨forall_prefix_iff_take.mp h.opened, h.closed⟩,
      fun h => ⟨forall_prefix_iff_take.mpr h.1, h.2⟩⟩
  have hsymbols : Reckoner.Balanced symbols ↔
      (∀ n, (symbols.take n).count .closing ≤ (symbols.take n).count .opening) ∧
        symbols.count .closing = symbols.count .opening :=
    ⟨fun h => ⟨forall_prefix_iff_take.mp h.opened, h.closed⟩,
      fun h => ⟨forall_prefix_iff_take.mpr h.1, h.2⟩⟩
  -- as many tokens as symbols, and the first ones denote the first ones
  have hcount : ∀ n, (words.take n).count ['('] = (symbols.take n).count .opening ∧
      (words.take n).count [')'] = (symbols.take n).count .closing := fun n =>
    count_of_denotes (List.forall₂_take n h)
  rw [hwords, hsymbols]
  simp only [hcount, count_of_denotes h]

/-! ## The outcome of an analysis -/

/-- The first failure is the one of the whole. -/
theorem mapM_eq_error_iff {α β ε : Type} {f : α → Except ε β} {l : List α} {failure : ε} :
    l.mapM f = .error failure ↔ ∃ before a after, l = before ++ a :: after ∧
      (∀ a ∈ before, ∃ b, f a = .ok b) ∧ f a = .error failure := by
  induction l with
  | nil =>
      refine iff_of_false nofun ?_
      rintro ⟨before, a, after, hlist, -⟩
      simp at hlist
  | cons a l ih =>
      rw [List.mapM_cons, bind_eq_error_iff]
      constructor
      · rintro (ha | ⟨b, ha, hrest⟩)
        · exact ⟨[], a, l, rfl, by simp, ha⟩
        · rcases bind_eq_error_iff.mp hrest with hl | ⟨bs, -, hpure⟩
          · obtain ⟨before, c, after, rfl, hbefore, hc⟩ := ih.mp hl
            exact ⟨a :: before, c, after, rfl, List.forall_mem_cons.mpr ⟨⟨b, ha⟩, hbefore⟩, hc⟩
          · cases hpure
      · rintro ⟨before, c, after, hlist, hbefore, hc⟩
        cases before with
        | nil =>
            obtain ⟨rfl, rfl⟩ := List.cons.inj hlist
            exact .inl hc
        | cons d before =>
            obtain ⟨rfl, rfl⟩ := List.cons.inj hlist
            obtain ⟨⟨b, ha⟩, hbefore⟩ := List.forall_mem_cons.mp hbefore
            refine .inr ⟨b, ha, bind_eq_error_iff.mpr (.inl ?_)⟩
            exact ih.mpr ⟨before, c, after, rfl, hbefore, hc⟩

theorem exists_mapM_eq_ok_iff {α β ε : Type} {f : α → Except ε β} {l : List α} :
    (∃ m, l.mapM f = .ok m) ↔ ∀ a ∈ l, ∃ b, f a = .ok b := by
  induction l with
  | nil => exact iff_of_true ⟨[], rfl⟩ (by simp)
  | cons a l ih =>
      rw [List.forall_mem_cons, ← ih]
      constructor
      · rintro ⟨m, h⟩
        cases mapM_eq_ok_iff.mp h with
        | cons ha hl => exact ⟨⟨_, ha⟩, _, mapM_eq_ok_iff.mpr hl⟩
      · rintro ⟨⟨b, ha⟩, m, hl⟩
        exact ⟨b :: m, mapM_eq_ok_iff.mpr (.cons ha (mapM_eq_ok_iff.mp hl))⟩

namespace Evaluator

variable {e : Evaluator} {formula : Text}

theorem symbols_eq_error_iff {failure : Failure} :
    (e.symbols (tokens formula)).value = .error failure ↔
      ∃ before piece after, tokens formula = before ++ piece :: after ∧
        (∀ token ∈ before, Token.WellFormed token) ∧ ¬ Token.WellFormed piece ∧
          failure = .malformed piece := by
  rw [value_symbols, mapM_eq_error_iff]
  refine exists_congr fun before => exists_congr fun piece => exists_congr fun after => ?_
  refine and_congr_right fun hlist => ?_
  have hpiece : piece ∈ tokens formula := by simp [hlist]
  have hbefore : ∀ token ∈ before, token ∈ tokens formula := fun token h => by simp [hlist, h]
  refine and_congr ?_ (Registry.symbol_eq_error_iff hpiece)
  exact forall₂_congr fun token h => Registry.exists_symbol_iff (hbefore token h)

theorem exists_symbols_iff :
    (∃ symbols, (e.symbols (tokens formula)).value = .ok symbols) ↔
      ∀ token ∈ tokens formula, Token.WellFormed token := by
  rw [value_symbols, exists_mapM_eq_ok_iff]
  exact forall₂_congr fun token h => Registry.exists_symbol_iff h

/-- Whether the postfix order is found hangs on the tokens alone. -/
theorem exists_analyse_iff :
    (∃ p, (e.analyse formula).value = .ok p) ↔
      (∀ token ∈ tokens formula, Token.WellFormed token) ∧ Token.Balanced (tokens formula) := by
  rw [value_analyse, ← exists_symbols_iff (e := e)]
  constructor
  · rintro ⟨p, h⟩
    obtain ⟨symbols, hsymbols, hp⟩ := bind_eq_ok_iff.mp h
    refine ⟨⟨symbols, hsymbols⟩, ?_⟩
    rw [Token.balanced_iff_of_denotes (denotes_of_symbols hsymbols)]
    exact Postfix.exists_ofSymbols_iff.mp ⟨p, hp⟩
  · rintro ⟨⟨symbols, hsymbols⟩, hbalanced⟩
    rw [Token.balanced_iff_of_denotes (denotes_of_symbols hsymbols)] at hbalanced
    obtain ⟨p, hp⟩ := Postfix.exists_ofSymbols_iff.mpr hbalanced
    exact ⟨p, bind_eq_ok_iff.mpr ⟨symbols, hsymbols, hp⟩⟩

theorem analyse_eq_error_iff {failure : Failure} :
    (e.analyse formula).value = .error failure ↔
      (∃ before piece after, tokens formula = before ++ piece :: after ∧
        (∀ token ∈ before, Token.WellFormed token) ∧ ¬ Token.WellFormed piece ∧
          failure = .malformed piece) ∨
        (∀ token ∈ tokens formula, Token.WellFormed token) ∧
          ¬ Token.Balanced (tokens formula) ∧ failure = .unbalanced := by
  rw [value_analyse, bind_eq_error_iff, symbols_eq_error_iff]
  refine or_congr_right ?_
  rw [← exists_symbols_iff (e := e)]
  constructor
  · rintro ⟨symbols, hsymbols, hrefused⟩
    rw [Token.balanced_iff_of_denotes (denotes_of_symbols hsymbols)]
    exact ⟨⟨symbols, hsymbols⟩, Postfix.ofSymbols_eq_error_iff.mp hrefused⟩
  · rintro ⟨⟨symbols, hsymbols⟩, hrefused⟩
    rw [Token.balanced_iff_of_denotes (denotes_of_symbols hsymbols)] at hrefused
    exact ⟨symbols, hsymbols, Postfix.ofSymbols_eq_error_iff.mpr hrefused⟩

/-- Where a token is malformed, it is reported, or one before it. -/
theorem exists_malformed_of_mem {token : Text} (hmem : token ∈ tokens formula)
    (h : ¬ Token.WellFormed token) :
    ∃ piece, (e.analyse formula).value = .error (.malformed piece) := by
  cases houtcome : (e.analyse formula).value with
  | ok p => exact absurd ((exists_analyse_iff.mp ⟨p, houtcome⟩).1 token hmem) h
  | error failure =>
      rcases analyse_eq_error_iff.mp houtcome with ⟨-, piece, -, -, -, -, rfl⟩ | ⟨hall, -⟩
      · exact ⟨piece, rfl⟩
      · exact absurd (hall token hmem) h

/-- A formula is refused wherever it holds a character that is neither white space nor of
a class that tokens are made of. -/
theorem exists_malformed_of_foreign {c : Char} (hc : c ∈ formula) (hblank : isBlank c = false)
    (hforeign : isWordChar c = false ∧ c.isDigit = false ∧ isSymbolChar c = false ∧ c ≠ '.' ∧
      c ≠ referenceSign) :
    ∃ piece, (e.analyse formula).value = .error (.malformed piece) := by
  have hmem : c ∈ (tokens formula).flatten := by
    rw [flatten_tokens]
    exact List.mem_filter.mpr ⟨hc, by simp [hblank]⟩
  obtain ⟨token, htoken, hctoken⟩ := List.mem_flatten.mp hmem
  exact exists_malformed_of_mem htoken fun hwell => hwell.not_mem hforeign hctoken

/-- An analysis reports the first token that is malformed, whatever else is wrong; where
there is none, it reports parentheses that do not balance; and otherwise it succeeds.
Which of these it is does not depend on the variables. -/
theorem analyse_outcome (e : Evaluator) (formula : Text) :
    (∀ piece, (e.analyse formula).value = .error (.malformed piece) ↔
      ∃ before after, tokens formula = before ++ piece :: after ∧
        (∀ token ∈ before, Token.WellFormed token) ∧ ¬ Token.WellFormed piece) ∧
    ((e.analyse formula).value = .error .unbalanced ↔
      (∀ token ∈ tokens formula, Token.WellFormed token) ∧ ¬ Token.Balanced (tokens formula)) ∧
    ((∃ p, (e.analyse formula).value = .ok p) ↔
      (∀ token ∈ tokens formula, Token.WellFormed token) ∧ Token.Balanced (tokens formula)) ∧
    (∀ failure, (e.analyse formula).value = .error failure →
      failure = .unbalanced ∨ ∃ piece, failure = .malformed piece) ∧
    ∀ (other : Evaluator) (failure : Failure), (e.analyse formula).value = .error failure ↔
      (other.analyse formula).value = .error failure := by
  refine ⟨fun piece => ?malformed, ?unbalanced, exists_analyse_iff, fun failure h => ?causes,
    fun other failure => analyse_eq_error_iff.trans analyse_eq_error_iff.symm⟩
  case malformed =>
    rw [analyse_eq_error_iff]
    constructor
    · rintro (⟨before, first, after, hlist, hbefore, hfirst, hcause⟩ | ⟨-, -, hcause⟩)
      · obtain rfl := Failure.malformed.inj hcause
        exact ⟨before, after, hlist, hbefore, hfirst⟩
      · cases hcause
    · rintro ⟨before, after, hlist, hbefore, hpiece⟩
      exact .inl ⟨before, piece, after, hlist, hbefore, hpiece, rfl⟩
  case unbalanced =>
    rw [analyse_eq_error_iff]
    constructor
    · rintro (⟨before, piece, after, -, -, -, hcause⟩ | ⟨htokens, hunbalanced, -⟩)
      · cases hcause
      · exact ⟨htokens, hunbalanced⟩
    · rintro ⟨htokens, hunbalanced⟩
      exact .inr ⟨htokens, hunbalanced, rfl⟩
  case causes =>
    rcases analyse_eq_error_iff.mp h with ⟨before, piece, after, -, -, -, hcause⟩ | ⟨-, -, hcause⟩
    · exact .inr ⟨piece, hcause⟩
    · exact .inl hcause

end Evaluator

end Reckoner
