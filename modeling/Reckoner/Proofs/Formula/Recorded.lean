import Reckoner.Proofs.Formula.Reference
import Reckoner.Proofs.Formula.Refused

/-!
# What an evaluation notes down

The journal of an evaluation tells how far it got. Each name without a value is noted down
where it is looked up, so none behind the first malformed token is. The postfix order is
noted down once the analysis is through, and the value once there is one. A failure leaves no
record of its own: it shows in what is missing.
-/
namespace Reckoner

/-- A record as it is written into the journal. -/
def Record.line (record : Record) : Level × Text := (record.level, record.message)

/-! ## Names without a value -/

namespace Registry

variable {r : Registry}

/-- The names without a value that tokens refer to, in reading order, each as often as it is
referred to. -/
def unknownNames (r : Registry) (words : List Text) : List Text :=
  (words.filter fun token =>
    token.head? == some referenceSign && (r.get? token.tail).isNone).map List.tail

theorem mem_unknownNames {words : List Text} {name : Text} :
    name ∈ r.unknownNames words ↔ referenceSign :: name ∈ words ∧ r.get? name = none := by
  simp only [unknownNames, List.mem_map, List.mem_filter, Bool.and_eq_true, beq_iff_eq,
    Option.isNone_iff_eq_none]
  constructor
  · rintro ⟨token, ⟨hmem, hhead, hnone⟩, rfl⟩
    obtain ⟨rest, rfl⟩ := List.head?_eq_some_iff.mp hhead
    exact ⟨hmem, hnone⟩
  · rintro ⟨hmem, hnone⟩
    exact ⟨referenceSign :: name, ⟨hmem, rfl, hnone⟩, rfl⟩

/-- What is no reference is not looked up. -/
theorem unknown?_of_not_reference {token : Text} (h : reference? token = none) :
    r.unknown? token = none := by
  rw [unknown?, h]
  rfl

/-- What is no symbol is no reference. -/
theorem unknown?_of_symbol_eq_error {token : Text} {failure : Failure}
    (h : r.symbol token = .error failure) : r.unknown? token = none := by
  rcases reference?_cases token with ⟨name, rfl⟩ | hnone
  · rw [symbol, substitute_of_reference] at h
    cases h
  · exact unknown?_of_not_reference hnone

theorem unknownNames_cons (r : Registry) (token : Text) (words : List Text) :
    r.unknownNames (token :: words) = (r.unknown? token).toList ++ r.unknownNames words := by
  rcases reference?_cases token with ⟨name, rfl⟩ | hnone
  · cases hvalue : r.get? name with
    | none => simp [unknownNames, unknown?, reference?, Option.filter_some, hvalue]
    | some v => simp [unknownNames, unknown?, reference?, Option.filter_some, hvalue]
  · have hhead : token.head? ≠ some referenceSign := by
      intro hhead
      obtain ⟨name, rfl⟩ := List.head?_eq_some_iff.mp hhead
      simp [reference?] at hnone
    simp [unknown?_of_not_reference hnone, unknownNames, hhead]

end Registry

/-! ## The stages of an evaluation -/

/-- A list up to the first member that lacks a property, and the rest. -/
theorem exists_first_lacking {α : Type} (p : α → Prop) (l : List α) :
    ∃ before after, l = before ++ after ∧ (∀ a ∈ before, p a) ∧ ∀ a ∈ after.head?, ¬ p a := by
  induction l with
  | nil => exact ⟨[], [], rfl, by simp, by simp⟩
  | cons a l ih =>
      by_cases ha : p a
      · obtain ⟨before, after, rfl, hbefore, hafter⟩ := ih
        exact ⟨a :: before, after, rfl, List.forall_mem_cons.mpr ⟨ha, hbefore⟩, hafter⟩
      · exact ⟨[], a :: l, rfl, by simp, by simpa using ha⟩

namespace Evaluator

variable {e : Evaluator}

/-- The names without a value are noted down up to the first token that is no symbol. -/
theorem journal_symbolsAfter {read rest : List Text}
    (hread : ∀ token ∈ read, ∃ s, e.registry.symbol token = .ok s)
    (hrest : ∀ piece ∈ rest.head?, ¬ ∃ s, e.registry.symbol piece = .ok s)
    (found : List Symbol) (journal : List Record) :
    (e.symbolsAfter found journal (read ++ rest)).journal =
      journal.reverse ++ (e.registry.unknownNames read).map .unknownVariable := by
  have hvalue : ∀ token, Symbol.ofFragment (e.substitute token).value = e.registry.symbol token :=
    fun _ => rfl
  have hjournal : ∀ token, (e.substitute token).journal =
      (e.registry.unknown? token).toList.map .unknownVariable := fun _ => rfl
  induction read generalizing found journal with
  | nil =>
      cases rest with
      | nil => simp [symbolsAfter, Registry.unknownNames]
      | cons piece rest =>
          cases hsymbol : e.registry.symbol piece with
          | ok s => exact absurd ⟨s, hsymbol⟩ (hrest piece rfl)
          | error failure =>
              have hunknown := Registry.unknown?_of_symbol_eq_error hsymbol
              simp [symbolsAfter, hvalue, hjournal, hsymbol, hunknown, Registry.unknownNames]
  | cons token read ih =>
      obtain ⟨⟨s, hsymbol⟩, hread⟩ := List.forall_mem_cons.mp hread
      simp [symbolsAfter, hvalue, hjournal, hsymbol, ih hread, Registry.unknownNames_cons]

theorem journal_analyse (e : Evaluator) (formula : Text) :
    (e.analyse formula).journal = (e.symbols (tokens formula)).journal ++
      ((e.analyse formula).value.toOption.map fun p => .compiled formula p.text).toList := by
  rw [value_analyse, analyse, Logged.journal_bind]
  cases (e.symbols (tokens formula)).value >>= Postfix.ofSymbols <;> rfl

theorem journal_execute (e : Evaluator) (p : Postfix) :
    (e.execute p).journal = ((p.resolve e.depthLimit).toOption.map .result).toList := by
  rw [execute]
  cases p.resolve e.depthLimit <;> rfl

theorem journal_evaluate (e : Evaluator) (formula : Text) :
    (e.evaluate formula).journal = (e.analyse formula).journal ++
      ((e.evaluate formula).value.toOption.map .result).toList := by
  rw [value_evaluate, evaluate, Logged.journal_bind]
  cases (e.analyse formula).value with
  | error failure => rfl
  | ok p => exact congrArg _ (e.journal_execute p)

/-- The steps to a value are not noted down. -/
theorem journal_explain (e : Evaluator) (formula : Text) :
    (e.explain formula).journal = (e.evaluate formula).journal := by
  rw [explain, evaluate, Logged.journal_bind, Logged.journal_bind]
  cases (e.analyse formula).value with
  | error failure => rfl
  | ok p => simp

/-- The records of an evaluation, where the tokens in front of the first malformed one are
those that were read. -/
theorem exists_journal_evaluate (e : Evaluator) (formula : Text) :
    ∃ read rest, tokens formula = read ++ rest ∧
      (∀ token ∈ read, Token.WellFormed token) ∧
      (∀ piece ∈ rest.head?, ¬ Token.WellFormed piece) ∧
      (e.evaluate formula).journal =
        (e.registry.unknownNames read).map .unknownVariable ++
          ((e.analyse formula).value.toOption.map fun p => .compiled formula p.text).toList ++
          ((e.evaluate formula).value.toOption.map .result).toList := by
  obtain ⟨read, rest, htokens, hread, hrest⟩ :=
    exists_first_lacking Token.WellFormed (tokens formula)
  have hreadSymbols : ∀ token ∈ read, ∃ s, e.registry.symbol token = .ok s := by
    intro token hmem
    have hformula : token ∈ tokens formula := htokens ▸ List.mem_append_left rest hmem
    exact (Registry.exists_symbol_iff hformula).mpr (hread token hmem)
  have hrestSymbols : ∀ piece ∈ rest.head?, ¬ ∃ s, e.registry.symbol piece = .ok s := by
    intro piece hmem
    have hformula : piece ∈ tokens formula :=
      htokens ▸ List.mem_append_right read (List.mem_of_mem_head? hmem)
    exact (Registry.exists_symbol_iff hformula).not.mpr (hrest piece hmem)
  refine ⟨read, rest, htokens, hread, hrest, ?_⟩
  rw [journal_evaluate, journal_analyse, symbols, htokens,
    journal_symbolsAfter hreadSymbols hrestSymbols]
  rfl

/-- What is accepted holds white space and the characters of tokens only. -/
theorem not_mem_of_analyse {formula : Text} {p : Postfix} {c : Char}
    (h : (e.analyse formula).value = .ok p) (hblank : isBlank c = false)
    (hforeign : isWordChar c = false ∧ c.isDigit = false ∧ isSymbolChar c = false ∧ c ≠ '.' ∧
      c ≠ referenceSign) : c ∉ formula := by
  intro hc
  obtain ⟨piece, hpiece⟩ := exists_malformed_of_foreign (e := e) hc hblank hforeign
  rw [h] at hpiece
  cases hpiece

/-- A formula of printable characters of ASCII stands between the quotes as it is written:
where it is accepted, it has no character that quoting would change. -/
theorem mem_journal_of_printable {formula : Text} {p : Postfix}
    (hprintable : ∀ c ∈ formula, ' ' ≤ c ∧ c ≤ '~') (h : (e.analyse formula).value = .ok p) :
    (.debug, '"' :: formula ++ ['"'] ++ " => postfixe [".toList ++ p.text ++ [']']) ∈
      (e.evaluate formula).journal.map Record.line := by
  have hquote : '"' ∉ formula := not_mem_of_analyse h (by decide +kernel) (by decide +kernel)
  have hbackslash : '\\' ∉ formula :=
    not_mem_of_analyse h (by decide +kernel) (by decide +kernel)
  have hrecord : .compiled formula p.text ∈ (e.evaluate formula).journal := by
    simp [journal_evaluate, journal_analyse, h, Except.toOption]
  rw [← Text.quoted_of_printable hprintable hquote hbackslash]
  exact List.mem_map_of_mem hrecord

/-- A formula that has a value has no malformed token. -/
theorem wellFormed_of_evaluate {formula : Text} {v : Float}
    (h : (e.evaluate formula).value = .ok v) :
    ∀ token ∈ tokens formula, Token.WellFormed token := by
  obtain ⟨symbols, p, hsymbols, -⟩ := stages_of_evaluate h
  exact exists_symbols_iff.mp ⟨symbols, hsymbols⟩

/-- The journal of an evaluation, with its steps or without: a warning for each reference to a
name without a value, up to the first malformed token; the postfix order, if the analysis
succeeds; the value, if there is one; and nothing else. So where there is a value, no name was
taken for zero unnoticed, and where there is none, none is announced. -/
theorem journal_is_exact (e : Evaluator) (formula : Text) :
    (e.explain formula).journal = (e.evaluate formula).journal ∧
    (∃ read rest, tokens formula = read ++ rest ∧
      (∀ token ∈ read, Token.WellFormed token) ∧
      (∀ piece ∈ rest.head?, ¬ Token.WellFormed piece) ∧
      (e.evaluate formula).journal.map Record.line =
        (e.registry.unknownNames read).map (fun name =>
          (.warn, "variable $".toList ++ name ++ " non enregistrée : remplacée par 0".toList)) ++
        ((e.analyse formula).value.toOption.map fun p =>
          (.debug, formula.quoted ++ " => postfixe [".toList ++ p.text ++ [']'])).toList ++
        ((e.evaluate formula).value.toOption.map fun v =>
          (.debug, "résultat = ".toList ++ numberText v)).toList) ∧
    (∀ v, (e.evaluate formula).value = .ok v → ∀ name, referenceSign :: name ∈ tokens formula →
      e.registry.get? name = none → .unknownVariable name ∈ (e.evaluate formula).journal) ∧
    ∀ failure, (e.evaluate formula).value = .error failure →
      ∀ v, .result v ∉ (e.evaluate formula).journal := by
  obtain ⟨read, rest, htokens, hread, hrest, hjournal⟩ := e.exists_journal_evaluate formula
  refine ⟨e.journal_explain formula, ⟨read, rest, htokens, hread, hrest, ?lines⟩, ?noticed,
    ?announced⟩
  case lines =>
    have hoption : ∀ {α : Type} (o : Option α) (f : α → Record),
        (o.map f).toList.map Record.line = (o.map fun a => (f a).line).toList := by
      intro α o f
      cases o <;> rfl
    rw [hjournal, List.map_append, List.map_append, List.map_map, hoption, hoption]
    rfl
  case noticed =>
    intro v hvalue name hname hnone
    have hwell := wellFormed_of_evaluate hvalue
    have hrestNil : rest = [] := by
      rw [← List.head?_eq_none_iff, Option.eq_none_iff_forall_not_mem]
      intro piece hpiece
      refine hrest piece hpiece (hwell piece ?_)
      exact htokens ▸ List.mem_append_right read (List.mem_of_mem_head? hpiece)
    rw [hrestNil, List.append_nil] at htokens
    have hmem : name ∈ e.registry.unknownNames read :=
      Registry.mem_unknownNames.mpr ⟨htokens ▸ hname, hnone⟩
    simp [hjournal, hmem]
  case announced =>
    intro failure hfailure v
    simp [hjournal, hfailure, Except.toOption]

/-- In `$x @ $y` only `$x` is looked up. -/
example : (Evaluator.empty.evaluate ['$', 'x', '@', '$', 'y']).journal =
    [.unknownVariable ['x']] := by decide +kernel

end Evaluator

end Reckoner
