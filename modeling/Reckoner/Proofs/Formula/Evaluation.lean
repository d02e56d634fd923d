import Reckoner.Evaluator
import Reckoner.Proofs.Formula.Spelling
import Reckoner.Proofs.Postfix.Phrase

/-!
# From the text of a formula to its value

The stages of an evaluation put together: the text is cut into tokens, each token
is the symbol that it denotes, the symbols come into the postfix order of their
tree, and resolution finds the value of the tree. So a text that writes a formula
of the grammar has the value of that formula.
-/
namespace Reckoner

/-! ## What a token stands for -/

theorem Symbol.eq_of_ofChar? {c : Char} {s : Symbol} (h : Symbol.ofChar? c = some s) :
    (c = '(' ∧ s = .opening) ∨ (c = ')' ∧ s = .closing) ∨
      ∃ op : Operator, c = op.symbol ∧ s = .operator op := by
  unfold ofChar? at h
  split at h
  · rename_i hc
    exact .inl ⟨hc, (Option.some.inj h).symm⟩
  · split at h
    · rename_i hc
      exact .inr (.inl ⟨hc, (Option.some.inj h).symm⟩)
    · obtain ⟨op, hop, rfl⟩ := Option.map_eq_some_iff.mp h
      exact .inr (.inr ⟨op, (Operator.symbol_of_ofSymbol? hop).symm, rfl⟩)

/-- No numeral is a symbol of one character. -/
theorem Numeral.Written.ofChar?_eq_none {c : Char} {n : Numeral} (h : Written [c] n) :
    Symbol.ofChar? c = none := by
  have hparse := parse?_of_written h
  cases hchar : Symbol.ofChar? c with
  | none => rfl
  | some s =>
      exfalso
      rcases Symbol.eq_of_ofChar? hchar with ⟨rfl, -⟩ | ⟨rfl, -⟩ | ⟨op, rfl, -⟩
      · cases hparse
      · cases hparse
      · cases op <;> cases hparse

/-- A text that is a symbol is one of the characters for a symbol, or a numeral. -/
theorem Symbol.ofText?_eq_some_iff {t : Text} {s : Symbol} :
    Symbol.ofText? t = some s ↔
      (∃ c, t = [c] ∧ Symbol.ofChar? c = some s) ∨
        ∃ n, Numeral.Written t n ∧ .number n.value = s := by
  match t with
  | [c] =>
    have hor : Symbol.ofText? [c] =
        (ofChar? c).or ((Numeral.parse? [c]).map fun n => .number n.value) := by
      simp [ofText?]
    rw [hor, Option.or_eq_some_iff, Option.map_eq_some_iff]
    simp only [Numeral.parse?_eq_some_iff, List.cons.injEq, and_true, exists_eq_left']
    constructor
    · rintro (hchar | ⟨-, hn⟩)
      · exact .inl hchar
      · exact .inr hn
    · rintro (hchar | ⟨n, hn, rfl⟩)
      · exact .inl hchar
      · exact .inr ⟨hn.ofChar?_eq_none, n, hn, rfl⟩
  | [] => simp [ofText?, Numeral.parse?_eq_some_iff]
  | c :: d :: t => simp [ofText?, Numeral.parse?_eq_some_iff]

theorem reference?_of_written {token : Text} {n : Numeral} (h : Numeral.Written token n) :
    Registry.reference? token = none := by
  cases token with
  | nil => rfl
  | cons c token =>
      have hsign : c ≠ referenceSign := by
        rintro rfl
        cases Numeral.parse?_of_written h
      simp [Registry.reference?, hsign]

namespace Registry

/-- The symbol that a token stands for. -/
def symbol (r : Registry) (token : Text) : Except Failure Symbol :=
  Symbol.ofFragment (r.substitute token)

theorem symbol_of_raw {r : Registry} {token : Text} {s : Symbol} (h : reference? token = none)
    (hs : Symbol.ofText? token = some s) : r.symbol token = .ok s := by
  simp [symbol, substitute, h, Symbol.ofFragment, hs]

theorem symbol_of_denotes {r : Registry} {token : Text} {s : Symbol} (h : r.Denotes token s) :
    r.symbol token = .ok s := by
  cases h with
  | numeral hn =>
      exact symbol_of_raw (reference?_of_written hn)
        (Symbol.ofText?_eq_some_iff.mpr (.inr ⟨_, hn, rfl⟩))
  | reference hname => simp [symbol, substitute, reference?, Symbol.ofFragment]
  | operator op => cases op <;> rfl
  | opening => rfl
  | closing => rfl

end Registry

/-! ## The symbols of a formula -/

theorem mapM_eq_ok_iff {α β ε : Type} {f : α → Except ε β} {l : List α} {m : List β} :
    l.mapM f = .ok m ↔ List.Forall₂ (fun a b => f a = .ok b) l m := by
  induction l generalizing m with
  | nil =>
      rw [List.mapM_nil, List.forall₂_nil_left_iff]
      exact ⟨fun h => (Except.ok.inj h).symm, fun h => h ▸ rfl⟩
  | cons a l ih =>
      rw [List.mapM_cons, bind_eq_ok_iff]
      constructor
      · rintro ⟨b, ha, h⟩
        obtain ⟨bs, hl, h⟩ := bind_eq_ok_iff.mp h
        obtain rfl := Except.ok.inj h
        exact .cons ha (ih.mp hl)
      · intro h
        cases h with
        | @cons _ b _ bs ha hl => exact ⟨b, ha, bind_eq_ok_iff.mpr ⟨bs, ih.mpr hl, rfl⟩⟩

/-- Tokens denote one list of symbols at most. -/
theorem Registry.eq_of_denotes {r : Registry} {words : List Text} {symbols more : List Symbol}
    (h : List.Forall₂ r.Denotes words symbols) (h' : List.Forall₂ r.Denotes words more) :
    symbols = more := by
  have hsymbols := mapM_eq_ok_iff.mpr (h.imp fun _ _ => symbol_of_denotes)
  rw [mapM_eq_ok_iff.mpr (h'.imp fun _ _ => symbol_of_denotes)] at hsymbols
  exact (Except.ok.inj hsymbols).symm

theorem Evaluator.value_symbolsAfter (e : Evaluator) (found : List Symbol)
    (journal : List Record) (tokens : List Text) :
    (e.symbolsAfter found journal tokens).value =
      (tokens.mapM e.registry.symbol).map (found.reverse ++ ·) := by
  induction tokens generalizing found journal with
  | nil => simp [symbolsAfter, pure, Except.pure, Except.map]
  | cons token tokens ih =>
      have hvalue : (e.substitute token).value = e.registry.substitute token := rfl
      rw [List.mapM_cons, Registry.symbol]
      simp only [symbolsAfter, hvalue]
      cases Symbol.ofFragment (e.registry.substitute token) with
      | error failure => rfl
      | ok s =>
          rw [ih]
          cases tokens.mapM e.registry.symbol with
          | error failure => rfl
          | ok symbols => simp [bind, Except.bind, pure, Except.pure, Except.map]

/-- The symbols are those of the tokens, up to the first token that is none. -/
theorem Evaluator.value_symbols (e : Evaluator) (tokens : List Text) :
    (e.symbols tokens).value = tokens.mapM e.registry.symbol := by
  rw [symbols, value_symbolsAfter]
  cases tokens.mapM e.registry.symbol <;> rfl

theorem Evaluator.value_symbols_eq_ok_iff {e : Evaluator} {tokens : List Text}
    {symbols : List Symbol} :
    (e.symbols tokens).value = .ok symbols ↔
      List.Forall₂ (fun token s => e.registry.symbol token = .ok s) tokens symbols := by
  rw [value_symbols, mapM_eq_ok_iff]

/-! ## The value of a formula -/

/-- A text is analysed as the postfix order that its symbols come into. -/
theorem Evaluator.analyse_of_denotes (e : Evaluator) {formula : Text} {symbols : List Symbol}
    {p : Postfix} (hwords : List.Forall₂ e.registry.Denotes (tokens formula) symbols)
    (hlisting : Postfix.ofSymbols symbols = .ok p) : (e.analyse formula).value = .ok p := by
  have hsymbols : (e.symbols (tokens formula)).value = .ok symbols :=
    value_symbols_eq_ok_iff.mpr (hwords.imp fun _ _ h => Registry.symbol_of_denotes h)
  rw [value_analyse, hsymbols]
  exact hlisting

/-- A text has the value of the tree that its symbols come into the listing of. -/
theorem Evaluator.evaluate_of_listing {r : Registry} {words : List Text} {symbols : List Symbol}
    {t : Tree} {formula : Text} (hwords : List.Forall₂ r.Denotes words symbols)
    (hformula : Spaced words formula)
    (hlisting : Postfix.ofSymbols symbols = .ok (.ofList t.terms)) :
    ((Evaluator.mk r none).evaluate formula).value = .ok t.value := by
  have htokens : tokens formula = words := tokens_of_spaced hformula hwords
  have hanalyse : ((Evaluator.mk r none).analyse formula).value = .ok (.ofList t.terms) :=
    analyse_of_denotes _ (htokens.symm ▸ hwords) hlisting
  rw [value_evaluate, hanalyse]
  exact Postfix.resolve_eq_ok (Stack.toList_ofList t.terms)

/-- A text that writes a formula of the grammar has a value, and it is the one of the
tree that the formula is the notation of. -/
theorem Evaluator.evaluate_of_derives {r : Registry} {words : List Text} {symbols : List Symbol}
    {t : Tree} {formula : Text} (hderives : Derives .sum symbols t)
    (hwords : List.Forall₂ r.Denotes words symbols) (hformula : Spaced words formula) :
    ((Evaluator.mk r none).evaluate formula).value = .ok t.value :=
  evaluate_of_listing hwords hformula (Postfix.ofSymbols_of_derives hderives)

/-- `-2*($a + .5)`, where `$a` is two: white space only where it is needed. -/
theorem Evaluator.evaluate_of_derives_tight :
    Spaced [['-', '2'], ['*'], ['('], ['$', 'a'], ['+'], ['.', '5'], [')']]
      ['-', '2', '*', '(', '$', 'a', ' ', '+', ' ', '.', '5', ')'] ∧
    ((Evaluator.mk (Registry.empty.insert ['a'] 2) none).evaluate
      ['-', '2', '*', '(', '$', 'a', ' ', '+', ' ', '.', '5', ')']).value =
      .ok (Operator.mul.apply (Numeral.mk true ['2'] []).value
        (Operator.add.apply 2 (Numeral.mk false [] ['5']).value)) := by
  have hspaced : Spaced [['-', '2'], ['*'], ['('], ['$', 'a'], ['+'], ['.', '5'], [')']]
      ['-', '2', '*', '(', '$', 'a', ' ', '+', ' ', '.', '5', ')'] := by
    have hhalf : Spaced [['.', '5'], [')']] ['.', '5', ')'] := .beside (.inr rfl) (.last _)
    have hname : Spaced [['$', 'a'], ['+'], ['.', '5'], [')']]
        ['$', 'a', ' ', '+', ' ', '.', '5', ')'] :=
      .parted isBlank_space (.parted isBlank_space hhalf)
    exact .beside (.inr rfl) (.beside (.inl rfl) (.beside (.inl rfl) hname))
  have hminusTwo : Numeral.Written ['-', '2'] ⟨true, ['2'], []⟩ :=
    Numeral.parse?_eq_some_iff.mp (by decide)
  have hhalf : Numeral.Written ['.', '5'] ⟨false, [], ['5']⟩ :=
    Numeral.parse?_eq_some_iff.mp (by decide)
  have hname : (Registry.empty.insert ['a'] 2).Denotes ['$', 'a'] (.number 2) := by
    have hword : ∀ c ∈ ['a'], isWordChar c = true :=
      List.forall_mem_singleton.mpr (by decide +kernel)
    have hdenotes := Registry.Denotes.reference (r := Registry.empty.insert ['a'] 2) hword
    rwa [Registry.get?_insert_self] at hdenotes
  have hsum := Derives.sum (.inl rfl) (.of_number 2 .sum)
    (.of_number (Numeral.mk false [] ['5']).value .product)
  have hproduct := Derives.product (.inl rfl)
    (.of_number (Numeral.mk true ['2'] []).value .product) (.ofAtom (.group hsum))
  have hwords := List.Forall₂.cons (.numeral hminusTwo) (.cons (.operator .mul) (.cons .opening
    (.cons hname (.cons (.operator .add) (.cons (.numeral hhalf) (.cons .closing .nil))))))
  have hvalue := evaluate_of_derives (.ofProduct hproduct) hwords hspaced
  simp only [Tree.value] at hvalue
  exact ⟨hspaced, hvalue⟩

end Reckoner
