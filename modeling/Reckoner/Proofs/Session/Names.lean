import Mathlib.Tactic.TFAE
import Reckoner.Proofs.Formula.Junction
import Reckoner.Proofs.Formula.Refused
import Reckoner.Session.Actions

/-!
# Names read back

A session registers a variable under a name of letters, digits, other number
characters and underscores. A formula knows fewer names: one of the other numbers,
such as `²`, does not continue the name in a reference, and stands in no token that an
analysis accepts. So a variable is read back where its name has none of these, and in
every formula; where its name has one, no formula reads the variable.
-/
namespace Reckoner

/-! ## The other numbers -/

theorem not_ascii_of_isOtherNumber {c : Char} (h : isOtherNumber c = true) : 128 ≤ c.toNat := by
  have hascii : CodeRanges.contains [(0, 127)] c.toNat = false :=
    CodeRanges.not_contains_of_apart (by decide +kernel) h
  simpa [CodeRanges.contains_cons, Nat.lt_iff_add_one_le] using hascii

/-- One of the other numbers is no part of a token that is not free text. -/
theorem not_token_of_isOtherNumber {c : Char} (h : isOtherNumber c = true) :
    isWordChar c = false ∧ c.isDigit = false ∧ isSymbolChar c = false ∧ c ≠ '.' ∧
      c ≠ referenceSign := by
  have hascii : 128 ≤ c.toNat := not_ascii_of_isOtherNumber h
  refine ⟨isWordChar_eq_false_of_isOtherNumber h, Bool.eq_false_iff.mpr fun hdigit => ?_,
    Bool.eq_false_iff.mpr fun hsymbol => ?_, ?_, ?_⟩
  · have hnine : c.toNat ≤ 57 := (Char.isDigit_iff_toNat.mp hdigit).2
    omega
  · rcases Token.eq_of_isSymbolChar hsymbol with ⟨op, rfl⟩ | rfl | rfl
    · exact absurd hascii (by cases op <;> decide)
    · exact absurd hascii (by decide)
    · exact absurd hascii (by decide)
  · rintro rfl
    exact absurd hascii (by decide)
  · rintro rfl
    exact absurd hascii (by decide)

theorem isBlank_eq_false_of_isOtherNumber {c : Char} (h : isOtherNumber c = true) :
    isBlank c = false :=
  CodeRanges.not_contains_of_apart (by decide +kernel) h

/-- No formula with one of the other numbers in it is accepted. -/
theorem Evaluator.exists_malformed_of_isOtherNumber (e : Evaluator) {formula : Text} {c : Char}
    (hc : c ∈ formula) (h : isOtherNumber c = true) :
    ∃ piece, (e.evaluate formula).value = .error (.malformed piece) := by
  obtain ⟨piece, hpiece⟩ := exists_malformed_of_foreign (e := e) hc
    (isBlank_eq_false_of_isOtherNumber h) (not_token_of_isOtherNumber h)
  refine ⟨piece, ?_⟩
  rw [value_evaluate, hpiece]
  rfl

/-! ## References -/

section Reference

variable {name : Text}

theorem tokens_reference (hname : ∀ c ∈ name, isWordChar c = true) :
    tokens (referenceSign :: name) = [referenceSign :: name] :=
  (Registry.Denotes.reference (r := .empty) hname).tokens_eq

/-- The value of a reference is the value that its variable has, however low the limit
on the depth. -/
theorem Evaluator.evaluate_reference (e : Evaluator) (hname : ∀ c ∈ name, isWordChar c = true) :
    (e.evaluate (referenceSign :: name)).value = .ok ((e.registry.get? name).getD 0) := by
  have hsymbols : (e.symbols [referenceSign :: name]).value =
      .ok [.number ((e.registry.get? name).getD 0)] :=
    value_symbols_eq_ok_iff.mpr (.cons (Registry.symbol_of_denotes (.reference hname)) .nil)
  rw [value_evaluate, value_analyse, tokens_reference hname, hsymbols]
  cases e.depthLimit <;> rfl

/-- In a formula, a reference that a break ends is read as it is read alone. -/
theorem tokens_append_reference (hname : ∀ c ∈ name, isWordChar c = true) (before : Text)
    {rest : Text} (hrest : Breaks rest) :
    tokens (before ++ (referenceSign :: name ++ rest)) =
      tokens before ++ (referenceSign :: name) :: tokens rest := by
  have hsign : Breaks (referenceSign :: name ++ rest) := breaks_cons rfl (name ++ rest)
  rw [tokens_append_of_breaks before hsign, tokens_append_of_breaks _ hrest,
    tokens_reference hname]
  rfl

end Reference

/-! ## Registered variables -/

namespace Session

theorem checkName_eq_ok_iff {written name : Text} :
    checkName written = .ok name ↔
      cleanName written = name ∧ name ≠ [] ∧ ∀ c ∈ name, isNameChar c = true := by
  unfold checkName
  dsimp only
  constructor
  · intro h
    split at h
    · cases h
    · rename_i hempty
      split at h
      · rename_i hall
        obtain rfl := Except.ok.inj h
        exact ⟨rfl, by simpa using hempty, List.all_eq_true.mp hall⟩
      · cases h
  · rintro ⟨rfl, hne, hall⟩
    rw [if_neg (by simpa using hne), if_pos (List.all_eq_true.mpr hall)]

theorem isWordChar_of_checkName {written name : Text} (h : checkName written = .ok name)
    (hother : ∀ c ∈ name, isOtherNumber c = false) : ∀ c ∈ name, isWordChar c = true := by
  intro c hc
  have hchar : isNameChar c = true := (checkName_eq_ok_iff.mp h).2.2 c hc
  simp only [isNameChar, Bool.or_eq_true, beq_iff_eq] at hchar
  rcases hchar with hchar | rfl
  · exact isWordChar_of_isAlphanumeric hchar (hother c hc)
  · exact isWordChar_underscore

theorem evaluator_register {s : Session} {name : Text} (h : checkName s.variableName = .ok name) :
    s.register.value.evaluator =
      { s.evaluator with registry := s.evaluator.registry.insert name s.variableValue } := by
  unfold register
  rw [h]
  rfl

/-- A variable whose name is accepted has its value in the registry. Formulas read it
back, alone and in front of any break, exactly if there is none of the other numbers in
its name. -/
theorem register_readsBack_iff {s : Session} {name : Text}
    (h : checkName s.variableName = .ok name) :
    s.register.value.evaluator.registry.substitute (referenceSign :: name) =
        .value s.variableValue ∧
      [∀ c ∈ name, isOtherNumber c = false,
        tokens (referenceSign :: name) = [referenceSign :: name],
        (s.register.value.evaluator.evaluate (referenceSign :: name)).value =
          .ok s.variableValue,
        ∀ before rest, Breaks rest →
          tokens (before ++ (referenceSign :: name ++ rest)) =
            tokens before ++ (referenceSign :: name) :: tokens rest].TFAE := by
  have hregistry : s.register.value.evaluator.registry.get? name = some s.variableValue := by
    rw [evaluator_register h]
    exact Registry.get?_insert_self _ _ _
  refine ⟨by simp [Registry.substitute, Registry.reference?, hregistry], ?_⟩
  tfae_have 1 → 4 := fun hother before rest =>
    tokens_append_reference (isWordChar_of_checkName h hother) before
  tfae_have 4 → 2 := by
    intro hreads
    simpa using hreads [] [] (by simp [Breaks])
  tfae_have 2 → 1 := by
    intro htokens c hc
    have hmem : referenceSign :: name ∈ tokens (referenceSign :: name) := by simp [htokens]
    refine Bool.eq_false_iff.mpr fun hother => ?_
    have hword : isWordChar c = true := isWordChar_of_mem_tokens hmem name rfl c hc
    rw [isWordChar_eq_false_of_isOtherNumber hother] at hword
    cases hword
  tfae_have 1 → 3 := by
    intro hother
    rw [Evaluator.evaluate_reference _ (isWordChar_of_checkName h hother), hregistry]
    rfl
  tfae_have 3 → 1 := by
    intro hvalue c hc
    refine Bool.eq_false_iff.mpr fun hother => ?_
    obtain ⟨piece, hpiece⟩ := Evaluator.exists_malformed_of_isOtherNumber _
      (List.mem_cons_of_mem referenceSign hc) hother
    cases hvalue.symm.trans hpiece
  tfae_finish

/-- The name in ` $x_1 ` is read back. -/
theorem register_readsBack_word :
    let s : Session :=
      { initial with variableName := [' ', '$', 'x', '_', '1', ' '], variableValue := 5.75 }
    checkName s.variableName = .ok ['x', '_', '1'] ∧
      (s.register.value.evaluator.evaluate ['$', 'x', '_', '1']).value = .ok 5.75 := by
  intro s
  have hname : checkName s.variableName = .ok ['x', '_', '1'] := by decide +kernel
  have hother : ∀ c ∈ ['x', '_', '1'], isOtherNumber c = false := by
    simp only [List.forall_mem_cons, List.not_mem_nil, false_implies, implies_true, and_true]
    decide +kernel
  exact ⟨hname, ((register_readsBack_iff hname).2.out 0 2).mp hother⟩

/-- The name `²` is accepted and has its value in the registry, but a reference to it is
two tokens, of which the second is malformed. -/
theorem exists_register_not_readsBack :
    let s : Session := { initial with variableName := ['²'], variableValue := 5 }
    checkName s.variableName = .ok ['²'] ∧
      s.register.value.evaluator.registry.get? ['²'] = some 5 ∧
      tokens ['$', '²'] = [['$'], ['²']] ∧
      (s.register.value.evaluator.evaluate ['$', '²']).value = .error (.malformed ['²']) := by
  intro s
  have hname : checkName s.variableName = .ok ['²'] := by decide +kernel
  have htokens : tokens ['$', '²'] = [['$'], ['²']] := by
    have hsign : Token.next? ['$', '²'] = some (['$'], ['²']) := by decide +kernel
    have hfree : Token.next? ['²'] = some (['²'], []) := by decide +kernel
    rw [tokens_of_next?_some hsign, tokens_of_next?_some hfree, tokens_nil]
  have hmalformed : ¬ Token.WellFormed ['²'] := by
    have hother : isOtherNumber '²' = true := by decide +kernel
    exact fun h => h.not_mem (not_token_of_isOtherNumber hother) (List.mem_singleton.mpr rfl)
  have hanalyse : (s.register.value.evaluator.analyse ['$', '²']).value =
      .error (.malformed ['²']) := by
    have hbefore : ∀ token ∈ [['$']], Token.WellFormed token :=
      List.forall_mem_singleton.mpr (.reference (by simp))
    exact Evaluator.analyse_eq_error_iff.mpr
      (.inl ⟨[['$']], ['²'], [], htokens, hbefore, hmalformed, rfl⟩)
  refine ⟨hname, ?_, htokens, ?_⟩
  · rw [evaluator_register hname]
    exact Registry.get?_insert_self _ _ _
  · rw [Evaluator.value_evaluate, hanalyse]
    rfl

end Session

end Reckoner
