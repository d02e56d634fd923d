import Reckoner.Proofs.Formula.Refused
import Reckoner.Proofs.Formula.Spacing

/-!
# A lost parenthesis

Where a parenthesis is taken out of a formula, the texts on its two sides meet, and their
tokens may fuse: `1(2` becomes `12`, and `-(5` becomes `-5`. Still no malformed token comes
of it. A text of well-formed tokens is one that is made of white space, symbols, digits,
points in front of digits and references, and each of these may stand in front of any
other. So all that is wrong with such a formula is that its parentheses do not balance.
-/
namespace Reckoner

namespace Token

/-- The text is made of parts that each may stand in front of any other. -/
inductive Legible : Text → Prop where
  | nil : Legible []
  | blank {c : Char} {t : Text} (hc : isBlank c = true) (h : Legible t) : Legible (c :: t)
  | symbol {c : Char} {t : Text} (hc : isSymbolChar c = true) (h : Legible t) : Legible (c :: t)
  | digit {d : Char} {t : Text} (hd : d.isDigit = true) (h : Legible t) : Legible (d :: t)
  | point {d : Char} {t : Text} (hd : d.isDigit = true) (h : Legible t) :
      Legible ('.' :: d :: t)
  | reference {name t : Text} (hname : ∀ c ∈ name, isWordChar c = true) (h : Legible t) :
      Legible (referenceSign :: (name ++ t))

namespace Legible

variable {t rest : Text}

theorem append (h : Legible t) (hrest : Legible rest) : Legible (t ++ rest) := by
  induction h with
  | nil => exact hrest
  | blank hc _ ih => exact .blank hc ih
  | symbol hc _ ih => exact .symbol hc ih
  | digit hd _ ih => exact .digit hd ih
  | point hd _ ih => exact .point hd ih
  | reference hname _ ih =>
      rw [List.cons_append, List.append_assoc]
      exact .reference hname ih

/-! ## What is left of a text -/

/-- Without its first character, unless that is the sign of a reference. -/
theorem tail {c : Char} (h : Legible (c :: t)) (hc : c ≠ referenceSign) : Legible t := by
  cases h with
  | blank _ h => exact h
  | symbol _ h => exact h
  | digit _ h => exact h
  | point hd h => exact .digit hd h
  | reference _ _ => exact absurd rfl hc

theorem of_append (h : Legible (t ++ rest)) (ht : referenceSign ∉ t) : Legible rest := by
  induction t with
  | nil => exact h
  | cons c t ih =>
      obtain ⟨hc, ht⟩ := not_or.mp (List.mem_cons.not.mp ht)
      exact ih (tail h (Ne.symm hc)) ht

theorem dropWhile {p : Char → Bool} (hp : p referenceSign = false) (h : Legible t) :
    Legible (t.dropWhile p) := by
  have hwhole := List.takeWhile_append_dropWhile (p := p) (l := t)
  rw [← hwhole] at h
  apply of_append h
  intro hmem
  rw [List.mem_takeWhile_imp hmem] at hp
  cases hp

/-- Without the reference at its start. -/
theorem behind_reference (h : Legible (referenceSign :: t)) : Legible (t.dropWhile isWordChar) := by
  have hsign : isWordChar referenceSign = false := by decide +kernel
  cases h with
  | blank _ h => exact h.dropWhile hsign
  | symbol _ h => exact h.dropWhile hsign
  | digit _ h => exact h.dropWhile hsign
  | reference hname h =>
      rw [List.dropWhile_append_of_pos hname]
      exact h.dropWhile hsign

end Legible

/-! ## Well-formed tokens -/

section Tokens

variable {t token rest : Text}

/-- What is legible begins with a token that is no free text, unless white space or nothing
is there. -/
theorem Legible.isSome_takeProper? {c : Char} (h : Legible (c :: t)) (hc : isBlank c = false) :
    (takeProper? (c :: t)).isSome = true := by
  apply isSome_takeProper?_cons_iff.mpr
  cases h with
  | blank hblank _ =>
      rw [hblank] at hc
      cases hc
  | symbol hsymbol _ => exact .inl hsymbol
  | digit hd _ => exact .inr (.inr (Numeral.starts_cons_iff.mpr (.inl hd)))
  | point hd _ => exact .inr (.inr (Numeral.starts_cons_iff.mpr (.inr ⟨rfl, _, rfl, hd⟩)))
  | reference _ _ => exact .inr (.inl rfl)

theorem Proper.legible_rest {kind : Kind} (h : Proper kind token rest)
    (ht : Legible (token ++ rest)) : Legible rest := by
  cases h with
  | reference hname hlongest =>
      rw [List.cons_append] at ht
      have hrest := ht.behind_reference
      rwa [dropWhile_run hname hlongest] at hrest
  | numeral hn _ =>
      apply ht.of_append
      intro hmem
      rcases hn.mem_cases hmem with (hdigit | hpoint) | hsign | hsign
      · exact absurd hdigit (by decide)
      · exact absurd hpoint (by decide)
      · exact absurd hsign (by decide)
      · exact absurd hsign (by decide)
  | symbol hc _ => exact ht.tail (not_inner_of_isSymbolChar hc).2.2.2

theorem Legible.next? (h : Legible t) (hnext : next? t = some (token, rest)) :
    WellFormed token ∧ Legible rest := by
  have hdrop : Legible (t.dropWhile isBlank) := h.dropWhile (by decide +kernel)
  have happend := next?_append hnext
  have hne := next?_ne_nil hnext
  have hhead := List.head?_dropWhile_not isBlank t
  unfold Token.next? at hnext
  cases htext : t.dropWhile isBlank with
  | nil =>
      rw [htext] at hnext
      cases hnext
  | cons c t' =>
      rw [htext] at hdrop happend hhead hnext
      obtain ⟨found, hfound⟩ := Option.isSome_iff_exists.mp
        (hdrop.isSome_takeProper? (by simpa using hhead))
      have hnext := Option.some.inj hnext
      rw [hfound, Option.getD_some] at hnext
      subst hnext
      obtain ⟨kind, hproper⟩ := exists_proper_of_takeProper? hfound
      rw [← happend] at hdrop
      exact ⟨hproper.wellFormed, hproper.legible_rest hdrop⟩

theorem legible_digits_append {digits : Text} (hdigits : ∀ c ∈ digits, c.isDigit = true)
    (hrest : Legible rest) : Legible (digits ++ rest) := by
  induction digits with
  | nil => exact hrest
  | cons d digits ih =>
      obtain ⟨hd, hdigits⟩ := List.forall_mem_cons.mp hdigits
      exact .digit hd (ih hdigits)

theorem legible_numeral_append {n : Numeral} (h : Numeral.Written token n)
    (hrest : Legible rest) : Legible (token ++ rest) := by
  have hsign : ∀ sign ∈ Numeral.signs, ∀ {t}, Legible t → Legible (sign ++ t) := by
    intro sign hsign t ht
    simp only [Numeral.signs, List.mem_cons, List.not_mem_nil, or_false] at hsign
    rcases hsign with rfl | rfl | rfl
    · exact ht
    · exact .symbol (by decide) ht
    · exact .symbol (by decide) ht
  cases h with
  | whole hmem hdigits _ =>
      rw [List.append_assoc]
      exact hsign _ hmem (legible_digits_append hdigits hrest)
  | @fraction sign digits decimals hmem hdigits hdecimals hne =>
      cases decimals with
      | nil => exact absurd rfl hne
      | cons d decimals =>
          obtain ⟨hd, hdecimals⟩ := List.forall_mem_cons.mp hdecimals
          have htail : Legible ('.' :: d :: (decimals ++ rest)) :=
            .point hd (legible_digits_append hdecimals hrest)
          rw [List.append_assoc, List.append_assoc]
          exact hsign _ hmem (legible_digits_append hdigits htail)

theorem WellFormed.legible_append (h : WellFormed token) (hrest : Legible rest) :
    Legible (token ++ rest) := by
  cases h with
  | reference hname => exact .reference hname hrest
  | numeral hn => exact legible_numeral_append hn hrest
  | symbol hc => exact .symbol hc hrest

theorem legible_blank_append {gap : Text} (hgap : ∀ c ∈ gap, isBlank c = true)
    (h : Legible t) : Legible (gap ++ t) := by
  induction gap with
  | nil => exact h
  | cons c gap ih =>
      obtain ⟨hc, hgap⟩ := List.forall_mem_cons.mp hgap
      exact .blank hc (ih hgap)

theorem legible_of_cut {pieces : List Piece} (hcut : Cut t pieces)
    (h : ∀ piece ∈ pieces, WellFormed piece.token) : Legible t := by
  induction hcut with
  | @nil gap hgap =>
      rw [← List.append_nil gap]
      exact legible_blank_append hgap .nil
  | cons hgap _ _ ih =>
      obtain ⟨htoken, hpieces⟩ := List.forall_mem_cons.mp h
      exact legible_blank_append hgap (htoken.legible_append (ih hpieces))

/-- The legible texts are those without a malformed token. -/
theorem legible_iff : Legible t ↔ ∀ token ∈ tokens t, WellFormed token := by
  constructor
  · intro h
    induction hn : t.length using Nat.strongRecOn generalizing t with
    | ind n ih =>
        subst hn
        cases hnext : next? t with
        | none =>
            rw [tokens_of_next?_none hnext]
            exact nofun
        | some found =>
            obtain ⟨token, rest⟩ := found
            obtain ⟨htoken, hrest⟩ := h.next? hnext
            rw [tokens_of_next?_some hnext]
            exact List.forall_mem_cons.mpr ⟨htoken, ih _ (next?_length hnext) hrest rfl⟩
  · intro h
    obtain ⟨pieces, hcut⟩ := exists_cut t
    apply legible_of_cut hcut
    intro piece hpiece
    apply h
    rw [← hcut.map_token]
    exact List.mem_map_of_mem hpiece

/-! ## Parentheses -/

theorem isTightChar_of_isParenthesis {c : Char} (hc : isParenthesis c = true) :
    isTightChar c = true := by
  simp only [isParenthesis, Bool.or_eq_true, beq_iff_eq] at hc
  rcases hc with rfl | rfl <;> decide

/-- Each occurrence of one of the five characters is a token. -/
theorem count_tokens {c : Char} (hc : isTightChar c = true) (t : Text) :
    (tokens t).count [c] = t.count c := by
  induction hn : t.length using Nat.strongRecOn generalizing t with
  | ind n ih =>
      subst hn
      by_cases hmem : c ∈ t
      · obtain ⟨before, after, rfl⟩ := List.append_of_mem hmem
        have hbefore := ih before.length (by simp) before rfl
        have hafter := ih after.length (by simp; omega) after rfl
        rw [tokens_append_tight before after hc, List.count_append, List.count_append,
          List.count_cons_self, List.count_cons_self, hbefore, hafter]
      · have htoken : [c] ∉ tokens t := by
          intro htoken
          have hflat : c ∈ (tokens t).flatten := List.mem_flatten.mpr ⟨_, htoken, by simp⟩
          rw [flatten_tokens] at hflat
          exact hmem (List.mem_filter.mp hflat).1
        rw [List.count_eq_zero.mpr htoken, List.count_eq_zero.mpr hmem]

end Tokens

end Token

/-- Out of a formula that an analysis accepts, one parenthesis is taken. Then every
evaluator refuses what is left, for its parentheses: whatever stood beside the parenthesis,
no token becomes malformed, and whatever else is wrong is not looked at. -/
theorem Evaluator.unbalanced_of_lost {e : Evaluator} {before after : Text} {c : Char}
    (hc : isParenthesis c = true) (h : ∃ p, (e.analyse (before ++ c :: after)).value = .ok p)
    (other : Evaluator) :
    (other.analyse (before ++ after)).value = .error .unbalanced ∧
    (other.evaluate (before ++ after)).value = .error .unbalanced ∧
    (other.explain (before ++ after)).value = .error .unbalanced := by
  obtain ⟨hwellFormed, hbalanced⟩ := exists_analyse_iff.mp h
  have hwhole := hbalanced.closed
  rw [Token.count_tokens rfl, Token.count_tokens rfl, List.count_append, List.count_append]
    at hwhole
  have hlegible : Token.Legible (before ++ after) := by
    rw [tokens_append_tight before after (Token.isTightChar_of_isParenthesis hc)] at hwellFormed
    obtain ⟨hbefore, hrest⟩ := List.forall_mem_append.mp hwellFormed
    obtain ⟨-, hafter⟩ := List.forall_mem_cons.mp hrest
    exact (Token.legible_iff.mpr hbefore).append (Token.legible_iff.mpr hafter)
  have hunbalanced : ¬ Token.Balanced (tokens (before ++ after)) := by
    intro hbalanced
    have hleft := hbalanced.closed
    rw [Token.count_tokens rfl, Token.count_tokens rfl, List.count_append, List.count_append]
      at hleft
    -- both totals agreed, and one of them is now less by one
    simp only [isParenthesis, Bool.or_eq_true, beq_iff_eq] at hc
    rcases hc with rfl | rfl
    · simp at hwhole
      omega
    · simp at hwhole
      omega
  have hanalyse : (other.analyse (before ++ after)).value = .error .unbalanced :=
    analyse_eq_error_iff.mpr (.inr ⟨Token.legible_iff.mp hlegible, hunbalanced, rfl⟩)
  refine ⟨hanalyse, ?_, ?_⟩
  · rw [value_evaluate, hanalyse]
    rfl
  · rw [value_explain, hanalyse]
    rfl

/-- `-(5)` without its first parenthesis is `-5)`. -/
theorem Evaluator.unbalanced_of_lost_opening :
    (∃ p, (Evaluator.empty.analyse (['-'] ++ '(' :: ['5', ')'])).value = .ok p) ∧
    ((Evaluator.mk .empty (some 0)).evaluate (['-'] ++ ['5', ')'])).value =
      .error .unbalanced := by
  have hwhole : ∃ p, (Evaluator.empty.analyse (['-'] ++ '(' :: ['5', ')'])).value = .ok p := by
    refine ⟨.ofList [.number 5, .operator .sub], ?_⟩
    decide +kernel
  exact ⟨hwhole, (unbalanced_of_lost rfl hwhole (Evaluator.mk .empty (some 0))).2.1⟩

end Reckoner
