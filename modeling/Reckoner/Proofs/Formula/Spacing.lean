import Mathlib.Logic.Relation
import Reckoner.Evaluator
import Reckoner.Proofs.Formula.Junction

/-!
# White space

Cutting a text into tokens is local. Where white space, or one of `( ) * / ^`, stands
between two texts, the tokens of the whole are those of the one text and then those of
the other, whatever the two are. So the white space of a formula means nothing beyond
that there is some, and beside one of the five characters not even that: `3 - 2` is not
`3 -2`, but how wide the gaps are is never seen in an outcome.
-/
namespace Reckoner

section Junction

variable (before after : Text)

theorem tokens_append_gap {gap : Text} (hne : gap ≠ []) (hgap : ∀ c ∈ gap, isBlank c = true) :
    tokens (before ++ gap ++ after) = tokens before ++ tokens after := by
  have hbreaks : Breaks (gap ++ after) := by
    cases gap with
    | nil => exact absurd rfl hne
    | cons c gap => exact breaks_cons (by simp [Token.isBreak, hgap c (by simp)]) _
  rw [List.append_assoc, tokens_append_of_breaks before hbreaks, tokens_blank_append hgap]

theorem tokens_append_tight {c : Char} (hc : isTightChar c = true) :
    tokens (before ++ c :: after) = tokens before ++ [c] :: tokens after := by
  have hboundary : isBoundary c = true := by simp [isBoundary, hc]
  have hbreaks := breaks_cons (Token.isBreak_of_isBoundary hboundary) after
  rw [tokens_append_of_breaks before hbreaks, tokens_cons_of_isTightChar hc]

end Junction

/-- One change to the white space of a text that leaves its tokens alone: a gap is made
wider or narrower, or white space is dropped where there need not be any. -/
inductive Respaced : Text → Text → Prop where
  | resized {before gap other after : Text} (hne : gap ≠ []) (hgap : ∀ c ∈ gap, isBlank c = true)
      (hne' : other ≠ []) (hother : ∀ c ∈ other, isBlank c = true) :
      Respaced (before ++ gap ++ after) (before ++ other ++ after)
  | front {gap t : Text} (hgap : ∀ c ∈ gap, isBlank c = true) : Respaced (gap ++ t) t
  | back {gap t : Text} (hgap : ∀ c ∈ gap, isBlank c = true) : Respaced (t ++ gap) t
  | beforeTight {before gap after : Text} {c : Char} (hc : isTightChar c = true)
      (hgap : ∀ c ∈ gap, isBlank c = true) :
      Respaced (before ++ gap ++ c :: after) (before ++ c :: after)
  | behindTight {before gap after : Text} {c : Char} (hc : isTightChar c = true)
      (hgap : ∀ c ∈ gap, isBlank c = true) :
      Respaced (before ++ c :: (gap ++ after)) (before ++ c :: after)

theorem Respaced.tokens_eq {t other : Text} (h : Respaced t other) : tokens t = tokens other := by
  cases h with
  | resized hne hgap hne' hother =>
      rw [tokens_append_gap _ _ hne hgap, tokens_append_gap _ _ hne' hother]
  | front hgap => exact tokens_blank_append hgap _
  | back hgap => exact tokens_append_blank hgap _
  | beforeTight hc hgap =>
      rw [tokens_append_tight _ _ hc, tokens_append_tight _ _ hc, tokens_append_blank hgap]
  | behindTight hc hgap =>
      rw [tokens_append_tight _ _ hc, tokens_append_tight _ _ hc, tokens_blank_append hgap]

/-- The same holds after any number of changes, made or undone. -/
theorem tokens_eq_of_eqvGen_respaced {t other : Text} (h : Relation.EqvGen Respaced t other) :
    tokens t = tokens other := by
  induction h with
  | rel t other h => exact h.tokens_eq
  | refl t => rfl
  | symm t other _ ih => exact ih.symm
  | trans t middle other _ _ ih ih' => exact ih.trans ih'

/-- White space and the five characters that need none part the tokens before them from
those behind them, in any text. So a formula keeps its outcome when a gap is made wider or
narrower, and when white space comes or goes at its ends or beside these characters. -/
theorem tokens_are_local :
    (∀ before gap after : Text, gap ≠ [] → (∀ c ∈ gap, isBlank c = true) →
      tokens (before ++ gap ++ after) = tokens before ++ tokens after) ∧
    (∀ (before after : Text) (c : Char), isTightChar c = true →
      tokens (before ++ c :: after) = tokens before ++ [c] :: tokens after) ∧
    ∀ (e : Evaluator) (formula other : Text), Relation.EqvGen Respaced formula other →
      (e.evaluate formula).value = (e.evaluate other).value :=
  ⟨fun before _ after => tokens_append_gap before after,
    fun before after _ => tokens_append_tight before after,
    fun e _ _ h => e.value_evaluate_congr (tokens_eq_of_eqvGen_respaced h)⟩

/-- A point does not reach the digits behind a gap, and `( 2` and ` (2 ` have one outcome. -/
theorem tokens_are_local_of_point :
    tokens (['1', '.'] ++ ['\t', ' '] ++ ['5']) = tokens ['1', '.'] ++ tokens ['5'] ∧
    tokens (['1', '.'] ++ '*' :: ['5']) = tokens ['1', '.'] ++ ['*'] :: tokens ['5'] ∧
    Relation.EqvGen Respaced ['(', ' ', '2'] [' ', '(', '2', ' '] ∧
    (Evaluator.empty.evaluate ['(', ' ', '2']).value =
      (Evaluator.empty.evaluate [' ', '(', '2', ' ']).value := by
  have hspace : ∀ c ∈ [' '], isBlank c = true := List.forall_mem_singleton.mpr isBlank_space
  have hgap : ∀ c ∈ ['\t', ' '], isBlank c = true :=
    List.forall_mem_cons.mpr ⟨by decide +kernel, hspace⟩
  have hinside : Respaced ['(', ' ', '2'] ['(', '2'] :=
    @Respaced.behindTight [] [' '] ['2'] '(' rfl hspace
  have hback : Respaced ['(', '2', ' '] ['(', '2'] := @Respaced.back [' '] ['(', '2'] hspace
  have hfront : Respaced [' ', '(', '2', ' '] ['(', '2', ' '] :=
    @Respaced.front [' '] ['(', '2', ' '] hspace
  have hrespaced : Relation.EqvGen Respaced ['(', ' ', '2'] [' ', '(', '2', ' '] :=
    .trans _ _ _ (.rel _ _ hinside)
      (.trans _ _ _ (.symm _ _ (.rel _ _ hback)) (.symm _ _ (.rel _ _ hfront)))
  obtain ⟨hlocal, htight, hevaluate⟩ := tokens_are_local
  exact ⟨hlocal _ _ _ (by simp) hgap, htight _ _ _ rfl, hrespaced, hevaluate _ _ _ hrespaced⟩

end Reckoner
