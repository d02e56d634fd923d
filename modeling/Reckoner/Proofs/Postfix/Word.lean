import Reckoner.Evaluator
import Reckoner.Tree

/-!
# Words in postfix order

A *word* is a list of terms that is one whole formula in postfix order. The words
are the listings of the trees, and a list of terms ends in at most one of them.
Resolution looks for that word from the top of a stack downwards, and replay
builds its value from the bottom upwards. The last section says that they agree
on every stack, and which failure stands for which fault.
-/
namespace Reckoner

/-- The terms are one whole formula in postfix order. -/
inductive IsWord : List Term → Prop where
  | number (v : Float) : IsWord [.number v]
  | operator {left right : List Term} (op : Operator) (hl : IsWord left) (hr : IsWord right) :
      IsWord (left ++ right ++ [.operator op])

/-! ## Words and trees -/

theorem isWord_terms (t : Tree) : IsWord t.terms := by
  induction t with
  | number v => exact .number v
  | node op left right ihl ihr => exact .operator op ihl ihr

/-- The words are the listings of the trees. -/
theorem isWord_iff {terms : List Term} : IsWord terms ↔ ∃ t : Tree, terms = t.terms := by
  constructor
  · intro h
    induction h with
    | number v => exact ⟨.number v, rfl⟩
    | operator op hl hr ihl ihr =>
        obtain ⟨l, rfl⟩ := ihl
        obtain ⟨r, rfl⟩ := ihr
        exact ⟨.node op l r, rfl⟩
  · rintro ⟨t, rfl⟩
    exact isWord_terms t

/-! ## Resolution of a word -/

namespace Resolution

theorem exceeded?_eq_none {limit : Option Nat} {pending : List Pending}
    (h : ∀ bound ∈ limit, pending.length ≤ bound) : exceeded? limit pending = none := by
  refine Option.filter_eq_none_iff.mpr fun bound hbound => ?_
  simpa using h bound hbound

/-- An operator that the limit leaves room for waits for its right operand. -/
theorem run_operator {limit : Option Nat} {pending : List Pending} (op : Operator)
    (h : ∀ bound ∈ limit, pending.length + 1 ≤ bound) (below : List Term) :
    run limit pending (.operator op :: below) = run limit (⟨op, none⟩ :: pending) below := by
  have hroom : exceeded? limit (⟨op, none⟩ :: pending) = none := exceeded?_eq_none h
  simp [run, hroom]

/-- Where the limit leaves room for the height of a tree, its listing comes to its
value, which goes to the operators that wait. -/
theorem run_terms {limit : Option Nat} (t : Tree) (pending : List Pending)
    (h : ∀ bound ∈ limit, pending.length + t.height ≤ bound) (below : List Term) :
    run limit pending (t.terms.reverse ++ below) =
      match settle t.value pending with
      | .done v => .ok (v, below)
      | .waiting pending => run limit pending below := by
  induction t generalizing pending below with
  | number v => rfl
  | node op l r ihl ihr =>
      have hlist : (Tree.node op l r).terms.reverse ++ below =
          .operator op :: (r.terms.reverse ++ (l.terms.reverse ++ below)) := by
        simp [Tree.terms]
      -- the operator waits through both of its operands
      have hroom : ∀ bound ∈ limit,
          pending.length + 1 + l.height ≤ bound ∧ pending.length + 1 + r.height ≤ bound := by
        intro bound hbound
        have hnode := h bound hbound
        simp only [Tree.height] at hnode
        omega
      have hop : ∀ bound ∈ limit, pending.length + 1 ≤ bound := fun bound hbound =>
        Nat.le_trans (Nat.le_add_right _ _) (hroom bound hbound).1
      have hright := ihr (⟨op, none⟩ :: pending) fun bound hbound => (hroom bound hbound).2
      have hleft := ihl (⟨op, some r.value⟩ :: pending) fun bound hbound => (hroom bound hbound).1
      rw [hlist, run_operator op hop, hright]
      exact hleft below

/-- A word alone comes to the value of its tree, whatever is below it. -/
theorem run_nil_terms (t : Tree) (below : List Term) :
    run none [] (t.terms.reverse ++ below) = .ok (t.value, below) :=
  run_terms t [] (by simp) below

/-- From the top downwards there is either a word, or an operand too few for
whatever operators wait. -/
theorem exists_terms_or_missingOperand (terms : List Term) :
    (∃ (t : Tree) (below : List Term), terms = t.terms.reverse ++ below) ∨
      ∀ pending, run none pending terms = .error .missingOperand := by
  -- the left operand begins wherever the right one ends, so the induction is on the length
  induction hn : terms.length using Nat.strongRecOn generalizing terms with
  | ind n ih =>
      subst hn
      match terms with
      | [] => exact .inr fun _ => rfl
      | .number v :: below => exact .inl ⟨.number v, below, rfl⟩
      | .operator op :: rest =>
        -- the right operand comes first, and the left one behind it
        rcases ih rest.length (Nat.lt_succ_self _) rest rfl with ⟨r, rest, rfl⟩ | hright
        · have hlen : rest.length < (Term.operator op :: (r.terms.reverse ++ rest)).length := by
            rw [List.length_cons, List.length_append]
            omega
          rcases ih rest.length hlen rest rfl with ⟨l, below, rfl⟩ | hleft
          · exact .inl ⟨.node op l r, below, by simp [Tree.terms]⟩
          · refine .inr fun pending => ?_
            rw [run_operator op (by simp), run_terms r _ (by simp)]
            exact hleft _
        · refine .inr fun pending => ?_
          rw [run_operator op (by simp)]
          exact hright _

/-! ## The word at the end of a list -/

/-- At most one word stands at the top. -/
theorem below_eq_of_terms_append {s t : Tree} {below below' : List Term}
    (h : s.terms.reverse ++ below = t.terms.reverse ++ below') : below = below' := by
  have hs := run_nil_terms s below
  rw [h, run_nil_terms t below'] at hs
  exact (congrArg Prod.snd (Except.ok.inj hs)).symm

end Resolution

/-- A list of terms ends in at most one word. -/
theorem IsWord.eq_of_suffix {terms word word' : List Term} (h : IsWord word) (h' : IsWord word')
    (hs : word <:+ terms) (hs' : word' <:+ terms) : word = word' := by
  obtain ⟨s, rfl⟩ := isWord_iff.mp h
  obtain ⟨t, rfl⟩ := isWord_iff.mp h'
  obtain ⟨before, rfl⟩ := hs
  obtain ⟨before', heq⟩ := hs'
  have hrev := congrArg List.reverse heq
  simp only [List.reverse_append] at hrev
  have hbefore := List.reverse_inj.mp (Resolution.below_eq_of_terms_append hrev)
  rw [hbefore] at heq
  exact (List.append_cancel_left heq).symm

/-- A tree is known by its listing. -/
theorem Tree.eq_of_terms_eq {s t : Tree} (h : s.terms = t.terms) : s = t := by
  induction s generalizing t with
  | number v =>
      cases t with
      | number w => simpa [terms] using h
      | node op l r =>
          have hlen := congrArg List.length h
          have hl := List.length_pos_iff.mpr l.terms_ne_nil
          have hr := List.length_pos_iff.mpr r.terms_ne_nil
          simp [terms] at hlen
          omega
  | node op l r ihl ihr =>
      cases t with
      | number w =>
          have hlen := congrArg List.length h
          have hl := List.length_pos_iff.mpr l.terms_ne_nil
          have hr := List.length_pos_iff.mpr r.terms_ne_nil
          simp [terms] at hlen
          omega
      | node op' l' r' =>
          obtain ⟨hargs, hop⟩ := List.append_inj' h rfl
          -- the right operands are both the word at the end of the same list
          have hright : r.terms = r'.terms :=
            (isWord_terms r).eq_of_suffix (isWord_terms r') (List.suffix_append _ _)
              (hargs.symm ▸ List.suffix_append _ _)
          rw [hright] at hargs
          have hleft := List.append_cancel_right hargs
          have hsame : op = op' := by simpa using hop
          rw [ihl hleft, ihr hright, hsame]

/-! ## Replay -/

/-- Replay puts the terms behind those that its stack of values came from. -/
theorem exists_trees_of_replay {terms : List Term} {trees : List Tree} {stack : List Float}
    (h : replay terms (trees.map Tree.value) = some stack) :
    ∃ more : List Tree, stack = more.map Tree.value ∧
      more.reverse.flatMap Tree.terms = trees.reverse.flatMap Tree.terms ++ terms := by
  induction terms generalizing trees with
  | nil =>
      obtain rfl := Option.some.inj h
      exact ⟨trees, rfl, by simp⟩
  | cons term terms ih =>
      match term, trees with
      | .number v, trees =>
        obtain ⟨more, hstack, hterms⟩ := @ih (.number v :: trees) h
        exact ⟨more, hstack, by simp [hterms, Tree.terms]⟩
      | .operator op, r :: l :: trees =>
        -- the two trees on top become one
        obtain ⟨more, hstack, hterms⟩ := @ih (.node op l r :: trees) h
        exact ⟨more, hstack, by simp [hterms, Tree.terms]⟩
      | .operator op, [] => simp [replay] at h
      | .operator op, [t] => simp [replay] at h

/-- Replay leaves a single value on exactly the words. -/
theorem replay_eq_singleton_iff {terms : List Term} {v : Float} :
    replay terms [] = some [v] ↔ ∃ t : Tree, terms = t.terms ∧ t.value = v := by
  constructor
  · intro h
    obtain ⟨trees, hstack, hterms⟩ := @exists_trees_of_replay terms [] [v] h
    match trees with
    | [t] =>
      refine ⟨t, ?_, ?_⟩
      · simpa using hterms.symm
      · simpa using hstack.symm
    | [] => simp at hstack
    | _ :: _ :: _ => simp at hstack
  · rintro ⟨t, rfl, rfl⟩
    exact replay_terms t []

/-! ## Resolution and replay agree -/

theorem word_cases (terms : List Term) :
    (∃ t : Tree, terms = t.terms) ∨
      (∃ (before : List Term) (t : Tree), before ≠ [] ∧ terms = before ++ t.terms) ∨
        ∀ word, word <:+ terms → ¬ IsWord word := by
  by_cases h : ∃ word, word <:+ terms ∧ IsWord word
  · obtain ⟨word, ⟨before, rfl⟩, hword⟩ := h
    obtain ⟨t, rfl⟩ := isWord_iff.mp hword
    by_cases hbefore : before = []
    · exact .inl ⟨t, by simp [hbefore]⟩
    · exact .inr (.inl ⟨before, t, hbefore, rfl⟩)
  · exact .inr (.inr fun word hsuffix hword => h ⟨word, hsuffix, hword⟩)

namespace Postfix

theorem topDown_eq {p : Postfix} {before : List Term} {t : Tree}
    (h : p.toList = before ++ t.terms) :
    p.topDown = t.terms.reverse ++ before.reverse := by
  have hrev := congrArg List.reverse h
  simpa [Stack.toList] using hrev

/-- A word is resolved to the value of its tree. -/
theorem resolve_eq_ok {p : Postfix} {t : Tree} (h : p.toList = t.terms) :
    p.resolve none = .ok t.value := by
  have htop : p.topDown = t.terms.reverse ++ ([] : List Term).reverse := topDown_eq h
  unfold resolve
  rw [htop, Resolution.run_nil_terms]
  rfl

/-- What lies below the word at the top is left over. -/
theorem resolve_eq_leftover {p : Postfix} {before : List Term} {t : Tree}
    (h : p.toList = before ++ t.terms) (hne : before ≠ []) :
    p.resolve none = .error (.leftover before.length) := by
  unfold resolve
  rw [topDown_eq h, Resolution.run_nil_terms]
  cases hbefore : before.reverse with
  | nil => exact absurd (List.reverse_eq_nil_iff.mp hbefore) hne
  | cons term rest =>
      have hlen : before.length = (term :: rest).length := by rw [← hbefore, List.length_reverse]
      rw [hlen]

/-- Without a word at the top, an operand is missing. -/
theorem resolve_eq_missingOperand {p : Postfix} (h : ∀ word, word <:+ p.toList → ¬ IsWord word) :
    p.resolve none = .error .missingOperand := by
  rcases Resolution.exists_terms_or_missingOperand p.topDown with ⟨t, below, htop⟩ | hmissing
  · refine absurd (isWord_terms t) (h t.terms ⟨below.reverse, ?_⟩)
    simp [Stack.toList, htop]
  · unfold resolve
    rw [hmissing]

/-- What a stack ends in, and the outcome that stands for it. -/
theorem resolve_cases (p : Postfix) :
    (∃ t : Tree, p.toList = t.terms ∧ p.resolve none = .ok t.value) ∨
      (∃ (before : List Term) (t : Tree), before ≠ [] ∧ p.toList = before ++ t.terms ∧
        p.resolve none = .error (.leftover before.length)) ∨
        (∀ word, word <:+ p.toList → ¬ IsWord word) ∧
          p.resolve none = .error .missingOperand := by
  rcases word_cases p.toList with ⟨t, ht⟩ | ⟨before, t, hne, ht⟩ | hnone
  · exact .inl ⟨t, ht, resolve_eq_ok ht⟩
  · exact .inr (.inl ⟨before, t, hne, ht, resolve_eq_leftover ht hne⟩)
  · exact .inr (.inr ⟨hnone, resolve_eq_missingOperand hnone⟩)

theorem resolve_eq_ok_iff {p : Postfix} {v : Float} :
    p.resolve none = .ok v ↔ replay p.toList [] = some [v] := by
  rw [replay_eq_singleton_iff]
  constructor
  · intro h
    rcases p.resolve_cases with ⟨t, ht, hvalue⟩ | ⟨before, t, -, -, hleft⟩ | ⟨-, hmissing⟩
    · exact ⟨t, ht, Except.ok.inj (hvalue.symm.trans h)⟩
    · cases hleft.symm.trans h
    · cases hmissing.symm.trans h
  · rintro ⟨t, ht, rfl⟩
    exact resolve_eq_ok ht

theorem exists_resolve_eq_ok_iff {p : Postfix} :
    (∃ v, p.resolve none = .ok v) ↔ IsWord p.toList := by
  rw [isWord_iff]
  constructor
  · rintro ⟨v, h⟩
    obtain ⟨t, ht, -⟩ := replay_eq_singleton_iff.mp (resolve_eq_ok_iff.mp h)
    exact ⟨t, ht⟩
  · rintro ⟨t, ht⟩
    exact ⟨t.value, resolve_eq_ok ht⟩

theorem resolve_eq_leftover_iff {p : Postfix} {n : Nat} :
    p.resolve none = .error (.leftover n) ↔ 0 < n ∧ IsWord (p.toList.drop n) := by
  constructor
  · intro h
    rcases p.resolve_cases with ⟨t, -, hvalue⟩ | ⟨before, t, hne, ht, hleft⟩ | ⟨-, hmissing⟩
    · cases hvalue.symm.trans h
    · obtain rfl : before.length = n := by simpa using hleft.symm.trans h
      refine ⟨List.length_pos_iff.mpr hne, ?_⟩
      rw [ht, List.drop_left]
      exact isWord_terms t
    · cases hmissing.symm.trans h
  · rintro ⟨hpos, hword⟩
    obtain ⟨t, ht⟩ := isWord_iff.mp hword
    have hsplit : p.toList = p.toList.take n ++ t.terms := by rw [← ht, List.take_append_drop]
    -- the word is not empty, so there are at least `n` terms below it
    have hlen : (p.toList.take n).length = n := by
      have hne := t.terms_ne_nil
      rw [← ht, ne_eq, List.drop_eq_nil_iff] at hne
      rw [List.length_take]
      omega
    have hne : p.toList.take n ≠ [] := List.length_pos_iff.mp (by omega)
    rw [resolve_eq_leftover hsplit hne, hlen]

theorem resolve_eq_missingOperand_iff {p : Postfix} :
    p.resolve none = .error .missingOperand ↔ ∀ word, word <:+ p.toList → ¬ IsWord word := by
  constructor
  · intro h
    rcases p.resolve_cases with ⟨t, -, hvalue⟩ | ⟨before, t, -, -, hleft⟩ | ⟨hnone, -⟩
    · cases hvalue.symm.trans h
    · cases hleft.symm.trans h
    · exact hnone
  · exact resolve_eq_missingOperand

theorem resolve_ne_tooDeep (p : Postfix) (limit : Nat) :
    p.resolve none ≠ .error (.tooDeep limit) := by
  intro h
  rcases p.resolve_cases with ⟨t, -, hvalue⟩ | ⟨before, t, -, -, hleft⟩ | ⟨-, hmissing⟩
  · cases hvalue.symm.trans h
  · cases hleft.symm.trans h
  · cases hmissing.symm.trans h

end Postfix

/-- Without a limit, executing a stack of terms is replaying it from the bottom
upwards, and each failure stands for one fault: terms below the only word at the
top, or no word there. -/
theorem Evaluator.execute_agrees_with_replay (r : Registry) (p : Postfix) :
    (∀ word word', word <:+ p.toList → word' <:+ p.toList → IsWord word → IsWord word' →
      word = word') ∧
    (∀ v, ((Evaluator.mk r none).execute p).value = .ok v ↔ replay p.toList [] = some [v]) ∧
    ((∃ v, ((Evaluator.mk r none).execute p).value = .ok v) ↔ IsWord p.toList) ∧
    (∀ n, ((Evaluator.mk r none).execute p).value = .error (.leftover n) ↔
      0 < n ∧ IsWord (p.toList.drop n)) ∧
    (((Evaluator.mk r none).execute p).value = .error .missingOperand ↔
      ∀ word, word <:+ p.toList → ¬ IsWord word) ∧
    ∀ limit, ((Evaluator.mk r none).execute p).value ≠ .error (.tooDeep limit) := by
  simp only [Evaluator.value_execute]
  refine ⟨?unique, fun v => Postfix.resolve_eq_ok_iff, Postfix.exists_resolve_eq_ok_iff,
    fun n => Postfix.resolve_eq_leftover_iff, Postfix.resolve_eq_missingOperand_iff,
    fun limit => Postfix.resolve_ne_tooDeep p limit⟩
  case unique =>
    intro word word' hs hs' hw hw'
    exact hw.eq_of_suffix hw' hs hs'

end Reckoner
