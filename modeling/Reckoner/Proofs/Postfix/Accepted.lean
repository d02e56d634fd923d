import Reckoner.Postfix.Yard
import Reckoner.Tree

/-!
# What the yard accepts

The yard keeps one group for each parenthesis that is open, and operators that
leave never take a group with them. So it accepts exactly the symbols with
balanced parentheses, whatever stands between them. What it accepts it keeps: in
postfix order there are the same numbers and operators.
-/
namespace Reckoner

/-- No prefix closes more parentheses than it opens, and all of them are closed. -/
structure Balanced (symbols : List Symbol) : Prop where
  opened : ∀ before, before <+: symbols → before.count .closing ≤ before.count .opening
  closed : symbols.count .closing = symbols.count .opening

/-- Where `depth` parentheses are open, the symbols close these and their own. -/
def Closes : Nat → List Symbol → Prop
  | depth, [] => depth = 0
  | depth, .number _ :: symbols => Closes depth symbols
  | depth, .operator _ :: symbols => Closes depth symbols
  | depth, .opening :: symbols => Closes (depth + 1) symbols
  | 0, .closing :: _ => False
  | depth + 1, .closing :: symbols => Closes depth symbols

@[simp] theorem closes_nil (depth : Nat) : Closes depth [] ↔ depth = 0 := Iff.rfl

@[simp] theorem closes_number (depth : Nat) (v : Float) (symbols : List Symbol) :
    Closes depth (.number v :: symbols) ↔ Closes depth symbols := Iff.rfl

@[simp] theorem closes_operator (depth : Nat) (op : Operator) (symbols : List Symbol) :
    Closes depth (.operator op :: symbols) ↔ Closes depth symbols := Iff.rfl

@[simp] theorem closes_opening (depth : Nat) (symbols : List Symbol) :
    Closes depth (.opening :: symbols) ↔ Closes (depth + 1) symbols := Iff.rfl

@[simp] theorem not_closes_closing_zero (symbols : List Symbol) :
    ¬ Closes 0 (.closing :: symbols) := id

@[simp] theorem closes_closing_succ (depth : Nat) (symbols : List Symbol) :
    Closes (depth + 1) (.closing :: symbols) ↔ Closes depth symbols := Iff.rfl

/-! ## Counting -/

/-- A property of the prefixes of a list that begins with `a`. -/
theorem forall_prefix_cons {α : Type} {p : List α → Prop} {a : α} {l : List α} :
    (∀ before, before <+: a :: l → p before) ↔ p [] ∧ ∀ before, before <+: l → p (a :: before) := by
  constructor
  · intro h
    exact ⟨h [] List.nil_prefix, fun before hbefore =>
      h (a :: before) (List.cons_prefix_cons.mpr ⟨rfl, hbefore⟩)⟩
  · rintro ⟨hnil, hcons⟩ before hbefore
    rcases List.prefix_cons_iff.mp hbefore with rfl | ⟨rest, rfl, hrest⟩
    · exact hnil
    · exact hcons rest hrest

/-- What is open is closed, and no prefix closes more than is open. -/
theorem closes_iff {depth : Nat} {symbols : List Symbol} :
    Closes depth symbols ↔
      (∀ before, before <+: symbols → before.count .closing ≤ depth + before.count .opening) ∧
        symbols.count .closing = depth + symbols.count .opening := by
  induction symbols generalizing depth with
  | nil => simp; omega
  | cons s symbols ih =>
      rw [forall_prefix_cons]
      cases s with
      | number v => simp [ih]
      | operator op => simp [ih]
      | opening => simp [ih, Nat.add_right_comm, ← Nat.add_assoc]
      | closing =>
          cases depth with
          | zero =>
              -- the first symbol alone is a prefix that closes too many
              refine iff_of_false id fun h => ?_
              have hfirst := h.1.2 [] List.nil_prefix
              simp at hfirst
          | succ depth => simp [ih, Nat.add_right_comm]

theorem balanced_iff_closes {symbols : List Symbol} : Balanced symbols ↔ Closes 0 symbols := by
  rw [closes_iff]
  constructor
  · rintro ⟨hopened, hclosed⟩
    simpa using ⟨hopened, hclosed⟩
  · rintro ⟨hopened, hclosed⟩
    exact ⟨by simpa using hopened, by simpa using hclosed⟩

/-! ## Acceptance -/

/-- From any yard on, the symbols are accepted exactly if they close its groups. -/
theorem Yard.exists_finish_iff (y : Yard) (symbols : List Symbol) :
    (∃ p, y.readAll symbols >>= finish = .ok p) ↔ Closes y.outer.length symbols := by
  induction symbols generalizing y with
  | nil =>
      rw [closes_nil, List.length_eq_zero_iff]
      change (∃ p, y.finish = .ok p) ↔ _
      unfold finish
      cases y.outer with
      | nil => simp
      | cons group outer => simp
  | cons s symbols ih =>
      rw [readAll_cons]
      cases s with
      | number v => exact ih _
      | operator op => exact ih (y.operator op)
      | opening => exact ih _
      | closing =>
          cases houter : y.outer with
          | nil =>
              have hclose : y.read .closing = .error .unbalanced := by simp [read, close, houter]
              rw [hclose]
              simp [bind, Except.bind]
          | cons group outer =>
              have hclose : y.read .closing = .ok ⟨release y.output y.group, group, outer⟩ := by
                simp [read, close, houter]
              rw [hclose]
              exact ih _

theorem Postfix.exists_ofSymbols_iff {symbols : List Symbol} :
    (∃ p, ofSymbols symbols = .ok p) ↔ Balanced symbols := by
  rw [balanced_iff_closes]
  exact Yard.empty.exists_finish_iff symbols

/-! ## Refusal -/

theorem Yard.eq_unbalanced_of_read {y : Yard} {s : Symbol} {failure : Failure}
    (h : y.read s = .error failure) : failure = .unbalanced := by
  cases s with
  | number v => cases h
  | operator op => cases h
  | opening => cases h
  | closing =>
      cases houter : y.outer with
      | nil =>
          simp only [read, close, houter, Except.error.injEq] at h
          exact h.symm
      | cons group outer => simp [read, close, houter] at h

theorem Yard.eq_unbalanced_of_readAll {y : Yard} {symbols : List Symbol} {failure : Failure}
    (h : y.readAll symbols = .error failure) : failure = .unbalanced := by
  induction symbols generalizing y with
  | nil => cases h
  | cons s symbols ih =>
      rw [readAll_cons] at h
      rcases bind_eq_error_iff.mp h with h | ⟨next, -, h⟩
      · exact eq_unbalanced_of_read h
      · exact ih h

theorem Yard.eq_unbalanced_of_finish {y : Yard} {failure : Failure}
    (h : y.finish = .error failure) : failure = .unbalanced := by
  unfold finish at h
  split at h
  · cases h
  · exact (Except.error.inj h).symm

/-- What is refused has parentheses that do not balance, and is refused for that. -/
theorem Postfix.ofSymbols_eq_error_iff {symbols : List Symbol} {failure : Failure} :
    ofSymbols symbols = .error failure ↔ ¬ Balanced symbols ∧ failure = .unbalanced := by
  have hcause : ∀ {failure}, ofSymbols symbols = .error failure → failure = .unbalanced := by
    intro failure h
    rcases bind_eq_error_iff.mp h with h | ⟨y, -, h⟩
    · exact Yard.eq_unbalanced_of_readAll h
    · exact Yard.eq_unbalanced_of_finish h
  rw [← exists_ofSymbols_iff]
  constructor
  · intro h
    refine ⟨?_, hcause h⟩
    rintro ⟨p, hp⟩
    cases hp.symm.trans h
  · rintro ⟨hnone, rfl⟩
    cases h : ofSymbols symbols with
    | ok p => exact absurd ⟨p, h⟩ hnone
    | error cause => rw [hcause h]

/-! ## What is kept -/

/-- The term that a symbol becomes; a parenthesis becomes none. -/
def Symbol.term? : Symbol → Option Term
  | .number v => some (.number v)
  | .operator op => some (.operator op)
  | .opening | .closing => none

namespace Yard

/-- The terms that have left and the ones that wait. -/
def terms (y : Yard) : List Term :=
  y.output.toList ++ (y.group ++ y.outer.flatten).map Term.operator

/-- A term within a list may as well stand at its end. -/
theorem append_cons_perm (terms more : List Term) (term : Term) :
    (terms ++ term :: more).Perm (terms ++ more ++ [term]) :=
  List.perm_middle.trans (List.perm_append_singleton term _).symm

theorem terms_perm_of_operator (y : Yard) (op : Operator) :
    (y.operator op).terms.Perm (y.terms ++ [.operator op]) := by
  have hgroup : y.output.toList ++ (y.group.takeWhile op.yieldsTo).map Term.operator ++
      (y.group.dropWhile op.yieldsTo ++ y.outer.flatten).map Term.operator = y.terms := by
    rw [terms, List.append_assoc, ← List.map_append, ← List.append_assoc (List.takeWhile _ _),
      List.takeWhile_append_dropWhile]
  have hafter : (y.operator op).terms =
      y.output.toList ++ (y.group.takeWhile op.yieldsTo).map Term.operator ++
        .operator op :: (y.group.dropWhile op.yieldsTo ++ y.outer.flatten).map Term.operator := by
    simp [terms, Yard.operator]
  rw [hafter, ← hgroup]
  exact append_cons_perm _ _ _

theorem terms_perm_of_read {y after : Yard} {s : Symbol} (h : y.read s = .ok after) :
    after.terms.Perm (y.terms ++ s.term?.toList) := by
  cases s with
  | number v =>
      obtain rfl := Except.ok.inj h
      have hafter : terms { y with output := y.output.push (.number v) } =
          y.output.toList ++ .number v :: (y.group ++ y.outer.flatten).map Term.operator := by
        simp [terms]
      rw [hafter]
      exact append_cons_perm _ _ _
  | operator op =>
      obtain rfl := Except.ok.inj h
      exact y.terms_perm_of_operator op
  | opening =>
      obtain rfl := Except.ok.inj h
      simp [terms, Symbol.term?]
  | closing =>
      cases houter : y.outer with
      | nil => simp [read, close, houter] at h
      | cons group outer =>
          simp only [read, close, houter, Except.ok.injEq] at h
          subst h
          simp [terms, Symbol.term?, houter]

theorem terms_perm_of_readAll {y after : Yard} {symbols : List Symbol}
    (h : y.readAll symbols = .ok after) :
    after.terms.Perm (y.terms ++ symbols.filterMap Symbol.term?) := by
  induction symbols generalizing y with
  | nil =>
      obtain rfl := Except.ok.inj h
      simp
  | cons s symbols ih =>
      have hterms : (s :: symbols).filterMap Symbol.term? =
          s.term?.toList ++ symbols.filterMap Symbol.term? := by
        cases s <;> rfl
      obtain ⟨next, hread, hrest⟩ := bind_eq_ok_iff.mp h
      rw [hterms, ← List.append_assoc]
      exact (ih hrest).trans ((terms_perm_of_read hread).append_right _)

theorem terms_of_finish {y : Yard} {p : Postfix} (h : y.finish = .ok p) : p.toList = y.terms := by
  cases houter : y.outer with
  | nil =>
      simp only [finish, houter, Except.ok.injEq] at h
      simp [← h, terms, houter]
  | cons group outer => simp [finish, houter] at h

end Yard

/-- In postfix order stand the same terms. -/
theorem Postfix.toList_perm {symbols : List Symbol} {p : Postfix} (h : ofSymbols symbols = .ok p) :
    p.toList.Perm (symbols.filterMap Symbol.term?) := by
  obtain ⟨after, hread, hfinish⟩ := bind_eq_ok_iff.mp h
  rw [Yard.terms_of_finish hfinish]
  exact Yard.terms_perm_of_readAll hread

/-! ## Numbers and operators -/

def Term.isNumber : Term → Bool
  | .number _ => true
  | .operator _ => false

def Term.isOperator : Term → Bool
  | .number _ => false
  | .operator _ => true

def Symbol.isNumber : Symbol → Bool
  | .number _ => true
  | _ => false

def Symbol.isOperator : Symbol → Bool
  | .operator _ => true
  | _ => false

/-- A tree has one number more than operators. -/
theorem Tree.countP_terms (t : Tree) :
    t.terms.countP Term.isNumber = t.terms.countP Term.isOperator + 1 := by
  induction t with
  | number v => rfl
  | node op left right ihl ihr =>
      simp only [terms, List.countP_append, ihl, ihr, List.countP_singleton, Term.isNumber,
        Term.isOperator, if_true, Bool.false_eq_true, if_false]
      omega

/-- Symbols that a tree is listed from have one number more than operators. -/
theorem Postfix.countP_of_ofSymbols {symbols : List Symbol} {p : Postfix} {t : Tree}
    (h : ofSymbols symbols = .ok p) (hterms : p.toList = t.terms) :
    symbols.countP Symbol.isNumber = symbols.countP Symbol.isOperator + 1 := by
  have hperm := toList_perm h
  rw [hterms] at hperm
  have hnumbers : t.terms.countP Term.isNumber = symbols.countP Symbol.isNumber := by
    rw [hperm.countP_eq, List.countP_filterMap]
    refine List.countP_congr fun s _ => ?_
    cases s <;> simp [Symbol.term?, Symbol.isNumber, Term.isNumber]
  have hoperators : t.terms.countP Term.isOperator = symbols.countP Symbol.isOperator := by
    rw [hperm.countP_eq, List.countP_filterMap]
    refine List.countP_congr fun s _ => ?_
    cases s <;> simp [Symbol.term?, Symbol.isOperator, Term.isOperator]
  rw [← hnumbers, ← hoperators]
  exact t.countP_terms

end Reckoner
