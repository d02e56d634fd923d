import Mathlib.Logic.Relation
import Mathlib.Order.Bounds.Basic
import Reckoner.Proofs.Postfix.Accepted
import Reckoner.Proofs.Postfix.Word

/-!
# Depth

How many operators wait at once while a postfix formula is resolved without a limit.
An operator that has found its right operand goes on waiting for the left one, so a
formula is as deep as its tree is high, whichever way its chains lean. A limit on the
depth is a limit on that number alone: it stops the formulas that are deeper, with or
without a value, and leaves all others as they are.
-/
namespace Reckoner

namespace Resolution

/-- A place in a resolution: the operators that wait there, and the terms still to be
read, from the top down. -/
structure Place where
  pending : List Pending
  terms : List Term

/-- A term is read, and the resolution goes on. -/
inductive Step : Place → Place → Prop where
  | operator {pending : List Pending} {below : List Term} (op : Operator) :
      Step ⟨pending, .operator op :: below⟩ ⟨⟨op, none⟩ :: pending, below⟩
  | number {v : Float} {pending next : List Pending} {below : List Term}
      (h : settle v pending = .waiting next) :
      Step ⟨pending, .number v :: below⟩ ⟨next, below⟩

/-- The resolution that begins at one place comes to the other. -/
abbrev Visits : Place → Place → Prop := Relation.ReflTransGen Step

/-- The numbers of operators that wait at the places that a resolution comes to. -/
def depths (start : Place) : Set Nat := {n | ∃ place, Visits start place ∧ place.pending.length = n}

/-- The greatest number of operators that wait at once, from a place on. -/
def peak : List Pending → List Term → Nat
  | pending, [] => pending.length
  | pending, .operator op :: below => max pending.length (peak (⟨op, none⟩ :: pending) below)
  | pending, .number v :: below =>
    match settle v pending with
    | .done _ => pending.length
    | .waiting next => max pending.length (peak next below)

theorem peak_operator (pending : List Pending) (op : Operator) (below : List Term) :
    peak pending (.operator op :: below) =
      max pending.length (peak (⟨op, none⟩ :: pending) below) := rfl

theorem peak_number_of_done {v w : Float} {pending : List Pending}
    (h : settle v pending = .done w) (below : List Term) :
    peak pending (.number v :: below) = pending.length := by
  simp only [peak, h]

theorem peak_number_of_waiting {v : Float} {pending next : List Pending}
    (h : settle v pending = .waiting next) (below : List Term) :
    peak pending (.number v :: below) = max pending.length (peak next below) := by
  simp only [peak, h]

/-! ## The peak is reached -/

theorem length_le_peak (pending : List Pending) (terms : List Term) :
    pending.length ≤ peak pending terms := by
  cases terms with
  | nil => exact Nat.le_refl _
  | cons term below =>
      cases term with
      | operator op => exact Nat.le_max_left _ _
      | number v =>
          cases h : settle v pending with
          | done w => rw [peak_number_of_done h]
          | waiting next =>
              rw [peak_number_of_waiting h]
              exact Nat.le_max_left _ _

theorem peak_le_of_step {place next : Place} (h : Step place next) :
    peak next.pending next.terms ≤ peak place.pending place.terms := by
  cases h with
  | operator op => exact Nat.le_max_right _ _
  | number h =>
      rw [peak_number_of_waiting h]
      exact Nat.le_max_right _ _

theorem peak_mem_depths (pending : List Pending) (terms : List Term) :
    peak pending terms ∈ depths ⟨pending, terms⟩ := by
  have hhere : pending.length ∈ depths ⟨pending, terms⟩ := ⟨_, .refl, rfl⟩
  induction terms generalizing pending with
  | nil => exact hhere
  | cons term below ih =>
      -- the peak is here or further on
      have hnext : ∀ next, Step ⟨pending, term :: below⟩ ⟨next, below⟩ →
          max pending.length (peak next below) ∈ depths ⟨pending, term :: below⟩ := by
        intro next hstep
        obtain ⟨place, hvisits, hplace⟩ := ih next ⟨_, .refl, rfl⟩
        rcases Nat.le_total (peak next below) pending.length with hle | hle
        · rwa [Nat.max_eq_left hle]
        · rw [Nat.max_eq_right hle]
          exact ⟨place, .head hstep hvisits, hplace⟩
      cases term with
      | operator op => exact hnext _ (.operator op)
      | number v =>
          cases h : settle v pending with
          | done w => rwa [peak_number_of_done h]
          | waiting next =>
              rw [peak_number_of_waiting h]
              exact hnext next (.number h)

theorem length_le_peak_of_visits {start place : Place} (h : Visits start place) :
    place.pending.length ≤ peak start.pending start.terms := by
  induction h using Relation.ReflTransGen.head_induction_on with
  | refl => exact length_le_peak _ _
  | head hstep _ ih => exact ih.trans (peak_le_of_step hstep)

theorem isGreatest_peak (pending : List Pending) (terms : List Term) :
    IsGreatest (depths ⟨pending, terms⟩) (peak pending terms) := by
  refine ⟨peak_mem_depths pending terms, ?_⟩
  rintro n ⟨place, hvisits, rfl⟩
  exact length_le_peak_of_visits hvisits

/-! ## Bounds on the peak -/

/-- Handing a value on takes no new operator. -/
theorem length_le_of_settle {v : Float} {pending next : List Pending}
    (h : settle v pending = .waiting next) : next.length ≤ pending.length := by
  induction pending generalizing v with
  | nil => cases h
  | cons first rest ih =>
      obtain ⟨op, right?⟩ := first
      cases right? with
      | none =>
          obtain rfl := Settled.waiting.inj h
          exact Nat.le_refl _
      | some right => exact Nat.le_succ_of_le (ih h)

/-- No more operators wait than there are. -/
theorem peak_le (pending : List Pending) (terms : List Term) :
    peak pending terms ≤ pending.length + terms.countP Term.isOperator := by
  induction terms generalizing pending with
  | nil => exact Nat.le_refl _
  | cons term below ih =>
      cases term with
      | operator op =>
          have hbelow := ih (⟨op, none⟩ :: pending)
          rw [List.length_cons] at hbelow
          rw [peak_operator, List.countP_cons_of_pos rfl]
          omega
      | number v =>
          rw [List.countP_cons_of_neg (by simp [Term.isOperator])]
          cases h : settle v pending with
          | done w =>
              rw [peak_number_of_done h]
              omega
          | waiting next =>
              have hbelow := ih next
              have hlen := length_le_of_settle h
              rw [peak_number_of_waiting h]
              omega

/-! ## The peak of a tree -/

/-- While the listing of a tree is read, its height is added to what waits already;
apart from that, its value might as well stand there. -/
theorem peak_terms (t : Tree) (pending : List Pending) (below : List Term) :
    peak pending (t.terms.reverse ++ below) =
      max (pending.length + t.height) (peak pending (.number t.value :: below)) := by
  induction t generalizing pending below with
  | number v => exact (Nat.max_eq_right (length_le_peak _ _)).symm
  | node op l r ihl ihr =>
      have hlist : (Tree.node op l r).terms.reverse ++ below =
          .operator op :: (r.terms.reverse ++ (l.terms.reverse ++ below)) := by
        simp [Tree.terms]
      -- the operator waits for its right operand, then for its left one
      have hright : settle r.value (⟨op, none⟩ :: pending) =
          .waiting (⟨op, some r.value⟩ :: pending) := rfl
      have hleft : settle l.value (⟨op, some r.value⟩ :: pending) =
          settle (Tree.node op l r).value pending := rfl
      rw [hlist, peak_operator, ihr, peak_number_of_waiting hright, ihl]
      simp only [List.length_cons, Tree.height]
      cases h : settle (Tree.node op l r).value pending with
      | done w =>
          rw [peak_number_of_done h, peak_number_of_done (hleft.trans h), List.length_cons]
          omega
      | waiting next =>
          rw [peak_number_of_waiting h, peak_number_of_waiting (hleft.trans h), List.length_cons]
          omega

/-- A word is as deep as its tree is high, whatever is below it. -/
theorem peak_nil_terms (t : Tree) (below : List Term) :
    peak [] (t.terms.reverse ++ below) = t.height := by
  have hdone : settle t.value [] = .done t.value := rfl
  rw [peak_terms, peak_number_of_done hdone]
  simp

/-! ## A limit -/

/-- The resolution without a limit goes through all the places that it comes to. -/
theorem run_of_step {place next : Place} (h : Step place next) :
    run none place.pending place.terms = run none next.pending next.terms := by
  cases h with
  | operator op => exact run_operator op (by simp) _
  | number h => simp only [run, h]

/-- A limit with room for what waits already stops exactly what rises above it. -/
theorem run_limit {limit : Nat} {pending : List Pending} (terms : List Term)
    (h : pending.length ≤ limit) :
    run (some limit) pending terms =
      if limit < peak pending terms then .error (.tooDeep limit) else run none pending terms := by
  induction terms generalizing pending with
  | nil => exact (if_neg (Nat.not_lt.mpr h)).symm
  | cons term below ih =>
      cases term with
      | operator op =>
          rw [run_of_step (.operator op), peak_operator]
          by_cases hroom : pending.length + 1 ≤ limit
          · have hpeak : limit < max pending.length (peak (⟨op, none⟩ :: pending) below) ↔
                limit < peak (⟨op, none⟩ :: pending) below := by omega
            have hnext : (⟨op, none⟩ :: pending).length ≤ limit := hroom
            rw [run_operator op (by simpa using hroom), ih hnext]
            simp only [hpeak]
          · -- the operator is one too many, and it is among those that wait next
            have hover : limit < (⟨op, none⟩ :: pending).length := Nat.not_le.mp hroom
            have hhere := length_le_peak (⟨op, none⟩ :: pending) below
            have hexceeded : exceeded? (some limit) (⟨op, none⟩ :: pending) = some limit :=
              Option.filter_eq_some_iff.mpr ⟨rfl, decide_eq_true hover⟩
            rw [if_pos (by omega)]
            simp only [run, hexceeded]
      | number v =>
          cases hsettle : settle v pending with
          | done w =>
              rw [peak_number_of_done hsettle, if_neg (Nat.not_lt.mpr h)]
              simp only [run, hsettle]
          | waiting next =>
              have hlen := length_le_of_settle hsettle
              have hpeak : limit < max pending.length (peak next below) ↔
                  limit < peak next below := by omega
              rw [run_of_step (.number hsettle), peak_number_of_waiting hsettle]
              simp only [run, hsettle, ih (hlen.trans h), hpeak]

end Resolution

/-! ## Chains -/

namespace Tree

/-- A chain grouped on the left. -/
def leftChain (first : Float) (links : List (Operator × Float)) : Tree :=
  links.foldl (fun t link => .node link.1 t (.number link.2)) (.number first)

/-- A chain grouped on the right. -/
def rightChain (links : List (Float × Operator)) (last : Float) : Tree :=
  links.foldr (fun link t => .node link.2 (.number link.1) t) (.number last)

theorem height_foldl (t : Tree) (links : List (Operator × Float)) :
    (links.foldl (fun t link => .node link.1 t (.number link.2)) t).height =
      t.height + links.length := by
  induction links generalizing t with
  | nil => rfl
  | cons link links ih =>
      rw [List.foldl_cons, ih, height, height, List.length_cons]
      omega

theorem height_leftChain (first : Float) (links : List (Operator × Float)) :
    (leftChain first links).height = links.length := by
  rw [leftChain, height_foldl, height, Nat.zero_add]

theorem height_rightChain (links : List (Float × Operator)) (last : Float) :
    (rightChain links last).height = links.length := by
  induction links with
  | nil => rfl
  | cons link links ih =>
      have hnode : rightChain (link :: links) last =
          .node link.2 (.number link.1) (rightChain links last) := rfl
      rw [hnode, height, height, ih, List.length_cons]
      omega

end Tree

/-! ## The limit of an evaluator -/

namespace Postfix

/-- How many operators wait at once, at most, while a postfix formula is resolved. -/
def depth (p : Postfix) : Nat := Resolution.peak [] p.topDown

theorem resolve_limit (p : Postfix) (limit : Nat) :
    p.resolve (some limit) =
      if limit < p.depth then .error (.tooDeep limit) else p.resolve none := by
  have hrun : Resolution.run (some limit) [] p.topDown =
      if limit < Resolution.peak [] p.topDown then .error (.tooDeep limit)
      else Resolution.run none [] p.topDown := Resolution.run_limit p.topDown (Nat.zero_le limit)
  unfold resolve depth
  by_cases h : limit < Resolution.peak [] p.topDown
  · rw [hrun, if_pos h, if_pos h]
  · rw [hrun, if_neg h, if_neg h]

theorem depth_eq_height {p : Postfix} {before : List Term} {t : Tree}
    (h : p.toList = before ++ t.terms) : p.depth = t.height := by
  rw [depth, topDown_eq h]
  exact Resolution.peak_nil_terms t before.reverse

theorem depth_le (p : Postfix) : p.depth ≤ p.toList.countP Term.isOperator := by
  have hpeak := Resolution.peak_le [] p.topDown
  rwa [List.length_nil, Nat.zero_add, ← List.countP_reverse] at hpeak

end Postfix

namespace Evaluator

theorem execute_of_depth_le (r : Registry) {p : Postfix} {limit : Nat} (h : p.depth ≤ limit) :
    (Evaluator.mk r (some limit)).execute p = (Evaluator.mk r none).execute p := by
  unfold execute
  rw [Postfix.resolve_limit, if_neg (Nat.not_lt.mpr h)]

theorem value_execute_eq_tooDeep_iff {r : Registry} {p : Postfix} {limit : Nat} :
    ((Evaluator.mk r (some limit)).execute p).value = .error (.tooDeep limit) ↔
      limit < p.depth := by
  rw [value_execute, Postfix.resolve_limit]
  constructor
  · intro h
    by_contra hdepth
    rw [if_neg hdepth] at h
    exact p.resolve_ne_tooDeep limit h
  · intro hdepth
    exact if_pos hdepth

/-- A limit stops exactly the formulas that are deeper, and leaves the outcome of the
others as it is. The depth of a formula is the height of its tree, and never more than
the number of its operators. So a higher limit keeps every value, and one that is no
less than the number of operators is no limit. -/
theorem execute_depthLimit (r : Registry) (p : Postfix) :
    ∃ depth, IsGreatest (Resolution.depths ⟨[], p.topDown⟩) depth ∧
      (∀ limit, ((Evaluator.mk r (some limit)).execute p).value = .error (.tooDeep limit) ↔
        limit < depth) ∧
      (∀ limit, depth ≤ limit →
        (Evaluator.mk r (some limit)).execute p = (Evaluator.mk r none).execute p) ∧
      (∀ before t, p.toList = before ++ Tree.terms t → depth = t.height) ∧
      (∀ before first links, p.toList = before ++ (Tree.leftChain first links).terms →
        depth = links.length) ∧
      (∀ before links last, p.toList = before ++ (Tree.rightChain links last).terms →
        depth = links.length) ∧
      depth ≤ p.toList.countP Term.isOperator ∧
      (∀ limit more v, limit ≤ more →
        ((Evaluator.mk r (some limit)).execute p).value = .ok v →
          ((Evaluator.mk r (some more)).execute p).value = .ok v) ∧
      ∀ limit, p.toList.countP Term.isOperator ≤ limit →
        (Evaluator.mk r (some limit)).execute p = (Evaluator.mk r none).execute p := by
  refine ⟨p.depth, Resolution.isGreatest_peak [] p.topDown,
    fun limit => value_execute_eq_tooDeep_iff, fun limit => execute_of_depth_le r,
    fun before t => Postfix.depth_eq_height, ?left, ?right, p.depth_le, ?higher,
    fun limit hcount => execute_of_depth_le r (p.depth_le.trans hcount)⟩
  case left =>
    intro before first links h
    rw [Postfix.depth_eq_height h, Tree.height_leftChain]
  case right =>
    intro before links last h
    rw [Postfix.depth_eq_height h, Tree.height_rightChain]
  case higher =>
    intro limit more v hle hvalue
    -- with a value, the lower limit was not exceeded, so neither limit counts
    have hdepth : p.depth ≤ limit := by
      by_contra hover
      rw [value_execute_eq_tooDeep_iff.mpr (Nat.not_le.mp hover)] at hvalue
      cases hvalue
    rw [execute_of_depth_le r (hdepth.trans hle), ← execute_of_depth_le r hdepth]
    exact hvalue

end Evaluator

end Reckoner
