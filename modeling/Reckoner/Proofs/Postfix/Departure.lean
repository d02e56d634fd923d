import Mathlib.Data.List.Basic
import Reckoner.Proofs.Postfix.Accepted
import Reckoner.Proofs.Postfix.Word

/-!
# The order in which terms leave

The yard holds back operators and nothing else. To tell equal operators apart, each
term is followed here together with the place of its symbol in the formula: a yard that
keeps the places does what the yard does, and puts out the places in the order in which
the terms leave. Each place of a number or an operator comes out once, and no number
comes out behind something that was read later. So the numbers keep their order, and an
operator is only ever delayed.
-/
namespace Reckoner

/-- The term that a symbol becomes, with the place of the symbol. -/
def Symbol.placed? (s : Symbol × Nat) : Option (Term × Nat) := s.1.term?.map fun term => (term, s.2)

/-- A yard that keeps the place of each term. What has left is listed in the order of
leaving. -/
structure TrackedYard where
  output : List (Term × Nat)
  group : List (Operator × Nat)
  outer : List (List (Operator × Nat))

namespace TrackedYard

def empty : TrackedYard := ⟨[], [], []⟩

/-- Without the places, it is a yard. -/
def yard (t : TrackedYard) : Yard where
  output := .ofList (t.output.map Prod.fst)
  group := t.group.map Prod.fst
  outer := t.outer.map (List.map Prod.fst)

def term (op : Operator × Nat) : Term × Nat := (.operator op.1, op.2)

def release (output : List (Term × Nat)) (ops : List (Operator × Nat)) : List (Term × Nat) :=
  output ++ ops.map term

def operator (t : TrackedYard) (op : Operator) (place : Nat) : TrackedYard :=
  { t with
    output := release t.output (t.group.takeWhile fun earlier => op.yieldsTo earlier.1)
    group := (op, place) :: t.group.dropWhile fun earlier => op.yieldsTo earlier.1 }

def close (t : TrackedYard) : Except Failure TrackedYard :=
  match t.outer with
  | [] => .error .unbalanced
  | group :: outer => .ok ⟨release t.output t.group, group, outer⟩

def read (t : TrackedYard) (s : Symbol × Nat) : Except Failure TrackedYard :=
  match s.1 with
  | .number v => .ok { t with output := t.output ++ [(.number v, s.2)] }
  | .operator op => .ok (t.operator op s.2)
  | .opening => .ok { t with group := [], outer := t.group :: t.outer }
  | .closing => t.close

def readAll (t : TrackedYard) (symbols : List (Symbol × Nat)) : Except Failure TrackedYard :=
  symbols.foldlM read t

def finish (t : TrackedYard) : Except Failure (List (Term × Nat)) :=
  match t.outer with
  | [] => .ok (release t.output t.group)
  | _ :: _ => .error .unbalanced

/-- What has left, and what waits. -/
def terms (t : TrackedYard) : List (Term × Nat) :=
  t.output ++ (t.group ++ t.outer.flatten).map term

theorem readAll_cons (t : TrackedYard) (s : Symbol × Nat) (symbols : List (Symbol × Nat)) :
    t.readAll (s :: symbols) = t.read s >>= fun t => t.readAll symbols := rfl

/-! ## The places change nothing -/

theorem map_fst_release (output : List (Term × Nat)) (ops : List (Operator × Nat)) :
    Stack.ofList ((release output ops).map Prod.fst) =
      Yard.release (.ofList (output.map Prod.fst)) (ops.map Prod.fst) := by
  have hterm : Prod.fst ∘ term = Term.operator ∘ Prod.fst := rfl
  simp [release, Yard.release, Stack.pushAll_eq_ofList, hterm]

theorem yard_operator (t : TrackedYard) (op : Operator) (place : Nat) :
    (t.operator op place).yard = t.yard.operator op := by
  have htake : (t.group.map Prod.fst).takeWhile op.yieldsTo =
      (t.group.takeWhile fun earlier => op.yieldsTo earlier.1).map Prod.fst :=
    List.takeWhile_map ..
  have hdrop : (t.group.map Prod.fst).dropWhile op.yieldsTo =
      (t.group.dropWhile fun earlier => op.yieldsTo earlier.1).map Prod.fst :=
    List.dropWhile_map ..
  simp only [yard, operator, Yard.operator, htake, hdrop, map_fst_release, List.map_cons]

theorem map_yard_close (t : TrackedYard) : t.close.map yard = t.yard.close := by
  unfold close Yard.close
  cases houter : t.outer with
  | nil => simp [yard, houter, Except.map]
  | cons group outer => simp [yard, houter, Except.map, map_fst_release]

theorem map_yard_read (t : TrackedYard) (s : Symbol × Nat) :
    (t.read s).map yard = t.yard.read s.1 := by
  obtain ⟨s, place⟩ := s
  cases s with
  | number v => simp [read, Yard.read, yard, Except.map, Stack.ofList, Stack.push]
  | operator op => exact congrArg Except.ok (t.yard_operator op place)
  | opening => rfl
  | closing => exact t.map_yard_close

theorem map_yard_readAll (t : TrackedYard) (symbols : List (Symbol × Nat)) :
    (t.readAll symbols).map yard = t.yard.readAll (symbols.map Prod.fst) := by
  induction symbols generalizing t with
  | nil => rfl
  | cons s symbols ih =>
      rw [readAll_cons, List.map_cons, Yard.readAll_cons, ← map_yard_read]
      cases t.read s with
      | error failure => rfl
      | ok next => exact ih next

theorem map_finish (t : TrackedYard) :
    t.finish.map (fun order => Stack.ofList (order.map Prod.fst)) = t.yard.finish := by
  unfold finish Yard.finish
  cases houter : t.outer with
  | nil => simp [yard, houter, Except.map, map_fst_release]
  | cons group outer => simp [yard, houter, Except.map]

/-! ## One symbol -/

theorem terms_perm_of_operator (t : TrackedYard) (op : Operator) (place : Nat) :
    (t.operator op place).terms.Perm (t.terms ++ [(.operator op, place)]) := by
  have hsplit : t.terms =
      release t.output (t.group.takeWhile fun earlier => op.yieldsTo earlier.1) ++
        (t.group.dropWhile (fun earlier => op.yieldsTo earlier.1) ++ t.outer.flatten).map term := by
    rw [terms, release, List.append_assoc, ← List.map_append, ← List.append_assoc,
      List.takeWhile_append_dropWhile]
  rw [hsplit]
  -- the operator goes in between what leaves and what goes on waiting
  exact List.perm_middle.trans (List.perm_append_singleton _ _).symm

theorem terms_perm_of_read {t after : TrackedYard} {s : Symbol × Nat} (h : t.read s = .ok after) :
    after.terms.Perm (t.terms ++ (Symbol.placed? s).toList) := by
  obtain ⟨s, place⟩ := s
  cases s with
  | number v =>
      obtain rfl := Except.ok.inj h
      have hafter : terms { t with output := t.output ++ [(.number v, place)] } =
          t.output ++ (.number v, place) :: (t.group ++ t.outer.flatten).map term := by
        simp [terms]
      rw [hafter]
      exact List.perm_middle.trans (List.perm_append_singleton _ _).symm
  | operator op =>
      obtain rfl := Except.ok.inj h
      exact t.terms_perm_of_operator op place
  | opening =>
      obtain rfl := Except.ok.inj h
      simp [terms, Symbol.placed?, Symbol.term?]
  | closing =>
      cases houter : t.outer with
      | nil => simp [read, close, houter] at h
      | cons group outer =>
          simp only [read, close, houter, Except.ok.injEq] at h
          subst h
          simp [terms, release, Symbol.placed?, Symbol.term?, houter]

/-- The later of two that leave does not stand before the earlier one in the formula, if
it is a number. -/
def Keeps (earlier later : Term × Nat) : Prop := later.1.isNumber = true → earlier.2 < later.2

/-- An operator may leave behind anything. -/
theorem pairwise_release {output : List (Term × Nat)} (ops : List (Operator × Nat))
    (h : output.Pairwise Keeps) : (release output ops).Pairwise Keeps := by
  have hlast : ∀ earlier, ∀ later ∈ ops.map term, Keeps earlier later := by
    intro earlier later hlater
    obtain ⟨op, -, rfl⟩ := List.mem_map.mp hlater
    exact nofun
  apply List.pairwise_append.mpr
  refine ⟨h, ?_, fun earlier _ later hlater => hlast earlier later hlater⟩
  exact List.pairwise_of_forall_mem_list fun earlier _ later hlater => hlast earlier later hlater

/-- All that was read stands before the place, and what has left keeps its numbers in
order. -/
structure Ordered (t : TrackedYard) (place : Nat) : Prop where
  lt_of_mem : ∀ item ∈ t.terms, item.2 < place
  keeps : t.output.Pairwise Keeps

theorem ordered_empty : Ordered .empty 0 := ⟨nofun, .nil⟩

theorem Ordered.read {t after : TrackedYard} {s : Symbol} {place : Nat} (h : t.Ordered place)
    (hread : t.read (s, place) = .ok after) : after.Ordered (place + 1) := by
  constructor
  · intro item hitem
    rcases List.mem_append.mp ((terms_perm_of_read hread).mem_iff.mp hitem) with hold | hnew
    · exact Nat.lt_succ_of_lt (h.lt_of_mem item hold)
    · obtain ⟨term, -, rfl⟩ := Option.map_eq_some_iff.mp (Option.mem_toList.mp hnew)
      exact Nat.lt_succ_self place
  · cases s with
    | number v =>
        obtain rfl := Except.ok.inj hread
        apply List.pairwise_append.mpr
        refine ⟨h.keeps, List.pairwise_singleton _ _, ?_⟩
        -- whatever has left was read before
        intro earlier hearlier later hlater _
        obtain rfl := List.mem_singleton.mp hlater
        exact h.lt_of_mem earlier (List.mem_append_left _ hearlier)
    | operator op =>
        obtain rfl := Except.ok.inj hread
        exact pairwise_release _ h.keeps
    | opening =>
        obtain rfl := Except.ok.inj hread
        exact h.keeps
    | closing =>
        cases houter : t.outer with
        | nil => simp [TrackedYard.read, close, houter] at hread
        | cons group outer =>
            simp only [TrackedYard.read, close, houter, Except.ok.injEq] at hread
            subst hread
            exact pairwise_release _ h.keeps

/-! ## All the symbols -/

theorem terms_perm_of_readAll {t after : TrackedYard} {symbols : List (Symbol × Nat)}
    (h : t.readAll symbols = .ok after) :
    after.terms.Perm (t.terms ++ symbols.filterMap Symbol.placed?) := by
  induction symbols generalizing t with
  | nil =>
      obtain rfl := Except.ok.inj h
      simp
  | cons s symbols ih =>
      have hterms : (s :: symbols).filterMap Symbol.placed? =
          (Symbol.placed? s).toList ++ symbols.filterMap Symbol.placed? := by
        cases hs : Symbol.placed? s <;> simp [hs]
      obtain ⟨next, hread, hrest⟩ := bind_eq_ok_iff.mp h
      rw [hterms, ← List.append_assoc]
      exact (ih hrest).trans ((terms_perm_of_read hread).append_right _)

theorem Ordered.readAll {t after : TrackedYard} {symbols : List Symbol} {place : Nat}
    (h : t.Ordered place) (hread : t.readAll (symbols.zipIdx place) = .ok after) :
    after.Ordered (place + symbols.length) := by
  induction symbols generalizing t place with
  | nil =>
      obtain rfl := Except.ok.inj hread
      exact h
  | cons s symbols ih =>
      obtain ⟨next, hnext, hrest⟩ := bind_eq_ok_iff.mp hread
      have hafter := ih (h.read hnext) hrest
      rwa [Nat.add_assoc, Nat.add_comm 1] at hafter

theorem terms_of_finish {t : TrackedYard} {order : List (Term × Nat)} (h : t.finish = .ok order) :
    order = t.terms ∧ order = release t.output t.group := by
  cases houter : t.outer with
  | nil =>
      simp only [finish, houter, Except.ok.injEq] at h
      subst h
      simp [terms, release, houter]
  | cons group outer => simp [finish, houter] at h

end TrackedYard

namespace Postfix

/-- The terms of a formula in the order in which they leave the yard, each with the place
of its symbol. -/
def departures (symbols : List Symbol) : Except Failure (List (Term × Nat)) :=
  TrackedYard.empty.readAll symbols.zipIdx >>= TrackedYard.finish

/-- The postfix order is the order of leaving. -/
theorem map_departures (symbols : List Symbol) :
    (departures symbols).map (fun order => Stack.ofList (order.map Prod.fst)) =
      ofSymbols symbols := by
  have hyard := TrackedYard.empty.map_yard_readAll symbols.zipIdx
  rw [List.zipIdx_map_fst] at hyard
  have hempty : TrackedYard.empty.yard = Yard.empty := rfl
  rw [hempty] at hyard
  unfold departures ofSymbols
  rw [← hyard]
  cases TrackedYard.empty.readAll symbols.zipIdx with
  | error failure => rfl
  | ok t => exact t.map_finish

section Departures

variable {symbols : List Symbol} {order : List (Term × Nat)}

/-- Each number and each operator leaves once. -/
theorem departures_perm (h : departures symbols = .ok order) :
    order.Perm (symbols.zipIdx.filterMap Symbol.placed?) := by
  obtain ⟨t, hread, hfinish⟩ := bind_eq_ok_iff.mp h
  rw [(TrackedYard.terms_of_finish hfinish).1]
  exact TrackedYard.terms_perm_of_readAll hread

theorem departures_pairwise (h : departures symbols = .ok order) :
    order.Pairwise TrackedYard.Keeps := by
  obtain ⟨t, hread, hfinish⟩ := bind_eq_ok_iff.mp h
  rw [(TrackedYard.terms_of_finish hfinish).2]
  exact TrackedYard.pairwise_release _ (TrackedYard.ordered_empty.readAll hread).keeps

theorem pairwise_placed (symbols : List Symbol) :
    (symbols.zipIdx.filterMap Symbol.placed?).Pairwise fun earlier later =>
      earlier.2 < later.2 := by
  have hplaces : symbols.zipIdx.Pairwise fun earlier later => earlier.2 < later.2 := by
    apply List.pairwise_map.mp
    rw [List.zipIdx_map_snd]
    exact List.pairwise_lt_range'
  apply List.pairwise_filterMap.mpr
  refine hplaces.imp fun hlt item hitem next hnext => ?_
  obtain ⟨-, -, rfl⟩ := Option.map_eq_some_iff.mp hitem
  obtain ⟨-, -, rfl⟩ := Option.map_eq_some_iff.mp hnext
  exact hlt

/-- The numbers leave in the order in which they were read. -/
theorem filter_departures (h : departures symbols = .ok order) :
    order.filter (fun item => item.1.isNumber) =
      (symbols.zipIdx.filterMap Symbol.placed?).filter fun item => item.1.isNumber := by
  have hleft : (order.filter fun item => item.1.isNumber).Pairwise fun earlier later =>
      earlier.2 < later.2 := by
    apply List.pairwise_filter.mpr
    exact (departures_pairwise h).imp fun hkeeps _ hlater => hkeeps hlater
  apply List.Perm.eq_of_pairwise _ hleft ((pairwise_placed symbols).filter _)
    ((departures_perm h).filter _)
  intro a b _ _ hab hba
  exact absurd hba (Nat.lt_asymm hab)

/-- A number that stands before an operator leaves before it. -/
theorem mem_of_departures (h : departures symbols = .ok order) {before after : List (Term × Nat)}
    {op : Operator} {place : Nat} (hsplit : order = before ++ (.operator op, place) :: after)
    {v : Float} {earlier : Nat} (hnumber : symbols[earlier]? = some (.number v))
    (hlt : earlier < place) : (.number v, earlier) ∈ before := by
  have hplaced : (.number v, earlier) ∈ symbols.zipIdx.filterMap Symbol.placed? :=
    List.mem_filterMap.mpr ⟨(.number v, earlier), List.mem_zipIdx_iff_getElem?.mpr hnumber, rfl⟩
  have hmem := (departures_perm h).mem_iff.mpr hplaced
  have hpairwise := departures_pairwise h
  rw [hsplit] at hmem hpairwise
  rcases List.mem_append.mp hmem with hbefore | hafter
  · exact hbefore
  · -- behind the operator, the number would have to be read after it
    rcases List.mem_cons.mp hafter with heq | hafter
    · cases heq
    · have hkeeps := (List.pairwise_cons.mp (List.pairwise_append.mp hpairwise).2.1).1 _ hafter
      exact absurd (hkeeps rfl) (Nat.lt_asymm hlt)

end Departures

end Postfix

/-! ## What comes out -/

def Term.number? : Term → Option Float
  | .number v => some v
  | .operator _ => none

def Symbol.number? : Symbol → Option Float
  | .number v => some v
  | _ => none

theorem filterMap_number?_filter (items : List (Term × Nat)) :
    (items.filter fun item => item.1.isNumber).filterMap (fun item => item.1.number?) =
      (items.map Prod.fst).filterMap Term.number? := by
  rw [List.filterMap_filter, List.filterMap_map]
  apply List.filterMap_congr
  intro item _
  cases hterm : item.1 <;> simp [hterm, Term.isNumber, Term.number?]

theorem map_fst_placed (symbols : List Symbol) :
    (symbols.zipIdx.filterMap Symbol.placed?).map Prod.fst = symbols.filterMap Symbol.term? := by
  have hfst : (fun s => (Symbol.placed? s).map Prod.fst) = Symbol.term? ∘ Prod.fst := by
    funext s
    simp [Symbol.placed?, Function.comp_def]
  rw [List.map_filterMap, hfst, ← List.filterMap_map, List.zipIdx_map_fst]

namespace Postfix

variable {symbols : List Symbol} {p : Postfix}

theorem exists_departures (h : ofSymbols symbols = .ok p) :
    ∃ order, departures symbols = .ok order ∧ order.map Prod.fst = p.toList := by
  rw [← map_departures] at h
  cases horder : departures symbols with
  | error failure =>
      rw [horder] at h
      cases h
  | ok order =>
      rw [horder] at h
      obtain rfl := Except.ok.inj h
      exact ⟨order, rfl, (Stack.toList_ofList _).symm⟩

theorem filterMap_number?_toList (h : ofSymbols symbols = .ok p) :
    p.toList.filterMap Term.number? = symbols.filterMap Symbol.number? := by
  obtain ⟨order, horder, hlist⟩ := exists_departures h
  have hterm : (fun s => Symbol.term? s >>= Term.number?) = Symbol.number? := by
    funext s
    cases s <;> rfl
  rw [← hlist, ← filterMap_number?_filter, filter_departures horder, filterMap_number?_filter,
    map_fst_placed, List.filterMap_filterMap]
  exact congrArg (List.filterMap · symbols) hterm

theorem count_operator_toList (h : ofSymbols symbols = .ok p) (op : Operator) :
    p.toList.count (.operator op) = symbols.count (.operator op) := by
  rw [(toList_perm h).count_eq, List.count_filterMap]
  apply List.countP_congr
  intro s _
  cases s <;> simp [Symbol.term?]

theorem size_eq_countP (h : ofSymbols symbols = .ok p) :
    p.size = symbols.countP fun s => s != .opening && s != .closing := by
  rw [← Stack.length_toList, (toList_perm h).length_eq, List.length_filterMap_eq_countP]
  apply List.countP_congr
  intro s _
  cases s <;> simp [Symbol.term?]

/-- What the yard accepts it neither loses nor invents, well-formed or not. In postfix
order there are the same numbers in the same order, each operator as often as it was
read, and nothing else. Each term of the postfix order comes from one place of the
formula, and an operator leaves behind all the numbers that stand before it. So a value
is found only where there is one number more than operators. -/
theorem ofSymbols_conserves (h : ofSymbols symbols = .ok p) :
    p.toList.filterMap Term.number? = symbols.filterMap Symbol.number? ∧
    (∀ op, p.toList.count (.operator op) = symbols.count (.operator op)) ∧
    p.size = symbols.countP (fun s => s != .opening && s != .closing) ∧
    (∃ order, departures symbols = .ok order ∧ order.map Prod.fst = p.toList ∧
      order.Perm (symbols.zipIdx.filterMap Symbol.placed?) ∧
      ∀ before op place after, order = before ++ (.operator op, place) :: after →
        ∀ v earlier, symbols[earlier]? = some (.number v) → earlier < place →
          (.number v, earlier) ∈ before) ∧
    ∀ r v, ((Evaluator.mk r none).execute p).value = .ok v →
      symbols.countP Symbol.isNumber = symbols.countP Symbol.isOperator + 1 := by
  obtain ⟨order, horder, hlist⟩ := exists_departures h
  refine ⟨filterMap_number?_toList h, count_operator_toList h, size_eq_countP h,
    ⟨order, horder, hlist, departures_perm horder, ?delayed⟩, ?counts⟩
  case delayed =>
    intro before op place after hsplit v earlier hnumber hlt
    exact mem_of_departures horder hsplit hnumber hlt
  case counts =>
    intro r v hvalue
    rw [Evaluator.value_execute] at hvalue
    obtain ⟨t, hterms, -⟩ := replay_eq_singleton_iff.mp (resolve_eq_ok_iff.mp hvalue)
    exact countP_of_ofSymbols h hterms

/-- `+ 1 (2 *) ^ -`, where every operator lacks an operand, comes into the order
`1 2 * ^ + -`: the first operator leaves behind both numbers and two later operators. -/
theorem ofSymbols_conserves_of_lacking :
    ofSymbols [.operator .add, .number 1, .opening, .number 2, .operator .mul, .closing,
        .operator .pow, .operator .sub] =
      .ok (.ofList [.number 1, .number 2, .operator .mul, .operator .pow, .operator .add,
        .operator .sub]) ∧
    departures [.operator .add, .number 1, .opening, .number 2, .operator .mul, .closing,
        .operator .pow, .operator .sub] =
      .ok [(.number 1, 1), (.number 2, 3), (.operator .mul, 4), (.operator .pow, 6),
        (.operator .add, 0), (.operator .sub, 7)] ∧
    ∀ r v, ((Evaluator.mk r none).execute (.ofList [.number 1, .number 2, .operator .mul,
      .operator .pow, .operator .add, .operator .sub])).value ≠ .ok v := by
  have hsymbols : ofSymbols [.operator .add, .number 1, .opening, .number 2, .operator .mul,
      .closing, .operator .pow, .operator .sub] =
        .ok (.ofList [.number 1, .number 2, .operator .mul, .operator .pow, .operator .add,
          .operator .sub]) := rfl
  obtain ⟨-, -, -, -, hcounts⟩ := ofSymbols_conserves hsymbols
  refine ⟨hsymbols, rfl, fun r v hvalue => ?_⟩
  exact absurd (hcounts r v hvalue) (by decide)

end Postfix

end Reckoner
