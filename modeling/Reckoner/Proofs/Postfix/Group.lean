import Reckoner.Proofs.Postfix.Accepted

/-!
# Groups in parentheses

What stands between two parentheses comes out of the yard as it would on its own,
whatever it is and wherever the parentheses stand: the yard looks neither beyond the
parenthesis that was opened last nor at what has left. So to the symbols around it a
group is what a number is, and its terms come out in the place of that number.
-/
namespace Reckoner

/-- The symbols between parentheses. -/
def grouped (symbols : List Symbol) : List Symbol := .opening :: symbols ++ [.closing]

namespace Yard

/-- The yard as a part of a larger one: what left before, and the groups around it. -/
def within (y : Yard) (below : Postfix) (around : List (List Operator)) : Yard :=
  ⟨below.pushAll y.output.toList, y.group, y.outer ++ around⟩

theorem release_within (y : Yard) (below : Postfix) (ops : List Operator) :
    release (below.pushAll y.output.toList) ops = below.pushAll (release y.output ops).toList := by
  rw [toList_release, Stack.pushAll_append]
  rfl

/-! ## The groups around -/

section Around

variable {y after : Yard} {below : Postfix} {around : List (List Operator)}

/-- What a symbol changes, it changes in the same way within any other groups. -/
theorem read_within {s : Symbol} (h : y.read s = .ok after) :
    (y.within below around).read s = .ok (after.within below around) := by
  cases s with
  | number v =>
      obtain rfl := Except.ok.inj h
      simp [read, within, Stack.pushAll_append]
  | operator op =>
      obtain rfl := Except.ok.inj h
      simp only [read, within, operator, release_within]
  | opening =>
      obtain rfl := Except.ok.inj h
      rfl
  | closing =>
      cases houter : y.outer with
      | nil => simp [read, close, houter] at h
      | cons group outer =>
          simp only [read, close, houter, Except.ok.injEq] at h
          subst h
          simp only [read, close, within, houter, List.cons_append, release_within]

theorem readAll_within {symbols : List Symbol} (h : y.readAll symbols = .ok after) :
    (y.within below around).readAll symbols = .ok (after.within below around) := by
  induction symbols generalizing y with
  | nil =>
      obtain rfl := Except.ok.inj h
      rfl
  | cons s symbols ih =>
      obtain ⟨next, hread, hrest⟩ := bind_eq_ok_iff.mp h
      rw [readAll_cons, read_within hread]
      exact ih hrest

end Around

/-- A group leaves the operators that wait as they are, and puts out what its symbols
come to on their own. -/
theorem readAll_grouped {symbols : List Symbol} {p : Postfix}
    (h : Postfix.ofSymbols symbols = .ok p) (y : Yard) :
    y.readAll (grouped symbols) = .ok { y with output := y.output.pushAll p.toList } := by
  obtain ⟨after, hread, hfinish⟩ := bind_eq_ok_iff.mp h
  -- behind the opening parenthesis the yard is an empty one within what was there before
  have hopen : y.readAll (grouped symbols) =
      (empty.within y.output (y.group :: y.outer)).readAll symbols >>= fun y =>
        y.readAll [.closing] :=
    readAll_append _ symbols [.closing]
  rw [hopen, readAll_within hread]
  change (after.within y.output (y.group :: y.outer)).readAll [.closing] = _
  rw [readAll_singleton]
  cases houter : after.outer with
  | nil =>
      simp only [finish, houter, Except.ok.injEq] at hfinish
      simp only [read, close, within, houter, List.nil_append, release_within, hfinish]
  | cons group outer => simp [finish, houter] at hfinish

/-! ## What has left -/

theorem read_within_error {y : Yard} {s : Symbol} {failure : Failure} (below : Postfix)
    (h : y.read s = .error failure) : (y.within below []).read s = .error failure := by
  cases s with
  | number v => cases h
  | operator op => cases h
  | opening => cases h
  | closing =>
      cases houter : y.outer with
      | nil => simpa [read, close, within, houter] using h
      | cons group outer => simp [read, close, houter] at h

/-- What has left has no part in what is read behind it, nor in whether it is accepted. -/
theorem readAll_within_finish (y : Yard) (below : Postfix) (symbols : List Symbol) :
    (y.within below []).readAll symbols >>= finish =
      (y.readAll symbols >>= finish).map fun p => below.pushAll p.toList := by
  induction symbols generalizing y with
  | nil =>
      change (y.within below []).finish = y.finish.map _
      unfold finish
      cases houter : y.outer with
      | nil => simp [within, houter, release_within, Except.map]
      | cons group outer => simp [within, houter, Except.map]
  | cons s symbols ih =>
      rw [readAll_cons, readAll_cons]
      cases hread : y.read s with
      | error failure =>
          rw [read_within_error below hread]
          rfl
      | ok next =>
          rw [read_within hread]
          exact ih next

/-! ## Symbols in the place of a number -/

/-- From any yard on, the symbols put out the terms, and leave all that waits as it is. -/
def Supplies (symbols : List Symbol) (terms : List Term) : Prop :=
  ∀ y : Yard, y.readAll symbols = .ok { y with output := y.output.pushAll terms }

theorem supplies_number (v : Float) : Supplies [.number v] [.number v] := fun _ => rfl

theorem Supplies.ofSymbols {symbols : List Symbol} {terms : List Term}
    (h : Supplies symbols terms) : Postfix.ofSymbols symbols = .ok (.ofList terms) := by
  unfold Postfix.ofSymbols
  rw [h, Stack.pushAll_eq_ofList]
  rfl

theorem Supplies.grouped {symbols : List Symbol} {terms : List Term}
    (h : Supplies symbols terms) : Supplies (grouped symbols) terms := by
  have hgroup := readAll_grouped h.ofSymbols
  rwa [Stack.toList_ofList] at hgroup

/-- Behind such symbols, the rest is read as if nothing had left, and comes out above the
terms. -/
theorem Supplies.readAll_append_finish {symbols : List Symbol} {terms : List Term}
    (h : Supplies symbols terms) (y : Yard) (after : List Symbol) :
    y.readAll (symbols ++ after) >>= finish =
      (readAll { y with output := .empty } after >>= finish).map fun p =>
        (y.output.pushAll terms).pushAll p.toList := by
  have hwithin : within { y with output := .empty } (y.output.pushAll terms) [] =
      { y with output := y.output.pushAll terms } := by
    simp [within]
  rw [readAll_append, h, ← readAll_within_finish, hwithin]
  rfl

end Yard

/-- Where symbols only put out terms, what comes out before and behind these depends on
the symbols around them alone, and so does whether the whole is accepted. -/
theorem Postfix.exists_ofSymbols_around (before after : List Symbol) :
    ∃ outcome : Except Failure (List Term × List Term), ∀ symbols terms,
      Yard.Supplies symbols terms → ofSymbols (before ++ symbols ++ after) =
        outcome.map fun around => .ofList (around.1 ++ terms ++ around.2) := by
  refine ⟨Yard.empty.readAll before >>= fun y =>
    (Yard.readAll { y with output := .empty } after >>= Yard.finish).map fun p =>
      (y.output.toList, p.toList), fun symbols terms hsymbols => ?_⟩
  unfold ofSymbols
  rw [List.append_assoc, Yard.readAll_append]
  cases Yard.empty.readAll before with
  | error failure => rfl
  | ok y =>
      refine (hsymbols.readAll_append_finish y after).trans ?_
      change _ = ((Yard.readAll { y with output := .empty } after >>= Yard.finish).map _).map _
      cases Yard.readAll { y with output := .empty } after >>= Yard.finish with
      | error failure => rfl
      | ok p => simp [Except.map, Stack.pushAll_eq_ofList]

/-- A group in parentheses is read like a number, wherever it stands and whatever stands
around it: what waits stays as it was, and in postfix order the terms of the group have
the place that the number would have. Parentheses around a group, or around all of the
symbols, change nothing. -/
theorem Postfix.ofSymbols_grouped {symbols : List Symbol} {p : Postfix}
    (h : ofSymbols symbols = .ok p) :
    (∀ y : Yard, y.readAll (grouped symbols) =
      .ok { y with output := y.output.pushAll p.toList }) ∧
    ofSymbols (grouped symbols) = .ok p ∧
    ∀ before after : List Symbol,
      ofSymbols (before ++ grouped (grouped symbols) ++ after) =
        ofSymbols (before ++ grouped symbols ++ after) ∧
      (ofSymbols (before ++ grouped symbols ++ after) = .error .unbalanced ∧
          (∀ v, ofSymbols (before ++ [.number v] ++ after) = .error .unbalanced) ∨
        ∃ below above,
          ofSymbols (before ++ grouped symbols ++ after) =
            .ok (.ofList (below ++ p.toList ++ above)) ∧
          ∀ v, ofSymbols (before ++ [.number v] ++ after) =
            .ok (.ofList (below ++ [.number v] ++ above))) := by
  have hgroup : Yard.Supplies (grouped symbols) p.toList := Yard.readAll_grouped h
  have hwhole : ofSymbols (grouped symbols) = .ok p := by
    rw [hgroup.ofSymbols, Stack.ofList_toList]
  refine ⟨hgroup, hwhole, fun before after => ?_⟩
  obtain ⟨outcome, houtcome⟩ := exists_ofSymbols_around before after
  have hhere := houtcome _ _ hgroup
  have hnumber := fun v => houtcome _ _ (Yard.supplies_number v)
  refine ⟨(houtcome _ _ hgroup.grouped).trans hhere.symm, ?_⟩
  cases outcome with
  | error failure =>
      obtain rfl := (ofSymbols_eq_error_iff.mp hhere).2
      exact .inl ⟨hhere, hnumber⟩
  | ok around => exact .inr ⟨around.1, around.2, hhere, hnumber⟩

/-- A group that lacks an operand, alone and within `2 * ((+ 3)) ^ 5`. -/
theorem Postfix.ofSymbols_grouped_of_lacking :
    ofSymbols [.operator .add, .number 3] = .ok (.ofList [.number 3, .operator .add]) ∧
    ofSymbols (grouped [.operator .add, .number 3]) =
      .ok (.ofList [.number 3, .operator .add]) ∧
    ofSymbols ([.number 2, .operator .mul] ++
        grouped (grouped [.operator .add, .number 3]) ++ [.operator .pow, .number 5]) =
      .ok (.ofList [.number 2, .number 3, .operator .add, .number 5, .operator .pow,
        .operator .mul]) := by
  have halone : ofSymbols [.operator .add, .number 3] =
      .ok (.ofList [.number 3, .operator .add]) := rfl
  obtain ⟨-, hgroup, hplace⟩ := ofSymbols_grouped halone
  have hdoubled := (hplace [.number 2, .operator .mul] [.operator .pow, .number 5]).1
  exact ⟨halone, hgroup, hdoubled.trans rfl⟩

end Reckoner
