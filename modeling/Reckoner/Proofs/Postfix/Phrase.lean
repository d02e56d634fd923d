import Reckoner.Grammar
import Reckoner.Postfix.Yard
import Reckoner.Proofs.Postfix.Word

/-!
# Phrases in the yard

The shunting yard brings a formula into the postfix order of the tree that the
grammar gives it. While the symbols of a phrase arrive, part of its tree has
already left and the rest are operators that wait on top of their group. What a
phrase may find on top of that group, and what it leaves there, depends only on
how tightly its own operators bind: that is the invariant of this file.
-/
namespace Reckoner

namespace Operator

theorem yieldsTo_of_lt {later earlier : Operator} (h : later.precedence < earlier.precedence) :
    later.yieldsTo earlier = true := by
  unfold yieldsTo
  split
  · simpa using Nat.le_of_lt h
  · simpa using h

theorem yieldsTo_of_le {later earlier : Operator} (hleft : later.associativity = .left)
    (h : later.precedence ≤ earlier.precedence) : later.yieldsTo earlier = true := by
  unfold yieldsTo
  rw [hleft]
  simpa using h

theorem not_yieldsTo_of_lt {later earlier : Operator}
    (h : earlier.precedence < later.precedence) : later.yieldsTo earlier = false := by
  unfold yieldsTo
  split
  · simpa using h
  · simpa using Nat.le_of_lt h

end Operator

namespace Phrase

/-- The least precedence of the operators that a phrase leaves waiting. An atom
leaves none. -/
def level : Phrase → Nat
  | .sum => 4
  | .product => 5
  | .power => 6
  | .atom => 7

/-- No operator of a phrase of this kind makes the group that it arrives at leave. -/
def Rests (kind : Phrase) (group : List Operator) : Prop :=
  ∀ later : Operator, kind.level ≤ later.precedence →
    ∀ top ∈ group.head?, later.yieldsTo top = false

theorem Rests.mono {kind inner : Phrase} {group : List Operator} (h : kind.Rests group)
    (hle : kind.level ≤ inner.level) : inner.Rests group :=
  fun later hlater => h later (Nat.le_trans hle hlater)

theorem rests_nil (kind : Phrase) : kind.Rests [] := by
  intro later _ top htop
  cases htop

end Phrase

/-! ## What a phrase makes of the yard -/

/-- Of the listing of a tree, a first part has left the yard `y`, and the rest are
operators of a phrase that wait on top of its group. -/
def Yard.Holds (y : Yard) (kind : Phrase) (t : Tree) (after : Yard) : Prop :=
  ∃ (emitted : List Term) (waiting : List Operator),
    after = ⟨y.output.pushAll emitted, waiting ++ y.group, y.outer⟩ ∧
    emitted ++ waiting.map Term.operator = t.terms ∧
    ∀ op ∈ waiting, kind.level ≤ op.precedence

/-- Where no operator of the phrase makes the group leave, the symbols are read
and the yard holds the tree. -/
def Phrase.ReadsAs (kind : Phrase) (symbols : List Symbol) (t : Tree) : Prop :=
  ∀ y : Yard, kind.Rests y.group → ∃ after, y.readAll symbols = .ok after ∧ y.Holds kind t after

namespace Yard

/-- Once the operators that wait leave too, the whole listing has left. -/
theorem release_pushAll {output : Postfix} {emitted : List Term} {waiting : List Operator}
    {t : Tree} (h : emitted ++ waiting.map Term.operator = t.terms) :
    release (output.pushAll emitted) waiting = output.pushAll t.terms := by
  rw [release, ← h]
  simp [Stack.pushAll]

/-- An operator that yields to all of a phrase, and to nothing before it, makes
the rest of its tree leave. -/
theorem Holds.operator {y after : Yard} {kind : Phrase} {t : Tree} {op : Operator}
    (h : y.Holds kind t after)
    (hyields : ∀ earlier : Operator, kind.level ≤ earlier.precedence → op.yieldsTo earlier = true)
    (hgroup : ∀ top ∈ y.group.head?, op.yieldsTo top = false) :
    after.operator op = ⟨y.output.pushAll t.terms, op :: y.group, y.outer⟩ := by
  obtain ⟨emitted, waiting, rfl, hterms, hlevel⟩ := h
  have hwaiting : ∀ earlier ∈ waiting, op.yieldsTo earlier = true := fun earlier hmem =>
    hyields earlier (hlevel earlier hmem)
  simp only [Yard.operator, takeWhile_run hwaiting hgroup, dropWhile_run hwaiting hgroup,
    release_pushAll hterms]

end Yard

namespace Phrase.ReadsAs

theorem number (v : Float) : ReadsAs .atom [.number v] (.number v) := by
  intro y _
  exact ⟨_, rfl, [.number v], [], rfl, rfl, by simp⟩

/-- A phrase is one of every wider kind. -/
theorem mono {kind inner : Phrase} {symbols : List Symbol} {t : Tree}
    (h : inner.ReadsAs symbols t) (hle : kind.level ≤ inner.level) : kind.ReadsAs symbols t := by
  intro y hrests
  obtain ⟨after, hread, emitted, waiting, hafter, hterms, hlevel⟩ := h y (hrests.mono hle)
  exact ⟨after, hread, emitted, waiting, hafter, hterms, fun op hop =>
    Nat.le_trans hle (hlevel op hop)⟩

/-- Between parentheses a sum has a group to itself, and leaves nothing waiting. -/
theorem group {symbols : List Symbol} {t : Tree} (h : ReadsAs .sum symbols t) :
    ReadsAs .atom (.opening :: symbols ++ [.closing]) t := by
  intro y _
  -- the group of the parenthesis is empty, so no operator of the sum reaches beyond it
  obtain ⟨after, hread, emitted, waiting, rfl, hterms, -⟩ :=
    h { y with group := [], outer := y.group :: y.outer } (rests_nil _)
  refine ⟨⟨y.output.pushAll t.terms, y.group, y.outer⟩, ?read, t.terms, [], rfl, by simp, by simp⟩
  case read =>
    have hopen : y.readAll (.opening :: symbols ++ [.closing]) =
        Yard.readAll { y with group := [], outer := y.group :: y.outer } symbols >>=
          fun y => y.readAll [.closing] :=
      Yard.readAll_append _ symbols [.closing]
    rw [hopen, hread, List.append_nil, ← Yard.release_pushAll hterms]
    rfl

/-- Two phrases with an operator between them, where the operator yields to all
that the left one leaves waiting, and nothing of the right one yields to it. -/
theorem binary {kind leftKind rightKind : Phrase} {left right : List Symbol} {l r : Tree}
    {op : Operator} (hl : leftKind.ReadsAs left l) (hr : rightKind.ReadsAs right r)
    (hop : kind.level ≤ op.precedence) (hleft : kind.level ≤ leftKind.level)
    (hright : kind.level ≤ rightKind.level)
    (hyields : ∀ earlier : Operator,
      leftKind.level ≤ earlier.precedence → op.yieldsTo earlier = true)
    (hwaits : ∀ later : Operator,
      rightKind.level ≤ later.precedence → later.yieldsTo op = false) :
    kind.ReadsAs (left ++ .operator op :: right) (.node op l r) := by
  intro y hrests
  obtain ⟨middle, hreadl, hholds⟩ := hl y (hrests.mono hleft)
  -- the operator makes the left tree leave, and waits below whatever the right one leaves
  have harrives := hholds.operator hyields (hrests op hop)
  have hrests' : rightKind.Rests (op :: y.group) := by
    intro later hlater top htop
    obtain rfl := Option.some.inj htop
    exact hwaits later hlater
  obtain ⟨after, hreadr, emitted, waiting, rfl, hterms, hlevel⟩ :=
    hr ⟨y.output.pushAll l.terms, op :: y.group, y.outer⟩ hrests'
  refine ⟨⟨(y.output.pushAll l.terms).pushAll emitted, waiting ++ op :: y.group, y.outer⟩,
    ?read, l.terms ++ emitted, waiting ++ [op], ?yard, ?listing, ?levels⟩
  case read =>
    rw [Yard.readAll_append, hreadl]
    have hstep : middle.readAll (.operator op :: right) =
        Yard.readAll (middle.operator op) right := rfl
    rw [harrives] at hstep
    exact hstep.trans hreadr
  case yard => simp [Stack.pushAll]
  case listing => simp [Tree.terms, ← hterms]
  case levels =>
    intro waits hmem
    rcases List.mem_append.mp hmem with hmem | hmem
    · exact Nat.le_trans hright (hlevel waits hmem)
    · obtain rfl := List.mem_singleton.mp hmem
      exact hop

/-- A chain that is grouped on the left: its part so far, and one phrase more of the
next tighter kind. -/
theorem chain {kind next : Phrase} {left right : List Symbol} {l r : Tree} {op : Operator}
    (hl : kind.ReadsAs left l) (hr : next.ReadsAs right r) (hassoc : op.associativity = .left)
    (hop : op.precedence = kind.level) (hnext : kind.level < next.level) :
    kind.ReadsAs (left ++ .operator op :: right) (.node op l r) := by
  refine binary hl hr (Nat.le_of_eq hop.symm) (Nat.le_refl _) (Nat.le_of_lt hnext) ?yields ?waits
  case yields =>
    intro earlier hearlier
    exact Operator.yieldsTo_of_le hassoc (hop ▸ hearlier)
  case waits =>
    intro later hlater
    exact Operator.not_yieldsTo_of_lt (Nat.lt_of_lt_of_le (hop ▸ hnext) hlater)

/-- A power, which is grouped on the right. -/
theorem power {base exponent : List Symbol} {l r : Tree} (hl : ReadsAs .atom base l)
    (hr : ReadsAs .power exponent r) :
    ReadsAs .power (base ++ .operator .pow :: exponent) (.node .pow l r) := by
  refine binary hl hr (by decide) (by decide) (by decide) ?yields ?waits
  case yields =>
    intro earlier hearlier
    exact Operator.yieldsTo_of_lt hearlier
  case waits =>
    -- of the operators only another `^` binds this tightly, and it groups on the right
    intro later hlater
    cases later with
    | pow => rfl
    | add | sub | mul | div => exact absurd hlater (by decide)

end Phrase.ReadsAs

/-! ## Derivations -/

/-- Each phrase is read as the tree it is the notation of. -/
theorem Derives.readsAs {kind : Phrase} {symbols : List Symbol} {t : Tree}
    (h : Derives kind symbols t) : kind.ReadsAs symbols t := by
  induction h with
  | number v => exact .number v
  | group h ih => exact ih.group
  | ofAtom h ih => exact ih.mono (by decide)
  | power hl hr ihl ihr => exact ihl.power ihr
  | ofPower h ih => exact ih.mono (by decide)
  | product hop hl hr ihl ihr =>
      rcases hop with rfl | rfl <;> exact ihl.chain ihr rfl rfl (by decide)
  | ofProduct h ih => exact ih.mono (by decide)
  | sum hop hl hr ihl ihr =>
      rcases hop with rfl | rfl <;> exact ihl.chain ihr rfl rfl (by decide)

theorem Postfix.ofSymbols_of_derives {symbols : List Symbol} {t : Tree}
    (h : Derives .sum symbols t) : Postfix.ofSymbols symbols = .ok (.ofList t.terms) := by
  obtain ⟨after, hread, emitted, waiting, rfl, hterms, -⟩ :=
    h.readsAs Yard.empty (Phrase.rests_nil .sum)
  have hlist : Stack.empty.pushAll t.terms = .ofList t.terms := by
    simp [Stack.pushAll, Stack.ofList, Stack.empty]
  unfold Postfix.ofSymbols
  rw [hread, ← hlist, ← Yard.release_pushAll hterms]
  simp [Yard.finish, Yard.empty, bind, Except.bind]

/-- A formula is the notation of one tree only. -/
theorem Derives.tree_unique {symbols : List Symbol} {s t : Tree} (hs : Derives .sum symbols s)
    (ht : Derives .sum symbols t) : s = t := by
  have hlists : Except.ok (Stack.ofList s.terms) = Except.ok (Stack.ofList t.terms) :=
    (Postfix.ofSymbols_of_derives hs).symm.trans (Postfix.ofSymbols_of_derives ht)
  have hterms := congrArg Stack.toList (Except.ok.inj hlists)
  exact Tree.eq_of_terms_eq (by simpa using hterms)

/-- The yard brings every formula of the grammar into postfix order: what comes out,
from the bottom to the top, lists the tree of the formula, and its root is on top. -/
theorem Postfix.ofSymbols_lists_tree {symbols : List Symbol} {t : Tree}
    (h : Derives .sum symbols t) :
    ∃ p, Postfix.ofSymbols symbols = .ok p ∧ p.toList = t.terms ∧ p.top? = some t.root := by
  refine ⟨.ofList t.terms, ofSymbols_of_derives h, Stack.toList_ofList _, ?_⟩
  rw [Stack.top?_eq_getLast?, Stack.toList_ofList, Tree.getLast?_terms]

/-- Both kinds of chain, and parentheses around a number: `8 - 4 - 2 ^ (3) ^ 2`. -/
theorem Postfix.ofSymbols_lists_tree_of_chains :
    Derives .sum
      [.number 8, .operator .sub, .number 4, .operator .sub, .number 2, .operator .pow,
        .opening, .number 3, .closing, .operator .pow, .number 2]
      (.node .sub (.node .sub (.number 8) (.number 4))
        (.node .pow (.number 2) (.node .pow (.number 3) (.number 2)))) ∧
    ∃ p, Postfix.ofSymbols
        [.number 8, .operator .sub, .number 4, .operator .sub, .number 2, .operator .pow,
          .opening, .number 3, .closing, .operator .pow, .number 2] = .ok p ∧
      p.toList = [.number 8, .number 4, .operator .sub, .number 2, .number 3, .number 2,
        .operator .pow, .operator .pow, .operator .sub] ∧
      p.top? = some (.operator .sub) := by
  have hleft := Derives.sum (.inr rfl) (.of_number 8 .sum) (.of_number 4 .product)
  have hsquare := Derives.power (.group (.of_number 3 .sum)) (.of_number 2 .power)
  have hright := Derives.power (.number 2) hsquare
  have hderives := Derives.sum (.inr rfl) hleft (.ofPower hright)
  exact ⟨hderives, ofSymbols_lists_tree hderives⟩

end Reckoner
