import Mathlib.Data.List.Chain
import Mathlib.Logic.Relation
import Reckoner.Postfix.Yard

/-!
# The operators that wait

The yard keeps a group of operators for each parenthesis that is open, and lets operators leave
several at a time. Here the groups stand on one stack, the opening parentheses between them, and
what leaves is taken off it piece by piece, so a reading comes to more points than there are
yards. It comes to the same end.

At each of these points the operators of a group rise: each binds tighter than the one below it,
or both are powers.
-/
namespace Reckoner

/-- What waits on the stack: an operator for its right operand, or an opening parenthesis for the
closing one. -/
inductive Waiting where
  | operator (op : Operator)
  | opening
deriving DecidableEq

/-- A point of a reading. Of what waits, the latest comes first. -/
structure Yard.Point where
  output : Postfix
  stack : List Waiting
  unread : List Symbol

namespace Yard

/-- One thing is put on the stack, or taken off it, or goes past it. -/
inductive Move : Point → Point → Prop where
  | number {output : Postfix} {stack : List Waiting} {unread : List Symbol} (v : Float) :
      Move ⟨output, stack, .number v :: unread⟩ ⟨output.push (.number v), stack, unread⟩
  | opening {output : Postfix} {stack : List Waiting} {unread : List Symbol} :
      Move ⟨output, stack, .opening :: unread⟩ ⟨output, .opening :: stack, unread⟩
  | yield {output : Postfix} {stack : List Waiting} {unread : List Symbol} {op top : Operator}
      (h : op.yieldsTo top = true) :
      Move ⟨output, .operator top :: stack, .operator op :: unread⟩
        ⟨output.push (.operator top), stack, .operator op :: unread⟩
  | wait {output : Postfix} {stack : List Waiting} {unread : List Symbol} {op : Operator}
      (h : ∀ top, .operator top ∈ stack.head? → op.yieldsTo top = false) :
      Move ⟨output, stack, .operator op :: unread⟩ ⟨output, .operator op :: stack, unread⟩
  | leave {output : Postfix} {stack : List Waiting} {unread : List Symbol} {top : Operator} :
      Move ⟨output, .operator top :: stack, .closing :: unread⟩
        ⟨output.push (.operator top), stack, .closing :: unread⟩
  | close {output : Postfix} {stack : List Waiting} {unread : List Symbol} :
      Move ⟨output, .opening :: stack, .closing :: unread⟩ ⟨output, stack, unread⟩
  | last {output : Postfix} {stack : List Waiting} {top : Operator} :
      Move ⟨output, .operator top :: stack, []⟩ ⟨output.push (.operator top), stack, []⟩

abbrev Moves : Point → Point → Prop := Relation.ReflTransGen Move

/-- The reading of the symbols comes to the point. -/
abbrev Reaches (symbols : List Symbol) : Point → Prop := Moves ⟨.empty, [], symbols⟩

/-- What holds at the start and is kept by every move holds wherever a reading comes. -/
theorem holds_of_reaches {symbols : List Symbol} {p : Point} {Holds : Point → Prop}
    (hstart : Holds ⟨.empty, [], symbols⟩) (hmove : ∀ {p q}, Holds p → Move p q → Holds q)
    (h : Reaches symbols p) : Holds p := by
  induction h with
  | refl => exact hstart
  | tail _ hstep ih => exact hmove ih hstep

/-! ## The stack and the groups -/

/-- The groups on a stack, the innermost apart. -/
def groups : List Waiting → List Operator × List (List Operator)
  | [] => ([], [])
  | .operator op :: stack => (op :: (groups stack).1, (groups stack).2)
  | .opening :: stack => ([], (groups stack).1 :: (groups stack).2)

/-- The yard in which the same operators wait. -/
def ofStack (output : Postfix) (stack : List Waiting) : Yard :=
  ⟨output, (groups stack).1, (groups stack).2⟩

section OfStack

variable {output : Postfix} {stack : List Waiting} {op top : Operator}

theorem mem_head?_groups : top ∈ (groups stack).1.head? ↔ .operator top ∈ stack.head? := by
  match stack with
  | [] => simp [groups]
  | .operator op :: stack => simp [groups]
  | .opening :: stack => simp [groups]

theorem release_cons (output : Postfix) (op : Operator) (ops : List Operator) :
    release output (op :: ops) = release (output.push (.operator op)) ops :=
  Stack.pushAll_append output [.operator op] _

theorem operator_ofStack_of_yieldsTo (h : op.yieldsTo top = true) :
    (ofStack output (.operator top :: stack)).operator op =
      (ofStack (output.push (.operator top)) stack).operator op := by
  simp only [ofStack, groups, operator, List.takeWhile_cons_of_pos h,
    List.dropWhile_cons_of_pos h, release_cons]

theorem operator_ofStack_of_not_yieldsTo
    (h : ∀ top, .operator top ∈ stack.head? → op.yieldsTo top = false) :
    (ofStack output stack).operator op = ofStack output (.operator op :: stack) := by
  have hnone : ∀ earlier ∈ ([] : List Operator), op.yieldsTo earlier = true := nofun
  have htop : ∀ top ∈ (groups stack).1.head?, op.yieldsTo top = false := fun top htop =>
    h top (mem_head?_groups.mp htop)
  have htake : (groups stack).1.takeWhile op.yieldsTo = [] := takeWhile_run hnone htop
  have hdrop : (groups stack).1.dropWhile op.yieldsTo = (groups stack).1 := dropWhile_run hnone htop
  simp only [operator, ofStack, htake, hdrop]
  rfl

theorem close_ofStack_operator :
    (ofStack output (.operator top :: stack)).close =
      (ofStack (output.push (.operator top)) stack).close := by
  simp only [close, ofStack, groups, release_cons]

theorem finish_ofStack_operator :
    (ofStack output (.operator top :: stack)).finish =
      (ofStack (output.push (.operator top)) stack).finish := by
  simp only [finish, ofStack, groups, release_cons]

end OfStack

/-! ## Points and yards -/

section Reading

variable {symbols unread : List Symbol} {output : Postfix} {stack : List Waiting} {p q : Point}

/-- What comes of the yard at a point. -/
def Point.outcome (p : Point) : Except Failure Postfix :=
  (ofStack p.output p.stack).readAll p.unread >>= finish

/-- No move changes what the yard comes to. -/
theorem outcome_eq_of_move (h : Move p q) : p.outcome = q.outcome := by
  -- where an operator leaves, the symbol that it leaves for is still unread on both sides
  cases h with
  | number | opening | close => rfl
  | yield h => simp only [Point.outcome, readAll_cons, read, operator_ofStack_of_yieldsTo h]
  | wait h => simp only [Point.outcome, readAll_cons, read, operator_ofStack_of_not_yieldsTo h]; rfl
  | leave => simp only [Point.outcome, readAll_cons, read, close_ofStack_operator]
  | last => exact finish_ofStack_operator

theorem outcome_eq_of_reaches (h : Reaches symbols p) :
    p.outcome = Postfix.ofSymbols symbols := by
  have hkept : ∀ {p q : Point}, p.outcome = Postfix.ofSymbols symbols → Move p q →
      q.outcome = Postfix.ofSymbols symbols :=
    fun hp hmove => (outcome_eq_of_move hmove).symm.trans hp
  exact holds_of_reaches (by rfl) @hkept h

/-- The operators that leave at once leave one by one on the stack, and the new one waits. -/
theorem moves_operator (output : Postfix) (stack : List Waiting) (op : Operator)
    (unread : List Symbol) :
    ∃ output' stack', ofStack output' stack' = (ofStack output stack).operator op ∧
      Moves ⟨output, stack, .operator op :: unread⟩ ⟨output', stack', unread⟩ := by
  -- the stack is searched from the top as far as its operators are yielded to
  induction stack generalizing output with
  | nil =>
      have hwait : ∀ top, .operator top ∈ ([] : List Waiting).head? → op.yieldsTo top = false := by
        simp
      exact ⟨_, _, (operator_ofStack_of_not_yieldsTo hwait).symm, .single (.wait hwait)⟩
  | cons w stack ih =>
      by_cases hyields : ∃ top, w = .operator top ∧ op.yieldsTo top = true
      · obtain ⟨top, rfl, htop⟩ := hyields
        obtain ⟨output', stack', hyard, hmoves⟩ := ih (output.push (.operator top))
        exact ⟨output', stack', hyard.trans (operator_ofStack_of_yieldsTo htop).symm,
          .head (.yield htop) hmoves⟩
      · have hwait : ∀ top, .operator top ∈ (w :: stack).head? → op.yieldsTo top = false := by
          intro top htop
          exact Bool.eq_false_iff.mpr fun h => hyields ⟨top, Option.some.inj htop, h⟩
        exact ⟨_, _, (operator_ofStack_of_not_yieldsTo hwait).symm, .single (.wait hwait)⟩

theorem moves_close {y : Yard} (h : (ofStack output stack).close = .ok y) (unread : List Symbol) :
    ∃ output' stack', ofStack output' stack' = y ∧
      Moves ⟨output, stack, .closing :: unread⟩ ⟨output', stack', unread⟩ := by
  induction stack generalizing output with
  | nil => cases h
  | cons w stack ih =>
      cases w with
      | operator top =>
          rw [close_ofStack_operator] at h
          obtain ⟨output', stack', hyard, hmoves⟩ := ih h
          exact ⟨output', stack', hyard, .head .leave hmoves⟩
      | opening => exact ⟨output, stack, Except.ok.inj h, .single .close⟩

theorem moves_finish {postfixed : Postfix} (h : (ofStack output stack).finish = .ok postfixed) :
    Moves ⟨output, stack, []⟩ ⟨postfixed, [], []⟩ := by
  induction stack generalizing output with
  | nil =>
      obtain rfl := Except.ok.inj h
      exact .refl
  | cons w stack ih =>
      cases w with
      | operator top =>
          rw [finish_ofStack_operator] at h
          exact .head .last (ih h)
      | opening => cases h

theorem moves_read {y : Yard} {s : Symbol} (h : (ofStack output stack).read s = .ok y)
    (unread : List Symbol) :
    ∃ output' stack', ofStack output' stack' = y ∧
      Moves ⟨output, stack, s :: unread⟩ ⟨output', stack', unread⟩ := by
  cases s with
  | number v => exact ⟨_, stack, Except.ok.inj h, .single (.number v)⟩
  | operator op =>
      obtain rfl := Except.ok.inj h
      exact moves_operator output stack op unread
  | opening => exact ⟨output, .opening :: stack, Except.ok.inj h, .single .opening⟩
  | closing => exact moves_close h unread

/-- Every yard that a reading comes to is that of a point. -/
theorem moves_readAll {y : Yard} {read : List Symbol}
    (h : (ofStack output stack).readAll read = .ok y) (unread : List Symbol) :
    ∃ output' stack', ofStack output' stack' = y ∧
      Moves ⟨output, stack, read ++ unread⟩ ⟨output', stack', unread⟩ := by
  induction read generalizing output stack with
  | nil => exact ⟨output, stack, Except.ok.inj h, .refl⟩
  | cons s read ih =>
      obtain ⟨next, hs, hread⟩ := bind_eq_ok_iff.mp h
      obtain ⟨output', stack', rfl, hmoves⟩ := moves_read hs (read ++ unread)
      obtain ⟨output'', stack'', hyard, hrest⟩ := ih hread
      exact ⟨output'', stack'', hyard, hmoves.trans hrest⟩

/-- The stack runs empty behind the last symbol exactly where the postfix order is found. -/
theorem reaches_end_iff {postfixed : Postfix} :
    Reaches symbols ⟨postfixed, [], []⟩ ↔ Postfix.ofSymbols symbols = .ok postfixed := by
  constructor
  · intro h
    exact (outcome_eq_of_reaches h).symm
  · intro h
    obtain ⟨y, hread, hfinish⟩ := bind_eq_ok_iff.mp h
    obtain ⟨output, stack, rfl, hmoves⟩ := @moves_readAll .empty [] y symbols hread []
    rw [List.append_nil] at hmoves
    exact hmoves.trans (moves_finish hfinish)

end Reading

end Yard

/-! ## What may stand on what -/

namespace Operator

/-- An operator may wait right above the one below: it binds tighter, or both are powers. -/
def Bears (below above : Operator) : Prop :=
  below.precedence < above.precedence ∨ below = .pow ∧ above = .pow

instance : DecidableRel Bears := fun below above =>
  inferInstanceAs (Decidable (below.precedence < above.precedence ∨ below = .pow ∧ above = .pow))

theorem not_yieldsTo_iff {later earlier : Operator} :
    later.yieldsTo earlier = false ↔ earlier.Bears later := by
  cases later <;> cases earlier <;> decide

theorem precedence_le_of_bears {below above : Operator} (h : below.Bears above) :
    below.precedence ≤ above.precedence := by
  obtain hlt | ⟨rfl, rfl⟩ := h
  · exact Nat.le_of_lt hlt
  · exact Nat.le_refl _

theorem eq_pow_of_bears {below above : Operator} (h : below.Bears above)
    (heq : below.precedence = above.precedence) : below = .pow ∧ above = .pow :=
  h.resolve_left fun hlt => Nat.ne_of_lt hlt heq

/-- Above an operator of a product there are only powers. -/
theorem eq_pow_of_bears_product {below above : Operator} (h : below.Bears above)
    (hbelow : 5 ≤ below.precedence) : above = .pow := by
  obtain hlt | ⟨-, rfl⟩ := h
  · have habove : 6 ≤ above.precedence := Nat.lt_of_le_of_lt hbelow hlt
    cases above with
    | add | sub | mul | div => exact absurd habove (by decide)
    | pow => rfl
  · rfl

theorem Bears.trans {below middle above : Operator} (h : below.Bears middle)
    (h' : middle.Bears above) : below.Bears above := by
  obtain hlt | ⟨rfl, rfl⟩ := h
  · obtain hlt' | ⟨rfl, rfl⟩ := h'
    · exact .inl (Nat.lt_trans hlt hlt')
    · exact .inl hlt
  · exact h'

instance : Trans Bears Bears Bears := ⟨Bears.trans⟩

end Operator

/-- A parenthesis may stand on anything, and bears anything. -/
def Waiting.Bears : Waiting → Waiting → Prop
  | .operator below, .operator above => below.Bears above
  | _, _ => True

namespace Yard

namespace Point

variable {symbols : List Symbol} {p q : Point}

/-- The parentheses on the stack are those that were opened so far and not closed. -/
def CountsOpen (symbols : List Symbol) (p : Point) : Prop :=
  ∃ read, read ++ p.unread = symbols ∧
    p.stack.count .opening + read.count .closing = read.count .opening

/-- From the top down, each bears the one above it. -/
def Rises (p : Point) : Prop := p.stack.IsChain fun above below => below.Bears above

theorem CountsOpen.move (h : p.CountsOpen symbols) (hmove : Move p q) : q.CountsOpen symbols := by
  obtain ⟨read, hread, hcount⟩ := h
  cases hmove with
  | number v => exact ⟨read ++ [.number v], by simpa using hread, by simpa using hcount⟩
  | opening =>
      exact ⟨read ++ [.opening], by simpa using hread,
        by simpa [Nat.add_right_comm] using hcount⟩
  | @wait _ _ _ op => exact ⟨read ++ [.operator op], by simpa using hread, by simpa using hcount⟩
  | close =>
      exact ⟨read ++ [.closing], by simpa using hread,
        by simpa [Nat.add_right_comm, ← Nat.add_assoc] using hcount⟩
  | yield | leave | last => exact ⟨read, hread, by simpa using hcount⟩

theorem Rises.move (h : p.Rises) (hmove : Move p q) : q.Rises := by
  -- what is taken off leaves the rest in order, so all depends on what an operator waits on
  cases hmove with
  | number => exact h
  | opening =>
      refine List.isChain_cons.mpr ⟨fun below _ => ?_, h⟩
      cases below <;> trivial
  | wait hwait =>
      refine List.isChain_cons.mpr ⟨fun below hbelow => ?_, h⟩
      cases below with
      | operator top => exact Operator.not_yieldsTo_iff.mp (hwait top hbelow)
      | opening => trivial
  | yield | leave | close | last => exact h.tail

theorem countsOpen_of_reaches (h : Reaches symbols p) : p.CountsOpen symbols :=
  holds_of_reaches ⟨[], rfl, rfl⟩ CountsOpen.move h

theorem rises_of_reaches (h : Reaches symbols p) : p.Rises :=
  holds_of_reaches .nil Rises.move h

end Point

end Yard

/-! ## The operators of one group -/

section Group

variable {ops : List Operator}

/-- Operators in a row on the stack, from the bottom to the top. -/
theorem isChain_bears_of_row {stack : List Waiting}
    (h : stack.IsChain fun above below => below.Bears above)
    (hops : ops.map Waiting.operator <:+: stack.reverse) : ops.IsChain Operator.Bears := by
  obtain ⟨below, above, hstack⟩ := hops
  have hrise : (below ++ ops.map Waiting.operator ++ above).IsChain Waiting.Bears :=
    hstack ▸ List.isChain_reverse.mpr h
  exact (List.isChain_map Waiting.operator).mp hrise.left_of_append.right_of_append

/-- One operator of a sum at most, then one of a product at most, then powers. -/
theorem exists_layers (h : ops.Pairwise Operator.Bears) :
    ∃ (sums products : List Operator) (n : Nat),
      ops = sums ++ products ++ List.replicate n .pow ∧
      sums.length ≤ 1 ∧ (∀ op ∈ sums, op = .add ∨ op = .sub) ∧
      products.length ≤ 1 ∧ ∀ op ∈ products, op = .mul ∨ op = .div := by
  induction ops with
  | nil => exact ⟨[], [], 0, rfl, by simp⟩
  | cons op ops ih =>
      obtain ⟨hop, hops⟩ := List.pairwise_cons.mp h
      cases op with
      | add | sub =>
          -- no other operator of a sum stands above
          obtain ⟨sums, products, n, rfl, -, hsums, hproducts⟩ := ih hops
          obtain rfl : sums = [] := List.eq_nil_iff_forall_not_mem.mpr fun above habove => by
            have hbears := hop above (by simp [habove])
            rcases hsums above habove with rfl | rfl <;> exact absurd hbears (by decide)
          exact ⟨[_], products, n, rfl, by simp, by simp, hproducts⟩
      | mul | div =>
          have hpow : ∀ above ∈ ops, above = .pow := fun above habove =>
            Operator.eq_pow_of_bears_product (hop above habove) (by decide)
          exact ⟨[], [_], ops.length, by rw [← List.eq_replicate_of_mem hpow]; rfl, by simp⟩
      | pow =>
          have hpow : ∀ above ∈ ops, above = .pow := fun above habove =>
            Operator.eq_pow_of_bears_product (hop above habove) (by decide)
          refine ⟨[], [], ops.length + 1, ?_, by simp⟩
          rw [List.replicate_succ, ← List.eq_replicate_of_mem hpow]
          rfl

end Group

/-- A reading that takes one operator off the stack at a time comes to every yard and to the
postfix order. At each point of it, as many parentheses stand on the stack as were opened and not
closed so far, and the operators between two of them rise from the bottom to the top: no
precedence is less than the one below, and only powers stand on their like. So there is one
operator of a sum at most, one of a product above it at most, and powers above these. -/
theorem waiting_operators_rise (symbols : List Symbol) :
    (∀ p, Yard.Reaches symbols ⟨p, [], []⟩ ↔ Postfix.ofSymbols symbols = .ok p) ∧
    (∀ read unread y, read ++ unread = symbols → Yard.empty.readAll read = .ok y →
      ∃ output stack, Yard.ofStack output stack = y ∧
        Yard.Reaches symbols ⟨output, stack, unread⟩) ∧
    ∀ output stack unread, Yard.Reaches symbols ⟨output, stack, unread⟩ →
      (∃ read, read ++ unread = symbols ∧
        stack.count .opening + read.count .closing = read.count .opening) ∧
      ∀ ops : List Operator, ops.map Waiting.operator <:+: stack.reverse →
        ops.Pairwise (·.precedence ≤ ·.precedence) ∧
        ops.IsChain (fun below above =>
          below.precedence = above.precedence → below = .pow ∧ above = .pow) ∧
        ∃ (sums products : List Operator) (n : Nat),
          ops = sums ++ products ++ List.replicate n .pow ∧
          sums.length ≤ 1 ∧ (∀ op ∈ sums, op = .add ∨ op = .sub) ∧
          products.length ≤ 1 ∧ ∀ op ∈ products, op = .mul ∨ op = .div := by
  refine ⟨fun p => Yard.reaches_end_iff, ?yards, fun output stack unread h => ⟨?count, ?rise⟩⟩
  case yards =>
    rintro read unread y rfl hread
    exact @Yard.moves_readAll .empty [] y read hread unread
  case count => exact Yard.Point.countsOpen_of_reaches h
  case rise =>
    intro ops hops
    have hchain := isChain_bears_of_row (Yard.Point.rises_of_reaches h) hops
    have hpairwise : ops.Pairwise Operator.Bears := hchain.pairwise
    exact ⟨hpairwise.imp Operator.precedence_le_of_bears,
      hchain.imp fun _ _ => Operator.eq_pow_of_bears, exists_layers hpairwise⟩

/-- In `+ ( * ^ ^ ) )`, which is no formula, the group of the parenthesis is `* ^ ^` when the first
closing one is met. -/
theorem waiting_operators_rise_of_unbalanced :
    let read : List Symbol :=
      [.operator .add, .opening, .operator .mul, .operator .pow, .operator .pow]
    let unread : List Symbol := [.closing, .closing]
    let stack : List Waiting :=
      [.operator .pow, .operator .pow, .operator .mul, .opening, .operator .add]
    (Yard.empty.readAll read = .ok (Yard.ofStack .empty stack) ∧
      ∃ output stack', Yard.ofStack output stack' = Yard.ofStack .empty stack ∧
        Yard.Reaches (read ++ unread) ⟨output, stack', unread⟩) ∧
    (Yard.Reaches (read ++ unread) ⟨.empty, stack, unread⟩ ∧
      ∃ before, before ++ unread = read ++ unread ∧
        stack.count .opening + before.count .closing = before.count .opening) ∧
    [Operator.mul, .pow, .pow].map Waiting.operator <:+: stack.reverse ∧
      [Operator.mul, .pow, .pow].Pairwise (·.precedence ≤ ·.precedence) := by
  intro read unread stack
  have hread : Yard.empty.readAll read = .ok (Yard.ofStack .empty stack) := rfl
  have hmul : ∀ top, .operator top ∈ [Waiting.operator .mul, .opening, .operator .add].head? →
      Operator.pow.yieldsTo top = false := by
    rintro top ⟨⟩
    rfl
  have hpow : ∀ top,
      .operator top ∈ [Waiting.operator .pow, .operator .mul, .opening, .operator .add].head? →
        Operator.pow.yieldsTo top = false := by
    rintro top ⟨⟩
    rfl
  have hreach : Yard.Reaches (read ++ unread) ⟨.empty, stack, unread⟩ :=
    .head (.wait (by simp)) <| .head .opening <| .head (.wait (by simp)) <|
      .head (.wait hmul) <| .single (.wait hpow)
  have hops : [Operator.mul, .pow, .pow].map Waiting.operator <:+: stack.reverse :=
    ⟨[.operator .add, .opening], [], rfl⟩
  obtain ⟨-, hyards, hpoints⟩ := waiting_operators_rise (read ++ unread)
  obtain ⟨hcount, hrise⟩ := hpoints _ _ _ hreach
  exact ⟨⟨hread, hyards _ _ _ rfl hread⟩, ⟨hreach, hcount⟩, hops, (hrise _ hops).1⟩

end Reckoner
