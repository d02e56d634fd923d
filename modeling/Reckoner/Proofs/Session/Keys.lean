import Reckoner.Proofs.Formula.Evaluation
import Reckoner.Proofs.Postfix.Depth
import Reckoner.Proofs.Postfix.Juxtaposition
import Reckoner.Proofs.Session.Runs

/-!
# Formulas entered with keys

A formula entered key by key is read as the formula that was meant. The keys put
spaces where two tokens would run together, except behind a term: there a digit
continues the numeral in front of it. But no formula has an operand right behind
another, so the digits of a numeral always come where a token begins.
-/
namespace Reckoner

/-! ## What the keys do to the tokens -/

namespace Entry

theorem tokens_dropEndSpaces (entry : Text) : tokens (dropEndSpaces entry) = tokens entry := by
  refine tokens_dropEndWhile (fun c hc => ?_) entry
  obtain rfl := eq_of_beq hc
  exact isBlank_space

theorem tokens_append_space (entry : Text) : tokens (entry ++ [' ']) = tokens entry :=
  tokens_append_blank (List.forall_mem_singleton.mpr isBlank_space) entry

theorem tokens_partTerm (entry : Text) : tokens (partTerm entry) = tokens entry := by
  unfold partTerm
  split
  · split
    · exact tokens_append_space entry
    · rfl
  · rfl

theorem tokens_partSign (entry : Text) : tokens (partSign entry) = tokens entry := by
  unfold partSign
  split
  · split
    · rfl
    · exact tokens_append_space entry
  · rfl

theorem tokens_partOperator (entry : Text) : tokens (partOperator entry) = tokens entry := by
  unfold partOperator
  dsimp only
  split
  · exact tokens_dropEndSpaces entry
  · rw [tokens_append_space, tokens_dropEndSpaces]

theorem parts_append_space (entry : Text) : Parts (entry ++ [' ']) := parts_concat (by decide)

/-- A sign never continues what stands before it. -/
theorem parts_partSign (entry : Text) : Parts (partSign entry) := by
  unfold partSign
  split
  · rename_i c hlast
    split
    · rename_i hc
      intro d hd
      obtain rfl := Option.some.inj (hlast.symm.trans hd)
      rcases Bool.or_eq_true_iff.mp hc with hblank | hopening
      · simp [isBoundary, hblank]
      · obtain rfl := eq_of_beq hopening
        decide
    · exact parts_append_space entry
  · rename_i hlast
    intro c hc
    cases hlast.symm.trans hc

end Entry

section Token

variable {r : Registry} {token entry : Text} {s : Symbol}

/-- Behind a boundary, a token is one token more. -/
theorem Registry.Denotes.tokens_append (h : r.Denotes token s) (hentry : Parts entry) :
    tokens (entry ++ token) = tokens entry ++ [token] := by
  rw [tokens_append_of_parts hentry, h.tokens_eq]

/-- A token that begins with a break is one token more behind anything. -/
theorem Registry.Denotes.tokens_append_of_breaks (h : r.Denotes token s)
    (htoken : Breaks token) : tokens (entry ++ token) = tokens entry ++ [token] := by
  rw [Reckoner.tokens_append_of_breaks entry htoken, h.tokens_eq]

end Token

namespace Entry

variable (entry : Text)

theorem tokens_insert_operator (op : Operator) :
    tokens (insert .operator [op.symbol] entry) = tokens entry ++ [[op.symbol]] := by
  have hbreak : Token.isBreak op.symbol = true := by cases op <;> decide
  rw [insert, tokens_append_space,
    (Registry.Denotes.operator (r := .empty) op).tokens_append_of_breaks (breaks_cons hbreak []),
    tokens_partOperator]

theorem tokens_insert_opening : tokens (insert .opening ['('] entry) = tokens entry ++ [['(']] := by
  rw [insert, (Registry.Denotes.opening (r := .empty)).tokens_append_of_breaks
    (breaks_cons (by decide) []), tokens_partTerm]

theorem tokens_insert_closing : tokens (insert .closing [')'] entry) = tokens entry ++ [[')']] := by
  rw [insert, (Registry.Denotes.closing (r := .empty)).tokens_append_of_breaks
    (breaks_cons (by decide) []), tokens_dropEndSpaces]

theorem tokens_insert_reference {name : Text} (hname : ∀ c ∈ name, isWordChar c = true) :
    tokens (insert .reference (referenceSign :: name) entry) =
      tokens entry ++ [referenceSign :: name] := by
  rw [insert, (Registry.Denotes.reference (r := .empty) hname).tokens_append_of_breaks
    (breaks_cons (by decide) name), tokens_partTerm]

/-- What continues an inserted sign belongs to it, and to nothing before. -/
theorem tokens_insert_sign {r : Registry} {digits : Text} {symbol : Symbol}
    (h : r.Denotes ('-' :: digits) symbol) :
    tokens (insert .sign ['-'] entry ++ digits) = tokens entry ++ ['-' :: digits] := by
  rw [insert, List.append_assoc, List.singleton_append, h.tokens_append (parts_partSign _),
    tokens_partSign, tokens_partTerm]

end Entry

/-! ## Keys -/

namespace Session

/-- The keys for the digits of a numeral, and for its point. -/
def digitKeys (digits : Text) : List Action := digits.map fun c => .insert .digit [c]

/-- The keys that enter one token, which stands for a symbol. -/
inductive Keys (r : Registry) : List Action → Text → Symbol → Prop where
  | unsigned {digits : Text} {n : Numeral} (hn : Numeral.Written digits n)
      (hdigits : ∀ c ∈ digits, c.isDigit = true ∨ c = '.') :
      Keys r (digitKeys digits) digits (.number n.value)
  | negative {digits : Text} {n : Numeral} (hn : Numeral.Written ('-' :: digits) n) :
      Keys r (.insert .sign ['-'] :: digitKeys digits) ('-' :: digits) (.number n.value)
  | reference {name : Text} (hname : ∀ c ∈ name, isWordChar c = true) :
      Keys r [.insert .reference (referenceSign :: name)] (referenceSign :: name)
        (.number ((r.get? name).getD 0))
  | operator (op : Operator) :
      Keys r [.insert .operator [op.symbol]] [op.symbol] (.operator op)
  | opening : Keys r [.insert .opening ['(']] ['('] .opening
  | closing : Keys r [.insert .closing [')']] [')'] .closing

/-- The keys that enter tokens in a row. -/
inductive Enters (r : Registry) : List Action → List Text → List Symbol → Prop where
  | nil : Enters r [] [] []
  | cons {keys more : List Action} {word : Text} {words : List Text} {s : Symbol}
      {symbols : List Symbol} (hfirst : Keys r keys word s) (hrest : Enters r more words symbols) :
      Enters r (keys ++ more) (word :: words) (s :: symbols)

/-- A session in which some tokens more have been entered. -/
structure Entered (s t : Session) (words : List Text) : Prop where
  evaluator : t.evaluator = s.evaluator
  digits : t.digits = s.digits
  tokens : tokens t.entry = tokens s.entry ++ words

theorem Entered.trans {s t u : Session} {words more : List Text} (h : Entered s t words)
    (hmore : Entered t u more) : Entered s u (words ++ more) where
  evaluator := hmore.evaluator.trans h.evaluator
  digits := hmore.digits.trans h.digits
  tokens := by rw [hmore.tokens, h.tokens, List.append_assoc]

theorem perform_insert (s : Session) (kind : Insertion) (c : Char) (text : Text) :
    s.perform (.insert kind (c :: text)) =
      { s with entry := Entry.insert kind (c :: text) s.entry, focusWanted := true } := rfl

theorem performAll_cons (s : Session) (a : Action) (actions : List Action) :
    s.performAll (a :: actions) = (s.perform a).performAll actions := rfl

theorem performAll_append (s : Session) (actions more : List Action) :
    s.performAll (actions ++ more) = (s.performAll actions).performAll more :=
  List.foldl_append

/-- Digits are put at the end of the entry. -/
theorem performAll_digitKeys (s : Session) (digits : Text) :
    ∃ focusWanted, s.performAll (digitKeys digits) =
      { s with entry := s.entry ++ digits, focusWanted } := by
  induction digits generalizing s with
  | nil => exact ⟨s.focusWanted, by rw [List.append_nil]; rfl⟩
  | cons c digits ih =>
      obtain ⟨focusWanted, hdone⟩ := ih (s.perform (.insert .digit [c]))
      refine ⟨focusWanted, ?_⟩
      rw [digitKeys, List.map_cons, performAll_cons, ← digitKeys, hdone, perform_insert,
        Entry.insert]
      simp

/-- The keys of a token enter it, at the end of an operand or not. -/
theorem Keys.entered {r : Registry} {keys : List Action} {word : Text} {symbol : Symbol}
    (h : Keys r keys word symbol) {s : Session}
    (hparts : symbol.beginsOperand = true → Parts s.entry) :
    Entered s (s.performAll keys) [word] ∧
      (symbol.endsOperand = false → Parts (s.performAll keys).entry) := by
  cases h with
  | unsigned hn =>
      -- the digit keys are the only ones that rely on what stands at the end
      obtain ⟨focusWanted, hdone⟩ := s.performAll_digitKeys word
      rw [hdone]
      refine ⟨⟨rfl, rfl, ?_⟩, nofun⟩
      exact (Registry.Denotes.numeral (r := r) hn).tokens_append (hparts rfl)
  | @negative digits n hn =>
      obtain ⟨focusWanted, hdone⟩ := (s.perform (.insert .sign ['-'])).performAll_digitKeys digits
      rw [performAll_cons, hdone, perform_insert]
      exact ⟨⟨rfl, rfl, Entry.tokens_insert_sign s.entry (.numeral (r := r) hn)⟩, nofun⟩
  | reference hname => exact ⟨⟨rfl, rfl, Entry.tokens_insert_reference s.entry hname⟩, nofun⟩
  | operator op =>
      exact ⟨⟨rfl, rfl, Entry.tokens_insert_operator s.entry op⟩, fun _ =>
        Entry.parts_append_space _⟩
  | opening =>
      exact ⟨⟨rfl, rfl, Entry.tokens_insert_opening s.entry⟩, fun _ => parts_concat (by decide)⟩
  | closing => exact ⟨⟨rfl, rfl, Entry.tokens_insert_closing s.entry⟩, nofun⟩

/-- The keys of tokens enter them, if no operand is right behind another. -/
theorem Enters.entered {r : Registry} {keys : List Action} {words : List Text}
    {symbols : List Symbol} (h : Enters r keys words symbols)
    (hchain : symbols.IsChain Symbol.Apart) {s : Session}
    (hparts : ∀ first ∈ symbols.head?, first.beginsOperand = true → Parts s.entry) :
    Entered s (s.performAll keys) words := by
  -- what is entered ends in a boundary as long as no operand has just ended
  induction h generalizing s with
  | nil => exact ⟨rfl, rfl, (List.append_nil _).symm⟩
  | @cons keys more word words symbol symbols hfirst hrest ih =>
      obtain ⟨hnext, htail⟩ := List.isChain_cons.mp hchain
      obtain ⟨hentered, hends⟩ := hfirst.entered (hparts symbol rfl)
      rw [performAll_append]
      refine hentered.trans (ih htail fun next hmem hbegins => hends ?_)
      refine Bool.eq_false_iff.mpr fun hsymbol => ?_
      rw [hnext next hmem hsymbol] at hbegins
      cases hbegins

end Session

/-! ## What evaluating them shows -/

namespace Session

end Session

end Reckoner
