import Reckoner.Proofs.Formula.Spelling

/-!
# How a text is cut

Every text is cut into pieces in exactly one way, if each piece must be as long as its
kind lets it be and free text must stop wherever something else begins. Which way that
is, is said here of the pieces and of what follows each of them, and not by a reading
from left to right. The tokens are the pieces of the only cut.
-/
namespace Reckoner

namespace Token

/-- What a token may be. -/
inductive Kind where
  | reference | numeral | symbol | free
deriving DecidableEq, Repr

/-- The token is a reference, a numeral or a symbol. -/
inductive WellFormed : Text → Prop where
  | reference {name : Text} (hname : ∀ c ∈ name, isWordChar c = true) :
      WellFormed (referenceSign :: name)
  | numeral {token : Text} {n : Numeral} (h : Numeral.Written token n) : WellFormed token
  | symbol {c : Char} (hc : isSymbolChar c = true) : WellFormed [c]

/-- The token is well-formed, and as long as its kind lets it be in front of the rest of
a text. -/
inductive Proper : Kind → Text → Text → Prop where
  | reference {name rest : Text} (hname : ∀ c ∈ name, isWordChar c = true)
      (hlongest : ∀ c ∈ rest.head?, isWordChar c = false) :
      Proper .reference (referenceSign :: name) rest
  | numeral {token rest : Text} {n : Numeral} (h : Numeral.Written token n)
      (hlongest : ∀ longer m, longer <+: token ++ rest → Numeral.Written longer m →
        longer.length ≤ token.length) :
      Proper .numeral token rest
  | symbol {c : Char} {rest : Text} (hc : isSymbolChar c = true)
      (halone : c = '-' ∨ c = '+' → ¬ Numeral.Starts rest) :
      Proper .symbol [c] rest

/-- White space begins the text, or a token that is not free text. -/
def Stops (t : Text) : Prop :=
  (∃ c ∈ t.head?, isBlank c = true) ∨ ∃ kind token rest, token ++ rest = t ∧ Proper kind token rest

/-- The token is of the kind, in front of the rest of a text. -/
inductive Fits : Kind → Text → Text → Prop where
  | proper {kind : Kind} {token rest : Text} (h : Proper kind token rest) : Fits kind token rest
  | free {token rest : Text} (hne : token ≠ [])
      (hinside : ∀ part, part <:+ token → part ≠ [] → ¬ Stops (part ++ rest))
      (hlongest : rest = [] ∨ Stops rest) : Fits .free token rest

structure Piece where
  kind : Kind
  token : Text

/-- The pieces stand in the text in a row, parted by nothing but white space. -/
inductive Cut : Text → List Piece → Prop where
  | nil {gap : Text} (hgap : ∀ c ∈ gap, isBlank c = true) : Cut gap []
  | cons {gap token rest : Text} {kind : Kind} {pieces : List Piece}
      (hgap : ∀ c ∈ gap, isBlank c = true) (htoken : Fits kind token rest)
      (hrest : Cut rest pieces) : Cut (gap ++ (token ++ rest)) (⟨kind, token⟩ :: pieces)

/-! ## References, numerals and symbols -/

theorem eq_of_isSymbolChar {c : Char} (h : isSymbolChar c = true) :
    (∃ op : Operator, c = op.symbol) ∨ c = '(' ∨ c = ')' := by
  simp only [isSymbolChar, isParenthesis, Bool.or_eq_true, beq_iff_eq,
    Option.isSome_iff_exists] at h
  rcases h with ⟨op, hop⟩ | h
  · exact .inl ⟨op, (Operator.symbol_of_ofSymbol? hop).symm⟩
  · exact .inr h

/-- A symbol continues no other token. -/
theorem not_inner_of_isSymbolChar {c : Char} (h : isSymbolChar c = true) :
    isWordChar c = false ∧ c.isDigit = false ∧ c ≠ '.' ∧ c ≠ referenceSign := by
  rcases eq_of_isSymbolChar h with ⟨op, rfl⟩ | rfl | rfl
  · cases op <;> decide +kernel
  · decide +kernel
  · decide +kernel

/-- A character of none of these classes is in no well-formed token. -/
theorem WellFormed.not_mem {token : Text} (h : WellFormed token) {c : Char}
    (hc : isWordChar c = false ∧ c.isDigit = false ∧ isSymbolChar c = false ∧ c ≠ '.' ∧
      c ≠ referenceSign) : c ∉ token := by
  intro hmem
  obtain ⟨hword, hdigit, hsymbol, hpoint, hreference⟩ := hc
  cases h with
  | reference hname =>
      rcases List.mem_cons.mp hmem with rfl | hmem
      · exact hreference rfl
      · rw [hname c hmem] at hword
        cases hword
  | numeral hn =>
      rcases hn.mem_cases hmem with (h | rfl) | rfl | rfl
      · rw [h] at hdigit
        cases hdigit
      · exact hpoint rfl
      · exact absurd hsymbol (by decide)
      · exact absurd hsymbol (by decide)
  | symbol h =>
      obtain rfl := List.mem_singleton.mp hmem
      rw [h] at hsymbol
      cases hsymbol

theorem Proper.wellFormed {kind : Kind} {token rest : Text} (h : Proper kind token rest) :
    WellFormed token := by
  cases h with
  | reference hname hlongest => exact .reference hname
  | numeral hn hlongest => exact .numeral hn
  | symbol hc halone => exact .symbol hc

/-- Where a symbol stands, a numeral starts only if the symbol is its sign. -/
theorem take?_symbol_eq_none_iff {c : Char} {rest : Text} (hc : isSymbolChar c = true) :
    Numeral.take? (c :: rest) = none ↔ (c = '-' ∨ c = '+' → ¬ Numeral.Starts rest) := by
  by_cases hsign : c = '-' ∨ c = '+'
  · rw [← Option.not_isSome_iff_eq_none, Numeral.isSome_take?_sign_iff hsign]
    exact ⟨fun h _ => h, fun h => h hsign⟩
  · obtain ⟨-, hdigit, hpoint, -⟩ := not_inner_of_isSymbolChar hc
    refine iff_of_true ?_ fun h => absurd h hsign
    exact Numeral.take?_cons_eq_none hdigit hpoint (not_or.mp hsign)

theorem takeProper?_of_proper {kind : Kind} {token rest : Text} (h : Proper kind token rest) :
    takeProper? (token ++ rest) = some (token, rest) := by
  cases h with
  | reference hname hlongest =>
      rw [List.cons_append, takeProper?_referenceSign, takeWhile_run hname hlongest,
        dropWhile_run hname hlongest]
  | @numeral _ _ n h hlongest =>
      exact takeProper?_of_take? (Numeral.take?_eq_some_iff.mpr ⟨rfl, ⟨n, h⟩, hlongest⟩)
  | symbol hc halone => exact takeProper?_symbol hc ((take?_symbol_eq_none_iff hc).mpr halone)

theorem exists_proper_of_takeProper? {t token rest : Text}
    (h : takeProper? t = some (token, rest)) : ∃ kind, Proper kind token rest := by
  have happ := takeProper?_append h
  cases t with
  | nil => cases h
  | cons c t =>
      unfold takeProper? at h
      dsimp only at h
      split at h
      · rename_i hc
        subst hc
        simp only [Option.some.injEq, Prod.mk.injEq] at h
        obtain ⟨rfl, rfl⟩ := h
        refine ⟨.reference, .reference (fun d hd => List.mem_takeWhile_imp hd) fun d hd => ?_⟩
        have hhead := List.head?_dropWhile_not isWordChar t
        simpa [Option.mem_def.mp hd] using hhead
      · split at h
        · rename_i found hfound
          obtain rfl := Option.some.inj h
          obtain ⟨-, ⟨n, hn⟩, hlongest⟩ := Numeral.take?_eq_some_iff.mp hfound
          rw [← happ] at hlongest
          exact ⟨.numeral, .numeral hn hlongest⟩
        · rename_i hnone
          split at h
          · rename_i hc
            simp only [Option.some.injEq, Prod.mk.injEq] at h
            obtain ⟨rfl, rfl⟩ := h
            exact ⟨.symbol, .symbol hc ((take?_symbol_eq_none_iff hc).mp hnone)⟩
          · cases h

theorem isSome_takeProper?_iff {t : Text} :
    (takeProper? t).isSome = true ↔
      ∃ kind token rest, token ++ rest = t ∧ Proper kind token rest := by
  constructor
  · intro h
    obtain ⟨⟨token, rest⟩, hfound⟩ := Option.isSome_iff_exists.mp h
    obtain ⟨kind, hproper⟩ := exists_proper_of_takeProper? hfound
    exact ⟨kind, token, rest, takeProper?_append hfound, hproper⟩
  · rintro ⟨kind, token, rest, rfl, hproper⟩
    rw [takeProper?_of_proper hproper]
    rfl

/-- A token of one kind is of no other. -/
theorem Proper.kind_eq {kind kind' : Kind} {token rest rest' : Text} (h : Proper kind token rest)
    (h' : Proper kind' token rest') : kind = kind' := by
  have hreference : ∀ {name n}, ¬ Numeral.Written (referenceSign :: name) n := by
    intro name n hn
    cases Numeral.parse?_of_written hn
  have hsymbol : ∀ {c n}, isSymbolChar c = true → ¬ Numeral.Written [c] n := by
    intro c n hc hn
    have hparse := Numeral.parse?_of_written hn
    rcases eq_of_isSymbolChar hc with ⟨op, rfl⟩ | rfl | rfl
    · cases op <;> cases hparse
    · cases hparse
    · cases hparse
  cases h with
  | reference hname hlongest =>
      cases h' with
      | reference hname' hlongest' => rfl
      | numeral hn hlongest' => exact absurd hn hreference
      | symbol hc halone => exact absurd rfl (not_inner_of_isSymbolChar hc).2.2.2
  | numeral hn hlongest =>
      cases h' with
      | reference hname' hlongest' => exact absurd hn hreference
      | numeral hn' hlongest' => rfl
      | symbol hc halone => exact absurd hn (hsymbol hc)
  | symbol hc halone =>
      cases h' with
      | reference hname' hlongest' => exact absurd rfl (not_inner_of_isSymbolChar hc).2.2.2
      | numeral hn hlongest' => exact absurd hn (hsymbol hc)
      | symbol hc' halone' => rfl

/-! ## Where free text stops -/

/-- Whether `c` begins a token, or parts tokens, wherever it stands. -/
def isBreak (c : Char) : Bool := isBlank c || isSymbolChar c || c == referenceSign

theorem stops_iff {t : Text} :
    Stops t ↔ (∃ c ∈ t.head?, isBlank c = true) ∨ (takeProper? t).isSome = true := by
  rw [isSome_takeProper?_iff]
  rfl

theorem isSome_takeProper?_cons_iff {c : Char} {rest : Text} :
    (takeProper? (c :: rest)).isSome = true ↔
      isSymbolChar c = true ∨ c = referenceSign ∨ Numeral.Starts (c :: rest) := by
  by_cases hreference : c = referenceSign
  · exact iff_of_true (by simp [takeProper?, hreference]) (.inr (.inl hreference))
  · by_cases hsymbol : isSymbolChar c = true
    · refine iff_of_true ?_ (.inl hsymbol)
      cases htake : Numeral.take? (c :: rest) <;> simp [takeProper?, hreference, htake, hsymbol]
    · have hsign : c ≠ '-' ∧ c ≠ '+' := by
        constructor
        · rintro rfl
          exact hsymbol (by decide)
        · rintro rfl
          exact hsymbol (by decide)
      have htake : (takeProper? (c :: rest)).isSome = (Numeral.take? (c :: rest)).isSome := by
        cases htake : Numeral.take? (c :: rest) <;> simp [takeProper?, hreference, htake, hsymbol]
      rw [htake, Numeral.isSome_take?_iff_of_not_sign hsign]
      simp [hreference, hsymbol]

theorem stops_cons_iff {c : Char} {rest : Text} :
    Stops (c :: rest) ↔ isBreak c = true ∨ Numeral.Starts (c :: rest) := by
  rw [stops_iff, isSome_takeProper?_cons_iff]
  simp [isBreak, or_assoc]

/-- Free text holds nothing that begins a token wherever it stands. -/
theorem Fits.not_isBreak {token rest : Text} (h : Fits .free token rest) :
    ∀ c ∈ token, isBreak c = false ∧ c.isDigit = false := by
  intro c hc
  cases h with
  | free hne hinside hlongest =>
      obtain ⟨before, after, rfl⟩ := List.append_of_mem hc
      have hstops := hinside (c :: after) (List.suffix_append _ _) (by simp)
      rw [List.cons_append, stops_cons_iff, Numeral.starts_cons_iff, not_or, not_or] at hstops
      exact ⟨Bool.eq_false_iff.mpr hstops.1, Bool.eq_false_iff.mpr hstops.2.1⟩
  | proper h => cases h

theorem takeFree_cons_of_stops {c : Char} {rest : Text} (h : Stops (c :: rest)) :
    takeFree (c :: rest) = ([], c :: rest) := by
  rw [stops_iff] at h
  have hstop : (isBlank c || (takeProper? (c :: rest)).isSome) = true := by simpa using h
  rw [takeFree, if_pos hstop]

theorem takeFree_cons_of_not_stops {c : Char} {rest : Text} (h : ¬ Stops (c :: rest)) :
    takeFree (c :: rest) = (c :: (takeFree rest).1, (takeFree rest).2) := by
  rw [stops_iff] at h
  have hstop : ¬ (isBlank c || (takeProper? (c :: rest)).isSome) = true := by simpa using h
  rw [takeFree, if_neg hstop]

/-- Free text goes on up to the first place where something else begins. -/
theorem takeFree_stops (t : Text) :
    (∀ part, part <:+ (takeFree t).1 → part ≠ [] → ¬ Stops (part ++ (takeFree t).2)) ∧
      ((takeFree t).2 = [] ∨ Stops (takeFree t).2) := by
  induction t with
  | nil => exact ⟨fun part hpart hne => absurd (List.suffix_nil.mp hpart) hne, .inl rfl⟩
  | cons c rest ih =>
      by_cases hstops : Stops (c :: rest)
      · rw [takeFree_cons_of_stops hstops]
        exact ⟨fun part hpart hne => absurd (List.suffix_nil.mp hpart) hne, .inr hstops⟩
      · rw [takeFree_cons_of_not_stops hstops]
        refine ⟨fun part hpart hne => ?_, ih.2⟩
        rcases List.suffix_cons_iff.mp hpart with rfl | hpart
        · rwa [List.cons_append, takeFree_append]
        · exact ih.1 part hpart hne

theorem takeFree_eq {token rest : Text}
    (hinside : ∀ part, part <:+ token → part ≠ [] → ¬ Stops (part ++ rest))
    (hlongest : rest = [] ∨ Stops rest) : takeFree (token ++ rest) = (token, rest) := by
  induction token with
  | nil =>
      cases rest with
      | nil => rfl
      | cons c rest => exact takeFree_cons_of_stops (hlongest.resolve_left (by simp))
  | cons c token ih =>
      have hrest := ih fun part hpart => hinside part (hpart.trans (List.suffix_cons c token))
      have hhere := hinside (c :: token) (List.suffix_refl _) (by simp)
      rw [List.cons_append] at hhere ⊢
      rw [takeFree_cons_of_not_stops hhere, hrest]

/-! ## One piece -/

theorem Fits.ne_nil {kind : Kind} {token rest : Text} (h : Fits kind token rest) : token ≠ [] := by
  cases h with
  | proper h => exact takeProper?_ne_nil (takeProper?_of_proper h)
  | free hne hinside hlongest => exact hne

theorem Fits.kind_eq {kind kind' : Kind} {token rest : Text} (h : Fits kind token rest)
    (h' : Fits kind' token rest) : kind = kind' := by
  -- what begins with a token of another kind is no free text
  have hfree : ∀ {kind}, Proper kind token rest → token ≠ [] →
      ¬ ∀ part, part <:+ token → part ≠ [] → ¬ Stops (part ++ rest) := by
    intro kind hproper hne hinside
    exact hinside token (List.suffix_refl _) hne (.inr ⟨kind, token, rest, rfl, hproper⟩)
  cases h with
  | proper h =>
      cases h' with
      | proper h' => exact h.kind_eq h'
      | free hne hinside hlongest => exact absurd hinside (hfree h hne)
  | free hne hinside hlongest =>
      cases h' with
      | proper h' => exact absurd hinside (hfree h' hne)
      | free hne' hinside' hlongest' => rfl

/-- No piece holds white space. -/
theorem Fits.not_isBlank {kind : Kind} {token rest : Text} (h : Fits kind token rest) :
    ∀ c ∈ token, isBlank c = false := by
  intro c hc
  refine Bool.eq_false_iff.mpr fun hblank => ?_
  cases h with
  | proper h => exact h.wellFormed.not_mem (not_token_of_isBlank hblank) hc
  | free hne hinside hlongest =>
      have hbreak := (Fits.free hne hinside hlongest).not_isBreak c hc
      simp [isBreak, hblank] at hbreak

theorem next?_of_fits {gap token rest : Text} {kind : Kind} (hgap : ∀ c ∈ gap, isBlank c = true)
    (h : Fits kind token rest) : next? (gap ++ (token ++ rest)) = some (token, rest) := by
  cases h with
  | proper h => exact next?_of_takeProper? hgap (takeProper?_of_proper h)
  | free hne hinside hlongest =>
      have hhere := hinside token (List.suffix_refl _) hne
      rw [stops_iff, not_or] at hhere
      have hhead : ∀ c ∈ (token ++ rest).head?, isBlank c = false := fun c hc =>
        Bool.eq_false_iff.mpr fun hblank => hhere.1 ⟨c, hc, hblank⟩
      have hnone : takeProper? (token ++ rest) = none := Option.not_isSome_iff_eq_none.mp hhere.2
      have hdrop := dropWhile_run hgap hhead
      have hfree := takeFree_eq hinside hlongest
      unfold next?
      rw [hdrop]
      cases htext : token ++ rest with
      | nil => exact absurd (List.append_eq_nil_iff.mp htext).1 hne
      | cons c t =>
          rw [htext] at hnone hfree
          simp [hnone, hfree]

theorem exists_fits_of_next? {t token rest : Text} (h : next? t = some (token, rest)) :
    ∃ kind, Fits kind token rest := by
  have hne := next?_ne_nil h
  unfold next? at h
  split at h
  · cases h
  · have h := Option.some.inj h
    cases hproper : takeProper? (t.dropWhile isBlank) with
    | some found =>
        rw [hproper, Option.getD_some] at h
        obtain ⟨kind, hkind⟩ := exists_proper_of_takeProper? (h ▸ hproper)
        exact ⟨kind, .proper hkind⟩
    | none =>
        rw [hproper, Option.getD_none] at h
        have hstops := takeFree_stops (t.dropWhile isBlank)
        rw [h] at hstops
        exact ⟨.free, .free hne hstops.1 hstops.2⟩

/-! ## All the pieces -/

theorem cut_nil_iff {t : Text} : Cut t [] ↔ next? t = none := by
  constructor
  · intro h
    cases h with
    | nil hgap =>
        unfold next?
        rw [List.dropWhile_eq_nil_iff.mpr hgap]
  · intro h
    refine .nil ?_
    unfold next? at h
    split at h
    · rename_i hdrop
      exact List.dropWhile_eq_nil_iff.mp hdrop
    · cases h

theorem cut_cons_iff {t : Text} {piece : Piece} {pieces : List Piece} :
    Cut t (piece :: pieces) ↔ ∃ rest, next? t = some (piece.token, rest) ∧
      Fits piece.kind piece.token rest ∧ Cut rest pieces := by
  constructor
  · intro h
    cases h with
    | cons hgap htoken hrest => exact ⟨_, next?_of_fits hgap htoken, htoken, hrest⟩
  · rintro ⟨rest, hnext, htoken, hrest⟩
    have hgap : ∀ c ∈ t.takeWhile isBlank, isBlank c = true := fun c hc => List.mem_takeWhile_imp hc
    have hcut := Cut.cons hgap htoken hrest
    rwa [next?_append hnext, List.takeWhile_append_dropWhile] at hcut

theorem exists_cut (t : Text) : ∃ pieces, Cut t pieces := by
  induction hn : t.length using Nat.strongRecOn generalizing t with
  | ind n ih =>
      subst hn
      cases hnext : next? t with
      | none => exact ⟨[], cut_nil_iff.mpr hnext⟩
      | some found =>
          obtain ⟨token, rest⟩ := found
          obtain ⟨kind, htoken⟩ := exists_fits_of_next? hnext
          obtain ⟨pieces, hrest⟩ := ih rest.length (next?_length hnext) rest rfl
          exact ⟨⟨kind, token⟩ :: pieces, cut_cons_iff.mpr ⟨rest, hnext, htoken, hrest⟩⟩

namespace Cut

theorem unique {t : Text} {pieces others : List Piece} (h : Cut t pieces) (h' : Cut t others) :
    pieces = others := by
  induction pieces generalizing t others with
  | nil =>
      cases others with
      | nil => rfl
      | cons other others =>
          obtain ⟨rest, hnext, -⟩ := cut_cons_iff.mp h'
          rw [cut_nil_iff.mp h] at hnext
          cases hnext
  | cons piece pieces ih =>
      obtain ⟨rest, hnext, htoken, hrest⟩ := cut_cons_iff.mp h
      cases others with
      | nil =>
          rw [cut_nil_iff.mp h'] at hnext
          cases hnext
      | cons other others =>
          obtain ⟨rest', hnext', htoken', hrest'⟩ := cut_cons_iff.mp h'
          rw [hnext] at hnext'
          obtain ⟨htext, rfl⟩ := Prod.mk.inj (Option.some.inj hnext')
          obtain ⟨kind, token⟩ := piece
          obtain ⟨kind', token'⟩ := other
          obtain rfl : token = token' := htext
          obtain rfl : kind = kind' := htoken.kind_eq htoken'
          rw [ih hrest hrest']

theorem map_token {t : Text} {pieces : List Piece} (h : Cut t pieces) :
    pieces.map Piece.token = tokens t := by
  induction h with
  | nil hgap => exact (tokens_of_next?_none (cut_nil_iff.mp (.nil hgap))).symm
  | cons hgap htoken hrest ih =>
      rw [tokens_of_next?_some (next?_of_fits hgap htoken), ← ih]
      rfl

/-- The pieces are what is left of the text without its white space. -/
theorem flatten {t : Text} {pieces : List Piece} (h : Cut t pieces) :
    (pieces.map Piece.token).flatten = t.filter fun c => !isBlank c := by
  induction h with
  | nil hgap =>
      refine (List.filter_eq_nil_iff.mpr fun c hc => ?_).symm
      simp [hgap c hc]
  | @cons gap token rest kind pieces hgap htoken hrest ih =>
      have hgapless : gap.filter (fun c => !isBlank c) = [] :=
        List.filter_eq_nil_iff.mpr fun c hc => by simp [hgap c hc]
      have hwhole : token.filter (fun c => !isBlank c) = token :=
        List.filter_eq_self.mpr fun c hc => by simp [htoken.not_isBlank c hc]
      rw [List.filter_append, List.filter_append, hgapless, hwhole, List.nil_append, ← ih]
      rfl

theorem exists_fits {t : Text} {pieces : List Piece} (h : Cut t pieces) :
    ∀ piece ∈ pieces, ∃ rest, Fits piece.kind piece.token rest := by
  induction h with
  | nil hgap => simp
  | cons hgap htoken hrest ih => exact List.forall_mem_cons.mpr ⟨⟨_, htoken⟩, ih⟩

end Cut

end Token

/-- The tokens of a text are what is left of it without its white space. -/
theorem flatten_tokens (t : Text) : (tokens t).flatten = t.filter fun c => !isBlank c := by
  obtain ⟨pieces, hcut⟩ := Token.exists_cut t
  rw [← hcut.map_token]
  exact hcut.flatten

/-! ## One token after another -/

/-- Each call answers the next token, and none once all have been answered. -/
theorem next?_afterTokens (n : Nat) (t : Text) :
    (Token.next? (afterTokens n t)).map Prod.fst = (tokens t)[n]? := by
  have hdrop := tokens_afterTokens n t
  rw [← List.head?_drop, ← hdrop]
  cases hnext : Token.next? (afterTokens n t) with
  | none => simp [tokens_of_next?_none hnext]
  | some found => simp [tokens_of_next?_some hnext]

theorem afterTokens_of_none {t : Text} (n : Nat) (h : Token.next? t = none) :
    afterTokens (n + 1) t = [] := by
  rw [afterTokens, h]

theorem afterTokens_of_some {t token rest : Text} (n : Nat)
    (h : Token.next? t = some (token, rest)) : afterTokens (n + 1) t = afterTokens n rest := by
  rw [afterTokens, h]

/-- Behind `n` tokens, one more token is taken off what is left of the text. -/
theorem afterTokens_of_next? {n : Nat} {t token rest : Text}
    (h : Token.next? (afterTokens n t) = some (token, rest)) : afterTokens (n + 1) t = rest := by
  induction n generalizing t with
  | zero => exact afterTokens_of_some 0 h
  | succ n ih =>
      cases hnext : Token.next? t with
      | none =>
          rw [afterTokens_of_none n hnext] at h
          cases h
      | some found =>
          obtain ⟨first, after⟩ := found
          rw [afterTokens_of_some n hnext] at h
          rw [afterTokens_of_some (n + 1) hnext]
          exact ih h

theorem Token.next?_isSuffix {t token rest : Text} (h : next? t = some (token, rest)) :
    rest <:+ t := by
  have hrest : rest <:+ token ++ rest := List.suffix_append token rest
  rw [next?_append h] at hrest
  exact hrest.trans (List.dropWhile_suffix isBlank)

/-- A text is cut in one way only, and its tokens are the pieces. Each call for the next
token answers one of them, in order, and leaves a shorter rest, whose tokens are the
ones not yet answered. -/
theorem tokens_are_only_cut (formula : Text) :
    (∃! pieces, Token.Cut formula pieces) ∧
      (∀ pieces, Token.Cut formula pieces → pieces.map Token.Piece.token = tokens formula ∧
        ∀ piece ∈ pieces, piece.token ≠ [] ∧ (∀ c ∈ piece.token, isBlank c = false) ∧
          (piece.kind = .free → ∀ c ∈ piece.token,
            c ≠ referenceSign ∧ c.isDigit = false ∧ isSymbolChar c = false)) ∧
      (tokens formula).flatten = formula.filter (fun c => !isBlank c) ∧
      ∀ n, (Token.next? (afterTokens n formula)).map Prod.fst = (tokens formula)[n]? ∧
        tokens (afterTokens n formula) = (tokens formula).drop n ∧
        ∀ token rest, Token.next? (afterTokens n formula) = some (token, rest) →
          afterTokens (n + 1) formula = rest ∧ rest <:+ afterTokens n formula ∧
            rest.length < (afterTokens n formula).length := by
  obtain ⟨pieces, hcut⟩ := Token.exists_cut formula
  refine ⟨⟨pieces, hcut, fun others hothers => hothers.unique hcut⟩, ?pieces,
    flatten_tokens formula,
    fun n => ⟨next?_afterTokens n formula, tokens_afterTokens n formula, ?calls⟩⟩
  case pieces =>
    intro pieces hcut
    refine ⟨hcut.map_token, fun piece hpiece => ?_⟩
    obtain ⟨rest, hfits⟩ := hcut.exists_fits piece hpiece
    refine ⟨hfits.ne_nil, hfits.not_isBlank, fun hkind c hc => ?_⟩
    rw [hkind] at hfits
    obtain ⟨hbreak, hdigit⟩ := hfits.not_isBreak c hc
    simp only [Token.isBreak, Bool.or_eq_false_iff, beq_eq_false_iff_ne] at hbreak
    exact ⟨hbreak.2, hdigit, hbreak.1.2⟩
  case calls =>
    intro token rest hnext
    exact ⟨afterTokens_of_next? hnext, Token.next?_isSuffix hnext, Token.next?_length hnext⟩

end Reckoner
