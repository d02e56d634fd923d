import Reckoner.Proofs.Formula.Reference
import Reckoner.Proofs.Formula.Shown

/-!
# Which tokens are symbols

A formula is read twice over: it is cut into tokens, and each token is then read on its own. The
first reading looks for numerals and symbols at the start of a text and goes on from there, the
second asks whether a whole text is one. They know the same numerals and symbols: a token read
as one was cut off as one, and no other is read as anything.
-/
namespace Reckoner

namespace Token

/-- A piece of the kind with this text is read as the symbol. -/
inductive Reads : Kind → Text → Symbol → Prop where
  | numeral {token : Text} {n : Numeral} (h : Numeral.Written token n) :
      Reads .numeral token (.number n.value)
  | operator (op : Operator) : Reads .symbol [op.symbol] (.operator op)
  | opening : Reads .symbol ['('] .opening
  | closing : Reads .symbol [')'] .closing

/-! ## The whole text of a piece -/

section Whole

variable {kind : Kind} {token t : Text} {s : Symbol}

theorem reads_iff : Symbol.ofFragment (.raw t) = .ok s ↔ ∃ kind, Reads kind t s := by
  have hread : Symbol.ofFragment (.raw t) = .ok s ↔ Symbol.ofText? t = some s := by
    cases htext : Symbol.ofText? t <;> simp [Symbol.ofFragment, htext]
  rw [hread, Symbol.ofText?_eq_some_iff]
  constructor
  · rintro (⟨c, rfl, hc⟩ | ⟨n, hn, rfl⟩)
    · rcases Symbol.eq_of_ofChar? hc with ⟨rfl, rfl⟩ | ⟨rfl, rfl⟩ | ⟨op, rfl, rfl⟩
      · exact ⟨_, .opening⟩
      · exact ⟨_, .closing⟩
      · exact ⟨_, .operator op⟩
    · exact ⟨_, .numeral hn⟩
  · rintro ⟨kind, h⟩
    cases h with
    | numeral hn => exact .inr ⟨_, hn, rfl⟩
    | operator op => exact .inl ⟨_, rfl, by cases op <;> rfl⟩
    | opening => exact .inl ⟨_, rfl, rfl⟩
    | closing => exact .inl ⟨_, rfl, rfl⟩

theorem malformed_of_not_reads (h : ∀ kind s, ¬ Reads kind t s) :
    Symbol.ofFragment (.raw t) = .error (.malformed t) := by
  cases htext : Symbol.ofText? t with
  | none => simp [Symbol.ofFragment, htext]
  | some s =>
      have hread : Symbol.ofFragment (.raw t) = .ok s := by simp [Symbol.ofFragment, htext]
      obtain ⟨kind, hkind⟩ := reads_iff.mp hread
      exact absurd hkind (h kind s)

/-- What is read as a symbol is cut off whole where nothing follows it. -/
theorem Reads.fits (h : Reads kind token s) : Fits kind token [] := by
  have hsymbol : ∀ {c}, isSymbolChar c = true → Fits .symbol [c] [] := fun hc =>
    .proper (.symbol hc fun _ => Numeral.not_starts_nil)
  cases h with
  | numeral hn =>
      refine .proper (.numeral hn fun longer m hlonger _ => ?_)
      rw [List.append_nil] at hlonger
      exact hlonger.length_le
  | operator op => exact hsymbol (by cases op <;> decide)
  | opening => exact hsymbol (by decide)
  | closing => exact hsymbol (by decide)

theorem Reads.of_symbol (h : Reads .symbol token s) : s.text = token ∧ ∀ v, s ≠ .number v := by
  cases h with
  | operator | opening | closing => exact ⟨rfl, nofun⟩

theorem Fits.exists_reads {rest : Text} (h : Fits kind token rest) (hreference : kind ≠ .reference)
    (hfree : kind ≠ .free) : ∃ s, Reads kind token s := by
  cases h with
  | proper h =>
      cases h with
      | reference => exact absurd rfl hreference
      | numeral hn => exact ⟨_, .numeral hn⟩
      | symbol hc =>
          rcases eq_of_isSymbolChar hc with ⟨op, rfl⟩ | rfl | rfl
          · exact ⟨_, .operator op⟩
          · exact ⟨_, .opening⟩
          · exact ⟨_, .closing⟩
  | free => exact absurd rfl hfree

/-- No reference and no free text is read as anything, wherever it was cut off. -/
theorem Fits.not_reads {kind' : Kind} {rest : Text} (h : Fits kind token rest)
    (hkind : kind = .reference ∨ kind = .free) : ¬ Reads kind' token s := by
  intro hreads
  -- alone it would be a piece of two kinds
  obtain rfl := h.alone.kind_eq hreads.fits
  rcases hkind with rfl | rfl <;> cases hreads

/-- Only a reference is looked up. -/
theorem Fits.reference?_eq_none {rest : Text} (h : Fits kind token rest)
    (hkind : kind ≠ .reference) : Registry.reference? token = none := by
  obtain ⟨name, rfl⟩ | hnone := Registry.reference?_cases token
  · exfalso
    cases h with
    | proper h =>
        cases h with
        | reference => exact hkind rfl
        | numeral hn =>
            have hnone := reference?_of_written hn
            simp [Registry.reference?] at hnone
        | symbol hc => exact (not_inner_of_isSymbolChar hc).2.2.2 rfl
    | free hne hinside hlongest =>
        have hbreak := (Fits.free hne hinside hlongest).not_isBreak referenceSign (by simp)
        exact absurd hbreak.1 (by decide +kernel)
  · exact hnone

theorem cut_whole_iff : Cut t [⟨kind, t⟩] ↔ Fits kind t [] := by
  constructor
  · intro h
    obtain ⟨rest, hfits⟩ := h.exists_fits _ (List.mem_singleton_self _)
    exact hfits.alone
  · intro h
    have hcut := @Cut.cons [] t [] kind [] (by simp) h (.nil (by simp))
    rwa [List.append_nil] at hcut

end Whole

end Token

theorem Symbol.exists_ofFragment_iff {t : Text} :
    (∃ s, Symbol.ofFragment (.raw t) = .ok s) ↔
      ∃ kind, Token.Cut t [⟨kind, t⟩] ∧ kind ≠ .reference ∧ kind ≠ .free := by
  simp only [Token.reads_iff, Token.cut_whole_iff]
  constructor
  · rintro ⟨s, kind, hreads⟩
    refine ⟨kind, hreads.fits, ?_, ?_⟩
    · rintro rfl
      cases hreads
    · rintro rfl
      cases hreads
  · rintro ⟨kind, hfits, hreference, hfree⟩
    obtain ⟨s, hreads⟩ := hfits.exists_reads hreference hfree
    exact ⟨s, kind, hreads⟩

/-- A text is read as a symbol exactly if it is the only token of itself and neither a reference
nor free text. So in a formula every numeral is read as its number, every symbol as what it
stands for, and free text is refused as it stands; none of them is looked up. -/
theorem reads_what_is_cut_whole :
    (∀ t, (∃ s, Symbol.ofFragment (.raw t) = .ok s) ↔
      tokens t = [t] ∧
        ∃ kind, Token.Cut t [⟨kind, t⟩] ∧ kind ≠ .reference ∧ kind ≠ .free) ∧
    ∀ formula pieces, Token.Cut formula pieces → ∀ piece ∈ pieces,
      (piece.kind = .numeral → ∃ n, Numeral.Written piece.token n ∧
        Symbol.ofFragment (.raw piece.token) = .ok (.number n.value)) ∧
      (piece.kind = .symbol → ∃ s, Symbol.ofFragment (.raw piece.token) = .ok s ∧
        s.text = piece.token ∧ ∀ v, s ≠ .number v) ∧
      (piece.kind = .free →
        Symbol.ofFragment (.raw piece.token) = .error (.malformed piece.token)) ∧
      (piece.kind ≠ .reference → ∀ r : Registry, r.substitute piece.token = .raw piece.token) := by
  refine ⟨fun t => ?whole, fun formula pieces hcut piece hpiece => ?pieces⟩
  case whole =>
    rw [Symbol.exists_ofFragment_iff]
    constructor
    · rintro ⟨kind, hcut, hkind⟩
      exact ⟨hcut.map_token.symm, kind, hcut, hkind⟩
    · exact And.right
  case pieces =>
    obtain ⟨rest, hfits⟩ := hcut.exists_fits piece hpiece
    refine ⟨fun hkind => ?numeral, fun hkind => ?symbol, fun hkind => ?free, fun hkind r => ?raw⟩
    case numeral =>
      rw [hkind] at hfits
      obtain ⟨s, hreads⟩ := hfits.exists_reads nofun nofun
      have hread := Token.reads_iff.mpr ⟨_, hreads⟩
      cases hreads with
      | numeral hn => exact ⟨_, hn, hread⟩
    case symbol =>
      rw [hkind] at hfits
      obtain ⟨s, hreads⟩ := hfits.exists_reads nofun nofun
      refine ⟨s, Token.reads_iff.mpr ⟨_, hreads⟩, hreads.of_symbol⟩
    case free =>
      exact Token.malformed_of_not_reads fun _ _ => hfits.not_reads (.inr hkind)
    case raw =>
      exact Registry.substitute_of_not_reference (hfits.reference?_eq_none hkind)

/-- `-.5` is one numeral, `1.` is a numeral and free text, and `²` is free text. -/
theorem reads_what_is_cut_whole_of_pieces :
    (∃ s, Symbol.ofFragment (.raw ['-', '.', '5']) = .ok s) ∧
    (¬ ∃ s, Symbol.ofFragment (.raw ['1', '.']) = .ok s) ∧
    (Token.Cut ['-', '.', '5'] [⟨.numeral, ['-', '.', '5']⟩] ∧
      ∃ n, Numeral.Written ['-', '.', '5'] n ∧
        Symbol.ofFragment (.raw ['-', '.', '5']) = .ok (.number n.value)) ∧
    Token.Cut ['²'] [⟨.free, ['²']⟩] ∧
      Symbol.ofFragment (.raw ['²']) = .error (.malformed ['²']) := by
  obtain ⟨hwhole, hpieces⟩ := reads_what_is_cut_whole
  have hhalf : Token.Cut ['-', '.', '5'] [⟨.numeral, ['-', '.', '5']⟩] :=
    Token.cut_whole_iff.mpr (Token.Reads.numeral (Numeral.written_of_parse? rfl)).fits
  have hsquare : Token.Cut ['²'] [⟨.free, ['²']⟩] := by
    refine Token.cut_whole_iff.mpr (.free (by simp) (fun part hpart hne => ?_) (.inl rfl))
    obtain rfl : part = ['²'] := (List.suffix_cons_iff.mp hpart).resolve_right (by simpa using hne)
    rw [List.append_nil, Token.stops_cons_iff, Numeral.starts_cons_iff]
    decide +kernel
  refine ⟨(hwhole _).mpr ⟨hhalf.map_token.symm, _, hhalf, nofun, nofun⟩, ?_,
    ⟨hhalf, (hpieces _ _ hhalf _ (List.mem_singleton_self _)).1 rfl⟩,
    hsquare, (hpieces _ _ hsquare _ (List.mem_singleton_self _)).2.2.1 rfl⟩
  rintro hone
  have htokens : tokens ['1', '.'] = [['1'], ['.']] := by decide +kernel
  rw [((hwhole _).mp hone).1] at htokens
  cases htokens

end Reckoner
