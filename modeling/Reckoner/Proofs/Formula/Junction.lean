import Reckoner.Proofs.Formula.Cut

/-!
# Where texts meet

White space, a symbol and the sign of a reference end whatever stands before them:
they continue no token, and free text stops in front of them. So where the second of
two texts begins with one of these, the tokens of both are those of the first, and
then those of the second.
-/
namespace Reckoner

/-- Nothing in front of the text goes on into it. -/
def Breaks (t : Text) : Prop := ∀ c ∈ t.head?, Token.isBreak c = true

theorem breaks_cons {c : Char} (hc : Token.isBreak c = true) (rest : Text) :
    Breaks (c :: rest) := by
  intro d hd
  obtain rfl := Option.some.inj hd
  exact hc

namespace Token

/-- A break is no inner character of a token. -/
theorem not_inner_of_isBreak {c : Char} (h : isBreak c = true) :
    isWordChar c = false ∧ c.isDigit = false ∧ c ≠ '.' := by
  simp only [isBreak, Bool.or_eq_true, beq_iff_eq] at h
  rcases h with (hblank | hsymbol) | rfl
  · obtain ⟨hword, hdigit, -, hpoint, -⟩ := not_token_of_isBlank hblank
    exact ⟨hword, hdigit, hpoint⟩
  · obtain ⟨hword, hdigit, hpoint, -⟩ := not_inner_of_isSymbolChar hsymbol
    exact ⟨hword, hdigit, hpoint⟩
  · decide +kernel

section Tail

variable {kind : Kind} {token rest t tail : Text}

/-- What ends at the end of a text ends at a break behind it too. -/
theorem head?_append_of_breaks {p : Char → Bool} (htail : Breaks tail)
    (hp : ∀ c, isBreak c = true → p c = false) (hrest : ∀ c ∈ rest.head?, p c = false) :
    ∀ c ∈ (rest ++ tail).head?, p c = false := by
  intro c hc
  cases rest with
  | nil => exact hp c (htail c hc)
  | cons d rest => exact hrest c hc

/-- No numeral starts at a break, nor at a point in front of one. -/
theorem starts_append_iff (htail : Breaks tail) :
    Numeral.Starts (t ++ tail) ↔ Numeral.Starts t := by
  have hdigit : ¬ ∃ d ∈ tail.head?, d.isDigit = true := by
    rintro ⟨d, hd, hdigit⟩
    rw [(not_inner_of_isBreak (htail d hd)).2.1] at hdigit
    cases hdigit
  match t with
  | [] =>
    refine iff_of_false (fun h => ?_) Numeral.not_starts_nil
    cases tail with
    | nil => exact Numeral.not_starts_nil h
    | cons c tail =>
        rcases Numeral.starts_cons_iff.mp h with hc | ⟨hc, -⟩
        · exact hdigit ⟨c, rfl, hc⟩
        · exact (not_inner_of_isBreak (htail c rfl)).2.2 hc
  | [c] =>
    rw [List.singleton_append, Numeral.starts_cons_iff, Numeral.starts_cons_iff]
    exact or_congr_right (and_congr_right fun _ => iff_of_false hdigit (by simp))
  | c :: d :: t =>
    rw [List.cons_append, Numeral.starts_cons_iff, Numeral.starts_cons_iff]
    rfl

/-- A numeral does not go on into a break. -/
theorem prefix_of_written {longer : Text} {m : Numeral} (htail : Breaks tail) (hne : t ≠ [])
    (h : longer <+: t ++ tail) (hlonger : Numeral.Written longer m) : longer <+: t := by
  rcases List.prefix_or_prefix_of_prefix h (List.prefix_append t tail) with hshort | ⟨more, rfl⟩
  · exact hshort
  · cases more with
    | nil => exact ⟨[], by simp⟩
    | cons c more =>
        -- the numeral would have a break behind its first character
        have hmore : c :: more <+: tail := (List.prefix_append_right_inj t).mp h
        obtain ⟨after, rfl⟩ := hmore
        obtain ⟨-, hdigit, hpoint⟩ := not_inner_of_isBreak (htail c rfl)
        cases t with
        | nil => exact absurd rfl hne
        | cons d t =>
            rcases hlonger.mem_tail_cases c (by simp) with hc | hc
            · rw [hdigit] at hc
              cases hc
            · exact absurd hc hpoint

theorem Proper.append (htail : Breaks tail) (h : Proper kind token rest) :
    Proper kind token (rest ++ tail) := by
  cases h with
  | reference hname hlongest =>
      exact .reference hname
        (head?_append_of_breaks htail (fun c hc => (not_inner_of_isBreak hc).1) hlongest)
  | numeral hn hlongest =>
      refine .numeral hn fun longer m hstart hlonger => hlongest longer m ?_ hlonger
      rw [← List.append_assoc] at hstart
      have hne : token ++ rest ≠ [] := List.append_ne_nil_of_left_ne_nil hn.ne_nil rest
      exact prefix_of_written htail hne hstart hlonger
  | symbol hc halone =>
      exact .symbol hc fun hsign => (starts_append_iff htail).not.mpr (halone hsign)

theorem stops_append_iff (htail : Breaks tail) (hne : t ≠ []) : Stops (t ++ tail) ↔ Stops t := by
  cases t with
  | nil => exact absurd rfl hne
  | cons c t =>
      rw [List.cons_append, stops_cons_iff, stops_cons_iff, ← List.cons_append,
        starts_append_iff htail]

theorem Breaks.stops (htail : Breaks tail) : tail = [] ∨ Stops tail := by
  cases tail with
  | nil => exact .inl rfl
  | cons c tail => exact .inr (stops_cons_iff.mpr (.inl (htail c rfl)))

theorem Fits.append (htail : Breaks tail) (h : Fits kind token rest) :
    Fits kind token (rest ++ tail) := by
  cases h with
  | proper h => exact .proper (h.append htail)
  | free hne hinside hlongest =>
      refine .free hne (fun part hpart hpart' => ?_) ?_
      · rw [← List.append_assoc, stops_append_iff htail (by simp [hpart'])]
        exact hinside part hpart hpart'
      · by_cases hrest : rest = []
        · rw [hrest]
          exact Breaks.stops htail
        · exact .inr ((stops_append_iff htail hrest).mpr (hlongest.resolve_left hrest))

theorem Cut.blank {gap : Text} {pieces : List Piece} (hgap : ∀ c ∈ gap, isBlank c = true)
    (h : Cut t pieces) : Cut (gap ++ t) pieces := by
  cases h with
  | nil hgap' =>
      exact .nil fun c hc => (List.mem_append.mp hc).elim (hgap c) (hgap' c)
  | cons hgap' htoken hrest =>
      rw [← List.append_assoc]
      exact .cons (fun c hc => (List.mem_append.mp hc).elim (hgap c) (hgap' c)) htoken hrest

theorem Cut.append {pieces others : List Piece} (htail : Breaks tail) (h : Cut t pieces)
    (hothers : Cut tail others) : Cut (t ++ tail) (pieces ++ others) := by
  induction h with
  | nil hgap => exact hothers.blank hgap
  | cons hgap htoken hrest ih =>
      rw [List.append_assoc, List.append_assoc]
      exact .cons hgap (htoken.append htail) ih

end Tail

end Token

/-- The tokens of a text that breaks in two are the tokens of both parts. -/
theorem tokens_append_of_breaks {tail : Text} (t : Text) (htail : Breaks tail) :
    tokens (t ++ tail) = tokens t ++ tokens tail := by
  obtain ⟨pieces, hcut⟩ := Token.exists_cut t
  obtain ⟨others, hothers⟩ := Token.exists_cut tail
  rw [← (hcut.append htail hothers).map_token, ← hcut.map_token, ← hothers.map_token,
    List.map_append]

/-! ## White space around a text -/

section Blank

variable {gap : Text} (hgap : ∀ c ∈ gap, isBlank c = true)

include hgap

theorem tokens_of_blank : tokens gap = [] :=
  ((Token.Cut.nil hgap).map_token).symm

theorem tokens_blank_append (t : Text) : tokens (gap ++ t) = tokens t := by
  obtain ⟨pieces, hcut⟩ := Token.exists_cut t
  rw [← (hcut.blank hgap).map_token, ← hcut.map_token]

theorem tokens_append_blank (t : Text) : tokens (t ++ gap) = tokens t := by
  have hbreaks : Breaks gap := fun c hc => by
    simp [Token.isBreak, hgap c (List.mem_of_mem_head? hc)]
  rw [tokens_append_of_breaks t hbreaks, tokens_of_blank hgap, List.append_nil]

end Blank

/-- White space at the end is no part of the tokens, nor is any of it. -/
theorem tokens_dropEndWhile {p : Char → Bool} (hp : ∀ c, p c = true → isBlank c = true)
    (t : Text) : tokens (Text.dropEndWhile p t) = tokens t := by
  obtain ⟨gap, happend, hgap⟩ := Text.exists_dropEndWhile_append p t
  rw [← tokens_append_blank (fun c hc => hp c (hgap c hc)), happend]

theorem tokens_trim (t : Text) : tokens (Text.trim isBlank t) = tokens t := by
  have hfront : ∀ c ∈ t.takeWhile isBlank, isBlank c = true := fun c hc =>
    List.mem_takeWhile_imp hc
  rw [Text.trim, tokens_dropEndWhile fun _ => id, ← tokens_blank_append hfront,
    List.takeWhile_append_dropWhile]

/-! ## Behind a boundary -/

/-- Nothing behind the text goes on from it. -/
def Parts (t : Text) : Prop := ∀ c ∈ t.getLast?, isBoundary c = true

theorem parts_concat {t : Text} {c : Char} (hc : isBoundary c = true) : Parts (t ++ [c]) := by
  intro d hd
  rw [List.getLast?_concat] at hd
  obtain rfl := Option.some.inj hd
  exact hc

theorem Token.isBreak_of_isBoundary {c : Char} (h : isBoundary c = true) : isBreak c = true := by
  simp only [isBoundary, Bool.or_eq_true] at h
  rcases h with hblank | htight
  · simp [isBreak, hblank]
  · rcases eq_of_isTightChar htight with rfl | rfl | rfl | rfl | rfl <;> decide

/-- One of the five characters is a token on its own, whatever follows it. -/
theorem tokens_cons_of_isTightChar {c : Char} (hc : isTightChar c = true) (t : Text) :
    tokens (c :: t) = [c] :: tokens t := by
  have hnext : Token.next? (c :: t) = some ([c], t) :=
    @Token.next?_of_takeProper? [] _ _ _ (by simp) (Token.takeProper?_tight hc)
  exact tokens_of_next?_some hnext

theorem tokens_cons_of_isBoundary {c : Char} (hc : isBoundary c = true) (t : Text) :
    tokens (c :: t) = tokens [c] ++ tokens t := by
  simp only [isBoundary, Bool.or_eq_true] at hc
  rcases hc with hblank | htight
  · have hgap : ∀ d ∈ [c], isBlank d = true := List.forall_mem_singleton.mpr hblank
    rw [tokens_of_blank hgap, List.nil_append]
    exact tokens_blank_append hgap t
  · rw [tokens_cons_of_isTightChar htight t, tokens_cons_of_isTightChar htight [], tokens_nil]
    rfl

/-- The tokens of a text with a boundary between two parts are the tokens of both. -/
theorem tokens_append_of_parts {t : Text} (ht : Parts t) (tail : Text) :
    tokens (t ++ tail) = tokens t ++ tokens tail := by
  rcases List.eq_nil_or_concat t with rfl | ⟨before, c, rfl⟩
  · rw [tokens_nil]
    rfl
  · have hc : isBoundary c = true := ht c (by simp)
    have hbreaks := breaks_cons (Token.isBreak_of_isBoundary hc)
    rw [List.concat_eq_append, List.append_assoc, List.singleton_append,
      tokens_append_of_breaks before (hbreaks tail), tokens_append_of_breaks before (hbreaks []),
      tokens_cons_of_isBoundary hc, List.append_assoc]

end Reckoner
