import Mathlib.Data.List.Basic
import Mathlib.Data.List.TakeWhile
import Reckoner.Numeral

/-!
# How numerals are written

The texts that are numerals: a sign or none, then digits, with a point before the
last of them or none. A text is parsed as a numeral exactly where it is one, and a
numeral at the start of a longer text is taken off it whole, as long as what
follows cannot make it longer.
-/
namespace Reckoner.Numeral

def signs : List Text := [[], ['-'], ['+']]

/-- The text is a way to write the numeral. -/
inductive Written : Text → Numeral → Prop where
  | whole {sign digits : Text} (hsign : sign ∈ signs) (hdigits : ∀ c ∈ digits, c.isDigit = true)
      (hne : digits ≠ []) : Written (sign ++ digits) ⟨sign == ['-'], digits, []⟩
  | fraction {sign digits decimals : Text} (hsign : sign ∈ signs)
      (hdigits : ∀ c ∈ digits, c.isDigit = true) (hdecimals : ∀ c ∈ decimals, c.isDigit = true)
      (hne : decimals ≠ []) :
      Written (sign ++ (digits ++ '.' :: decimals)) ⟨sign == ['-'], digits, decimals⟩

/-- What cannot make a numeral before it longer. -/
def Ends (rest : Text) : Prop := ∀ c ∈ rest.head?, c.isDigit = false ∧ c ≠ '.'

/-! ## Signs -/

theorem takeSign_mem_signs (t : Text) : (takeSign t).1 ∈ signs := by
  unfold takeSign
  split <;> simp [signs]

theorem takeSign_sign_append {sign body : Text} (hsign : sign ∈ signs)
    (hbody : ∀ c ∈ body.head?, c ≠ '-' ∧ c ≠ '+') : takeSign (sign ++ body) = (sign, body) := by
  simp only [signs, List.mem_cons, List.not_mem_nil, or_false] at hsign
  rcases hsign with rfl | rfl | rfl
  · unfold takeSign
    split
    · exact absurd rfl (hbody '-' (by simp_all)).1
    · exact absurd rfl (hbody '+' (by simp_all)).2
    · rfl
  · rfl
  · rfl

theorem not_sign_of_isDigit {c : Char} (h : c.isDigit = true) : c ≠ '-' ∧ c ≠ '+' := by
  constructor
  · rintro rfl
    exact absurd h (by decide)
  · rintro rfl
    exact absurd h (by decide)

theorem not_sign_of_digits {digits : Text} (hdigits : ∀ c ∈ digits, c.isDigit = true) :
    ∀ c ∈ digits.head?, c ≠ '-' ∧ c ≠ '+' :=
  fun c hc => not_sign_of_isDigit (hdigits c (List.mem_of_head? hc))

theorem not_sign_of_point {digits decimals : Text} (hdigits : ∀ c ∈ digits, c.isDigit = true) :
    ∀ c ∈ (digits ++ '.' :: decimals).head?, c ≠ '-' ∧ c ≠ '+' := by
  intro c hc
  cases digits with
  | nil =>
      obtain rfl : '.' = c := by simpa using hc
      decide
  | cons d digits =>
      obtain rfl : d = c := by simpa using hc
      exact not_sign_of_isDigit (hdigits d (by simp))

/-! ## Parsing a whole text -/

theorem parse?_of_written {t : Text} {n : Numeral} (h : Written t n) : parse? t = some n := by
  cases h with
  | @whole sign digits hsign hdigits hne =>
      have htake := List.takeWhile_eq_self_iff.mpr hdigits
      have hdrop := List.dropWhile_eq_nil_iff.mpr hdigits
      simp only [parse?, takeSign_sign_append hsign (not_sign_of_digits hdigits), htake, hdrop]
      simp [hne]
  | @fraction sign digits decimals hsign hdigits hdecimals hne =>
      have hpoint : ∀ c ∈ ('.' :: decimals).head?, c.isDigit = false := by simp
      simp only [parse?, takeSign_sign_append hsign (not_sign_of_point hdigits),
        takeWhile_run hdigits hpoint, dropWhile_run hdigits hpoint]
      simp [hne, List.all_eq_true.mpr hdecimals]

theorem written_of_parse? {t : Text} {n : Numeral} (h : parse? t = some n) : Written t n := by
  unfold parse? at h
  have hsign := takeSign_mem_signs t
  have happ := takeSign_append t
  generalize takeSign t = taken at h hsign happ
  obtain ⟨sign, body⟩ := taken
  dsimp only at h hsign happ
  have hdigits : ∀ c ∈ body.takeWhile Char.isDigit, c.isDigit = true := fun c hc =>
    List.mem_takeWhile_imp hc
  have hbody := List.takeWhile_append_dropWhile (p := Char.isDigit) (l := body)
  -- behind the digits there is nothing, or a point, or what is no numeral
  split at h
  · rename_i hdrop
    split at h
    · simp at h
    · rename_i hne
      obtain rfl := Option.some.inj h
      rw [hdrop, List.append_nil] at hbody
      have hwritten := Written.whole hsign hdigits (by simpa using hne)
      rwa [hbody, happ, ← hbody] at hwritten
  · rename_i decimals hdrop
    split at h
    · rename_i hdecimals
      obtain rfl := Option.some.inj h
      simp only [Bool.and_eq_true, Bool.not_eq_true', List.isEmpty_eq_false_iff,
        List.all_eq_true] at hdecimals
      rw [hdrop] at hbody
      have hwritten := Written.fraction hsign hdigits hdecimals.2 hdecimals.1
      rwa [hbody, happ] at hwritten
    · simp at h
  · simp at h

/-- The texts that parse are the numerals. -/
theorem parse?_eq_some_iff {t : Text} {n : Numeral} : parse? t = some n ↔ Written t n :=
  ⟨written_of_parse?, parse?_of_written⟩

/-- A text is one numeral at most. -/
theorem Written.unique {t : Text} {n m : Numeral} (hn : Written t n) (hm : Written t m) : n = m :=
  Option.some.inj ((parse?_of_written hn).symm.trans (parse?_of_written hm))

/-! ## The characters of a numeral -/

theorem Written.ne_nil {t : Text} {n : Numeral} (h : Written t n) : t ≠ [] := by
  rintro rfl
  cases parse?_of_written h

/-- Behind a sign or none there are only digits and the point. -/
theorem Written.exists_sign {t : Text} {n : Numeral} (h : Written t n) :
    ∃ sign ∈ signs, ∃ body, t = sign ++ body ∧ ∀ c ∈ body, c.isDigit = true ∨ c = '.' := by
  cases h with
  | @whole sign digits hsign hdigits hne =>
      exact ⟨sign, hsign, digits, rfl, fun c hc => .inl (hdigits c hc)⟩
  | @fraction sign digits decimals hsign hdigits hdecimals hne =>
      refine ⟨sign, hsign, digits ++ '.' :: decimals, rfl, fun c hc => ?_⟩
      rcases List.mem_append.mp hc with hc | hc
      · exact .inl (hdigits c hc)
      · rcases List.mem_cons.mp hc with rfl | hc
        · exact .inr rfl
        · exact .inl (hdecimals c hc)

theorem Written.mem_cases {t : Text} {n : Numeral} (h : Written t n) {c : Char} (hc : c ∈ t) :
    (c.isDigit = true ∨ c = '.') ∨ c = '-' ∨ c = '+' := by
  obtain ⟨sign, hsign, body, rfl, hbody⟩ := h.exists_sign
  rcases List.mem_append.mp hc with hc | hc
  · simp only [signs, List.mem_cons, List.not_mem_nil, or_false] at hsign
    rcases hsign with rfl | rfl | rfl
    · cases hc
    · exact .inr (.inl (List.mem_singleton.mp hc))
    · exact .inr (.inr (List.mem_singleton.mp hc))
  · exact .inl (hbody c hc)

/-- A sign stands nowhere but in front. -/
theorem Written.mem_tail_cases {c : Char} {t : Text} {n : Numeral} (h : Written (c :: t) n) :
    ∀ d ∈ t, d.isDigit = true ∨ d = '.' := by
  intro d hd
  obtain ⟨sign, hsign, body, hlist, hbody⟩ := h.exists_sign
  simp only [signs, List.mem_cons, List.not_mem_nil, or_false] at hsign
  rcases hsign with rfl | rfl | rfl
  · rw [List.nil_append] at hlist
    exact hbody d (hlist ▸ List.mem_cons_of_mem c hd)
  · obtain ⟨-, rfl⟩ := List.cons.inj hlist
    exact hbody d hd
  · obtain ⟨-, rfl⟩ := List.cons.inj hlist
    exact hbody d hd

/-! ## Where a numeral starts -/

/-- A digit begins the text, or a point with a digit behind it. -/
def Starts (t : Text) : Prop := ∃ d, d.isDigit = true ∧ ([d] <+: t ∨ ['.', d] <+: t)

theorem not_starts_nil : ¬ Starts [] := by
  rintro ⟨d, -, h | h⟩
  · simp at h
  · simp at h

theorem starts_cons_iff {c : Char} {rest : Text} :
    Starts (c :: rest) ↔ c.isDigit = true ∨ c = '.' ∧ ∃ d ∈ rest.head?, d.isDigit = true := by
  unfold Starts
  simp only [List.cons_prefix_cons, List.nil_prefix, and_true]
  constructor
  · rintro ⟨d, hd, rfl | ⟨rfl, tail, rfl⟩⟩
    · exact .inl hd
    · exact .inr ⟨rfl, d, rfl, hd⟩
  · rintro (hc | ⟨rfl, d, hd, hdigit⟩)
    · exact ⟨c, hc, .inl rfl⟩
    · cases rest with
      | nil => cases hd
      | cons e rest =>
          obtain rfl := Option.some.inj hd
          exact ⟨e, hdigit, .inr ⟨rfl, rest, rfl⟩⟩

theorem Ends.not_starts {rest : Text} (h : Ends rest) : ¬ Starts rest := by
  cases rest with
  | nil => exact not_starts_nil
  | cons c rest =>
      obtain ⟨hdigit, hpoint⟩ := h c rfl
      rw [starts_cons_iff]
      rintro (hc | ⟨hc, -⟩)
      · rw [hdigit] at hc
        cases hc
      · exact hpoint hc

theorem isSome_takeUnsigned?_iff {t : Text} : (takeUnsigned? t).isSome = true ↔ Starts t := by
  cases t with
  | nil => exact iff_of_false (by simp [takeUnsigned?, takeFraction?]) not_starts_nil
  | cons c rest =>
      rw [starts_cons_iff]
      by_cases hc : c.isDigit = true
      · refine iff_of_true ?_ (.inl hc)
        unfold takeUnsigned?
        dsimp only
        split
        · rfl
        · simp [hc]
      · -- without a digit in front there must be a fraction
        have hfraction : takeUnsigned? (c :: rest) = takeFraction? (c :: rest) := by
          unfold takeUnsigned?
          simp only [List.takeWhile_cons_of_neg hc, List.dropWhile_cons_of_neg hc]
          cases takeFraction? (c :: rest) <;> simp
        rw [hfraction]
        unfold takeFraction?
        split
        · rename_i d tail heq
          obtain ⟨rfl, rfl⟩ := List.cons.inj heq
          by_cases hd : d.isDigit = true <;> simp [hd]
        · rename_i hne
          refine iff_of_false nofun ?_
          rintro (hdigit | ⟨rfl, d, hd, -⟩)
          · exact hc hdigit
          · cases rest with
            | nil => cases hd
            | cons e rest => exact hne e rest rfl

theorem isSome_take?_sign_iff {c : Char} {rest : Text} (hc : c = '-' ∨ c = '+') :
    (take? (c :: rest)).isSome = true ↔ Starts rest := by
  rw [← isSome_takeUnsigned?_iff]
  rcases hc with rfl | rfl <;> simp [take?, takeSign]

theorem isSome_take?_iff_of_not_sign {c : Char} {rest : Text} (hc : c ≠ '-' ∧ c ≠ '+') :
    (take? (c :: rest)).isSome = true ↔ Starts (c :: rest) := by
  have htake : takeSign ([] ++ c :: rest) = ([], c :: rest) :=
    takeSign_sign_append (by simp [signs]) (by simpa using hc)
  rw [List.nil_append] at htake
  rw [← isSome_takeUnsigned?_iff]
  simp [take?, htake]

/-- A sign in front of neither a digit nor the point begins no numeral. -/
theorem take?_sign_of_ends {c : Char} {rest : Text} (hc : c = '-' ∨ c = '+') (h : Ends rest) :
    take? (c :: rest) = none :=
  Option.not_isSome_iff_eq_none.mp ((isSome_take?_sign_iff hc).not.mpr h.not_starts)

theorem take?_cons_eq_none {c : Char} {rest : Text} (hdigit : c.isDigit = false) (hpoint : c ≠ '.')
    (hsign : c ≠ '-' ∧ c ≠ '+') : take? (c :: rest) = none := by
  have hends : Ends (c :: rest) := by simpa [Ends] using ⟨hdigit, hpoint⟩
  exact Option.not_isSome_iff_eq_none.mp
    ((isSome_take?_iff_of_not_sign hsign).not.mpr hends.not_starts)

/-! ## The numeral at the start of a text -/

theorem takeFraction?_of_ends {rest : Text} (h : Ends rest) : takeFraction? rest = none := by
  unfold takeFraction?
  split
  · exact absurd rfl (h '.' rfl).2
  · rfl

theorem takeUnsigned?_digits {digits rest : Text} (hdigits : ∀ c ∈ digits, c.isDigit = true)
    (hne : digits ≠ []) (hrest : Ends rest) :
    takeUnsigned? (digits ++ rest) = some (digits, rest) := by
  have hstop : ∀ c ∈ rest.head?, c.isDigit = false := fun c hc => (hrest c hc).1
  simp only [takeUnsigned?, takeWhile_run hdigits hstop, dropWhile_run hdigits hstop,
    takeFraction?_of_ends hrest]
  simp [hne]

theorem takeUnsigned?_fraction {digits decimals rest : Text}
    (hdigits : ∀ c ∈ digits, c.isDigit = true) (hdecimals : ∀ c ∈ decimals, c.isDigit = true)
    (hne : decimals ≠ []) (hrest : Ends rest) :
    takeUnsigned? (digits ++ '.' :: decimals ++ rest) = some (digits ++ '.' :: decimals, rest) := by
  have hstop : ∀ c ∈ rest.head?, c.isDigit = false := fun c hc => (hrest c hc).1
  have hpoint : ∀ c ∈ ('.' :: (decimals ++ rest)).head?, c.isDigit = false := by simp
  have hfraction : takeFraction? ('.' :: (decimals ++ rest)) = some ('.' :: decimals, rest) := by
    cases decimals with
    | nil => exact absurd rfl hne
    | cons d decimals =>
        have htail : ∀ c ∈ decimals, c.isDigit = true := fun c hc => hdecimals c (by simp [hc])
        simp [takeFraction?, hdecimals d (by simp), takeWhile_run htail hstop,
          dropWhile_run htail hstop]
  rw [List.append_assoc, List.cons_append]
  simp only [takeUnsigned?, takeWhile_run hdigits hpoint, dropWhile_run hdigits hpoint, hfraction]

theorem take?_sign_append {sign body rest : Text} (hsign : sign ∈ signs)
    (hbody : ∀ c ∈ body.head?, c ≠ '-' ∧ c ≠ '+') (hne : body ≠ []) :
    take? (sign ++ (body ++ rest)) =
      (takeUnsigned? (body ++ rest)).map fun found => (sign ++ found.1, found.2) := by
  have hhead : ∀ c ∈ (body ++ rest).head?, c ≠ '-' ∧ c ≠ '+' := by
    intro c hc
    rw [List.head?_append_of_ne_nil body hne] at hc
    exact hbody c hc
  simp only [take?, takeSign_sign_append hsign hhead]

/-- A numeral is taken off whole. -/
theorem take?_of_written {t rest : Text} {n : Numeral} (h : Written t n) (hrest : Ends rest) :
    take? (t ++ rest) = some (t, rest) := by
  cases h with
  | @whole sign digits hsign hdigits hne =>
      rw [List.append_assoc, take?_sign_append hsign (not_sign_of_digits hdigits) hne,
        takeUnsigned?_digits hdigits hne hrest]
      rfl
  | @fraction sign digits decimals hsign hdigits hdecimals hne =>
      rw [List.append_assoc, take?_sign_append hsign (not_sign_of_point hdigits) (by simp),
        takeUnsigned?_fraction hdigits hdecimals hne hrest]
      rfl

/-! ## The longest numeral -/

theorem written_of_takeFraction? {sign whole t fraction rest : Text} (hsign : sign ∈ signs)
    (hwhole : ∀ c ∈ whole, c.isDigit = true) (h : takeFraction? t = some (fraction, rest)) :
    ∃ n, Written (sign ++ (whole ++ fraction)) n := by
  unfold takeFraction? at h
  split at h
  · rename_i d tail
    split at h
    · rename_i hd
      simp only [Option.some.injEq, Prod.mk.injEq] at h
      obtain ⟨rfl, rfl⟩ := h
      have hdecimals : ∀ c ∈ d :: tail.takeWhile Char.isDigit, c.isDigit = true :=
        List.forall_mem_cons.mpr ⟨hd, fun c hc => List.mem_takeWhile_imp hc⟩
      exact ⟨_, .fraction hsign hwhole hdecimals (by simp)⟩
    · cases h
  · cases h

/-- What is taken off is a numeral. -/
theorem written_of_take? {t token rest : Text} (h : take? t = some (token, rest)) :
    ∃ n, Written token n := by
  have hsign := takeSign_mem_signs t
  unfold take? at h
  dsimp only at h
  obtain ⟨⟨digits, after⟩, hdigits, heq⟩ := Option.map_eq_some_iff.mp h
  simp only [Prod.mk.injEq] at heq
  obtain ⟨rfl, rfl⟩ := heq
  have hwhole : ∀ c ∈ (takeSign t).2.takeWhile Char.isDigit, c.isDigit = true := fun c hc =>
    List.mem_takeWhile_imp hc
  unfold takeUnsigned? at hdigits
  dsimp only at hdigits
  split at hdigits
  · rename_i fraction after hfraction
    simp only [Option.some.injEq, Prod.mk.injEq] at hdigits
    obtain ⟨rfl, rfl⟩ := hdigits
    exact written_of_takeFraction? hsign hwhole hfraction
  · split at hdigits
    · cases hdigits
    · rename_i hne
      simp only [Option.some.injEq, Prod.mk.injEq] at hdigits
      obtain ⟨rfl, rfl⟩ := hdigits
      exact ⟨_, .whole hsign hwhole (by simpa using hne)⟩

theorem exists_takeUnsigned?_digits {digits : Text} (hdigits : ∀ c ∈ digits, c.isDigit = true)
    (hne : digits ≠ []) (rest : Text) :
    ∃ found, takeUnsigned? (digits ++ rest) = some found ∧ digits.length ≤ found.1.length := by
  have htake : (digits ++ rest).takeWhile Char.isDigit = digits ++ rest.takeWhile Char.isDigit :=
    List.takeWhile_append_of_pos hdigits
  unfold takeUnsigned?
  dsimp only
  rw [htake]
  split
  · rename_i fraction after hfraction
    refine ⟨_, rfl, ?_⟩
    simp only [List.length_append]
    omega
  · have hnonempty : ¬ (digits ++ rest.takeWhile Char.isDigit).isEmpty = true := by simp [hne]
    rw [if_neg hnonempty]
    exact ⟨_, rfl, by simp⟩

theorem exists_takeUnsigned?_fraction {digits decimals : Text}
    (hdigits : ∀ c ∈ digits, c.isDigit = true) (hdecimals : ∀ c ∈ decimals, c.isDigit = true)
    (hne : decimals ≠ []) (rest : Text) :
    ∃ found, takeUnsigned? (digits ++ '.' :: decimals ++ rest) = some found ∧
      (digits ++ '.' :: decimals).length ≤ found.1.length := by
  cases decimals with
  | nil => exact absurd rfl hne
  | cons d decimals =>
      obtain ⟨hd, htail⟩ := List.forall_mem_cons.mp hdecimals
      have hpoint : ∀ c ∈ ('.' :: d :: (decimals ++ rest)).head?, c.isDigit = false := by simp
      have htake : (decimals ++ rest).takeWhile Char.isDigit =
          decimals ++ rest.takeWhile Char.isDigit := List.takeWhile_append_of_pos htail
      have hlist : digits ++ '.' :: d :: decimals ++ rest =
          digits ++ '.' :: d :: (decimals ++ rest) := by simp
      rw [hlist]
      simp only [takeUnsigned?, takeWhile_run hdigits hpoint, dropWhile_run hdigits hpoint,
        takeFraction?, hd, if_true, htake]
      refine ⟨_, rfl, ?_⟩
      simp only [List.length_append, List.length_cons]
      omega

/-- Where a numeral is written one is taken off, and it is no shorter. -/
theorem exists_take?_of_written {token : Text} {n : Numeral} (h : Written token n) (rest : Text) :
    ∃ found, take? (token ++ rest) = some found ∧ token.length ≤ found.1.length := by
  cases h with
  | @whole sign digits hsign hdigits hne =>
      obtain ⟨found, hfound, hlen⟩ := exists_takeUnsigned?_digits hdigits hne rest
      refine ⟨(sign ++ found.1, found.2), ?_, by simpa using hlen⟩
      rw [List.append_assoc, take?_sign_append hsign (not_sign_of_digits hdigits) hne, hfound]
      rfl
  | @fraction sign digits decimals hsign hdigits hdecimals hne =>
      obtain ⟨found, hfound, hlen⟩ := exists_takeUnsigned?_fraction hdigits hdecimals hne rest
      refine ⟨(sign ++ found.1, found.2), ?_, by simpa using hlen⟩
      rw [List.append_assoc, take?_sign_append hsign (not_sign_of_point hdigits) (by simp), hfound]
      rfl

/-- The numeral taken off is the longest one that the text begins with. -/
theorem take?_eq_some_iff {t token rest : Text} :
    take? t = some (token, rest) ↔ token ++ rest = t ∧ (∃ n, Written token n) ∧
      ∀ longer n, longer <+: t → Written longer n → longer.length ≤ token.length := by
  constructor
  · intro h
    refine ⟨take?_append h, written_of_take? h, ?_⟩
    rintro longer n ⟨after, rfl⟩ hlonger
    obtain ⟨found, hfound, hlen⟩ := exists_take?_of_written hlonger after
    obtain rfl := Option.some.inj (h.symm.trans hfound)
    exact hlen
  · rintro ⟨rfl, ⟨n, hwritten⟩, hlongest⟩
    obtain ⟨⟨found, after⟩, hfound, hlen⟩ := exists_take?_of_written hwritten rest
    have happ := take?_append hfound
    obtain ⟨m, hm⟩ := written_of_take? hfound
    have hle := hlongest found m ⟨after, happ⟩ hm
    obtain ⟨rfl, rfl⟩ := List.append_inj happ (Nat.le_antisymm hle hlen)
    exact hfound

end Reckoner.Numeral
