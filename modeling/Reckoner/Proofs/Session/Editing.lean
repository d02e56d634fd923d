import Reckoner.Proofs.Session.Keys

/-!
# Editing the entry

A key enters its token behind those that are in the entry, whatever these are: it continues
none of them. The erasing key takes a token entered by a key back, together with the spaces
around it, and pressed often enough it empties any entry.
-/
namespace Reckoner

namespace Entry

/-- The keys that enter one token each, for names of certain characters. -/
inductive TokenKey (inName : Char → Bool) : Insertion → Text → Prop where
  | operator (op : Operator) : TokenKey inName .operator [op.symbol]
  | opening : TokenKey inName .opening ['(']
  | closing : TokenKey inName .closing [')']
  | sign : TokenKey inName .sign ['-']
  | reference {name : Text} (hname : ∀ c ∈ name, inName c = true) :
      TokenKey inName .reference (referenceSign :: name)

theorem TokenKey.ne_nil {inName : Char → Bool} {kind : Insertion} {token : Text}
    (h : TokenKey inName kind token) : token ≠ [] := by
  cases h <;> simp

/-- The token of a key is one token more. -/
theorem TokenKey.tokens_insert {kind : Insertion} {token : Text}
    (h : TokenKey isWordChar kind token) (entry : Text) :
    tokens (insert kind token entry) = tokens entry ++ [token] := by
  cases h with
  | operator op => exact tokens_insert_operator entry op
  | opening => exact tokens_insert_opening entry
  | closing => exact tokens_insert_closing entry
  | sign =>
      have hsign := tokens_insert_sign entry (.operator (r := .empty) .sub)
      rwa [List.append_nil] at hsign
  | reference hname => exact tokens_insert_reference entry hname

/-! ## Spaces at the end -/

theorem dropEndSpaces_append_space (entry : Text) :
    dropEndSpaces (entry ++ [' ']) = dropEndSpaces entry := by
  rw [dropEndSpaces, Text.dropEndWhile_concat]
  rfl

theorem dropEndSpaces_concat (entry : Text) {c : Char} (hc : c ≠ ' ') :
    dropEndSpaces (entry ++ [c]) = entry ++ [c] := by
  rw [dropEndSpaces, Text.dropEndWhile_concat, if_neg (by simpa using hc)]

/-- An entry without spaces at its end stays as it is. -/
theorem dropEndSpaces_eq_self {entry : Text} (h : entry.getLast? ≠ some ' ') :
    dropEndSpaces entry = entry := by
  rcases List.eq_nil_or_concat entry with rfl | ⟨before, c, rfl⟩
  · rfl
  · rw [List.concat_eq_append, List.getLast?_concat] at h
    rw [List.concat_eq_append]
    exact dropEndSpaces_concat before fun hc => h (congrArg some hc)

theorem getLast?_dropEndSpaces (entry : Text) : (dropEndSpaces entry).getLast? ≠ some ' ' := by
  have hhead := List.head?_dropWhile_not (· == ' ') entry.reverse
  intro hlast
  rw [dropEndSpaces, Text.dropEndWhile, List.getLast?_reverse] at hlast
  simp [hlast] at hhead

@[simp] theorem dropEndSpaces_idem (entry : Text) :
    dropEndSpaces (dropEndSpaces entry) = dropEndSpaces entry :=
  dropEndSpaces_eq_self (getLast?_dropEndSpaces entry)

theorem dropEndSpaces_partTerm (entry : Text) :
    dropEndSpaces (partTerm entry) = dropEndSpaces entry := by
  unfold partTerm
  split
  · split
    · exact dropEndSpaces_append_space entry
    · rfl
  · rfl

theorem dropEndSpaces_partSign (entry : Text) :
    dropEndSpaces (partSign entry) = dropEndSpaces entry := by
  unfold partSign
  split
  · split
    · rfl
    · exact dropEndSpaces_append_space entry
  · rfl

theorem dropEndSpaces_partOperator (entry : Text) :
    dropEndSpaces (partOperator entry) = dropEndSpaces entry := by
  unfold partOperator
  dsimp only
  split
  · exact dropEndSpaces_idem entry
  · rw [dropEndSpaces_append_space, dropEndSpaces_idem]

/-! ## Erasing what was inserted -/

/-- No symbol is a space, and none is in a reference. -/
theorem not_reference_of_isSymbolChar {c : Char} (h : isSymbolChar c = true) :
    c ≠ ' ' ∧ c ≠ referenceSign ∧ isNameChar c = false := by
  rcases Token.eq_of_isSymbolChar h with ⟨op, rfl⟩ | rfl | rfl
  · cases op <;> decide +kernel
  · decide +kernel
  · decide +kernel

theorem beforeReference?_concat (entry : Text) {c : Char} (hc : c ≠ referenceSign) :
    beforeReference? (entry ++ [c]) = if isNameChar c then beforeReference? entry else none := by
  unfold beforeReference?
  rw [List.reverse_append, List.reverse_singleton, List.singleton_append, List.dropWhile_cons]
  by_cases hname : isNameChar c = true
  · rw [if_pos hname, if_pos hname]
  · rw [if_neg hname, if_neg hname]
    exact if_neg hc

theorem erase_append_space (entry : Text) : erase (entry ++ [' ']) = erase entry := by
  rw [erase, dropEndSpaces_append_space]
  rfl

theorem erase_of_eq_some {entry before : Text}
    (h : beforeReference? (dropEndSpaces entry) = some before) :
    erase entry = dropEndSpaces before := by
  rw [erase]
  simp only [h, Option.getD_some]

theorem erase_of_eq_none {entry : Text} (h : beforeReference? (dropEndSpaces entry) = none) :
    erase entry = dropEndSpaces (dropEndSpaces entry).dropLast := by
  rw [erase]
  simp only [h, Option.getD_none]

/-- Where no reference ends, the last character is taken. -/
theorem erase_concat {entry : Text} {c : Char} (hspace : c ≠ ' ')
    (h : beforeReference? (entry ++ [c]) = none) : erase (entry ++ [c]) = dropEndSpaces entry := by
  have hsame : dropEndSpaces (entry ++ [c]) = entry ++ [c] := dropEndSpaces_concat entry hspace
  rw [erase_of_eq_none (by rwa [hsame]), hsame, List.dropLast_concat]

theorem erase_symbol (entry : Text) {c : Char} (hc : isSymbolChar c = true) :
    erase (entry ++ [c]) = dropEndSpaces entry := by
  obtain ⟨hspace, hsign, hname⟩ := not_reference_of_isSymbolChar hc
  refine erase_concat hspace ?_
  rw [beforeReference?_concat entry hsign, hname]
  rfl

/-- The name of a reference ends in no space. -/
theorem getLast?_reference {name : Text} (hname : ∀ c ∈ name, isNameChar c = true)
    (entry : Text) : (entry ++ referenceSign :: name).getLast? ≠ some ' ' := by
  intro hlast
  rw [List.getLast?_append_of_ne_nil _ (List.cons_ne_nil _ _)] at hlast
  rcases List.mem_cons.mp (List.mem_of_getLast? hlast) with hspace | hspace
  · exact absurd hspace (by decide)
  · exact absurd (hname ' ' hspace) (by decide +kernel)

/-- A reference is taken back as a whole. -/
theorem erase_reference (entry : Text) {name : Text} (hname : ∀ c ∈ name, isNameChar c = true) :
    erase (entry ++ referenceSign :: name) = dropEndSpaces entry := by
  refine erase_of_eq_some ?_
  rw [dropEndSpaces_eq_self (getLast?_reference hname entry)]
  exact beforeReference?_eq_some_iff.mpr ⟨name, rfl, hname⟩

theorem TokenKey.erase_insert {kind : Insertion} {token : Text}
    (h : TokenKey isNameChar kind token) (entry : Text) :
    erase (insert kind token entry) = dropEndSpaces entry := by
  cases h with
  | operator op =>
      rw [insert, erase_append_space, erase_symbol _ (by cases op <;> decide),
        dropEndSpaces_partOperator]
  | opening => rw [insert, erase_symbol _ (by decide), dropEndSpaces_partTerm]
  | closing => rw [insert, erase_symbol _ (by decide), dropEndSpaces_idem]
  | sign =>
      rw [insert, erase_symbol _ (by decide), dropEndSpaces_partSign, dropEndSpaces_partTerm]
  | reference hname => rw [insert, erase_reference _ hname, dropEndSpaces_partTerm]

/-- A digit or a point is taken back, unless it continues a reference. -/
theorem erase_insert_digit {entry : Text} {c : Char} (hc : c.isDigit = true ∨ c = '.')
    (h : beforeReference? entry = none) :
    erase (insert .digit [c] entry) = dropEndSpaces entry := by
  have hspace : c ≠ ' ' := by
    rintro rfl
    exact absurd hc (by decide)
  have hsign : c ≠ referenceSign := by
    rintro rfl
    exact absurd hc (by decide)
  refine erase_concat hspace ?_
  rw [beforeReference?_concat entry hsign, h, ite_self]

/-! ## Erasing anything -/

theorem getLast?_erase (entry : Text) : (erase entry).getLast? ≠ some ' ' :=
  getLast?_dropEndSpaces _

/-- Spaces at the end do not count. -/
@[simp] theorem erase_dropEndSpaces (entry : Text) : erase (dropEndSpaces entry) = erase entry := by
  rw [erase, dropEndSpaces_idem]
  rfl

theorem length_beforeReference?_lt {entry before : Text}
    (h : beforeReference? entry = some before) : before.length < entry.length := by
  obtain ⟨name, rfl, -⟩ := beforeReference?_eq_some_iff.mp h
  simp

theorem length_erase_le (entry : Text) : (erase entry).length ≤ entry.length - 1 := by
  have hkept : (dropEndSpaces entry).length ≤ entry.length :=
    (dropEndSpaces_isPrefix entry).length_le
  refine (dropEndSpaces_isPrefix _).length_le.trans ?_
  cases h : beforeReference? (dropEndSpaces entry) with
  | none =>
      rw [Option.getD_none, List.length_dropLast]
      omega
  | some before =>
      have hlt : before.length < (dropEndSpaces entry).length := length_beforeReference?_lt h
      rw [Option.getD_some]
      omega

end Entry

/-! ## Sessions -/

namespace Session

theorem entry_insert (s : Session) {kind : Insertion} {text : Text} (h : text ≠ []) :
    (s.insert kind text).entry = Entry.insert kind text s.entry := by
  rw [insert, if_neg (by simpa using h)]

/-- Whatever is in the entry, valid or not, a key adds its token behind the tokens there.
A digit behind an operator is a numeral of its own, and one behind a sign has that sign. -/
theorem tokens_entry_insert {kind : Insertion} {token : Text}
    (h : Entry.TokenKey isWordChar kind token) (s : Session) :
    tokens (s.insert kind token).entry = tokens s.entry ++ [token] ∧
      ∀ d : Char, d.isDigit = true →
        let after := (s.insert kind token).insert .digit [d]
        (kind = .operator → tokens after.entry = tokens s.entry ++ [token, [d]]) ∧
          (kind = .sign → tokens after.entry = tokens s.entry ++ [token ++ [d]]) := by
  rw [entry_insert s h.ne_nil]
  refine ⟨h.tokens_insert s.entry, fun d hd => ?_⟩
  intro after
  have hafter : after.entry = Entry.insert kind token s.entry ++ [d] := by
    rw [entry_insert _ (List.cons_ne_nil d []), entry_insert s h.ne_nil]
    rfl
  rw [hafter]
  constructor
  · rintro rfl
    have hparts : Parts (Entry.insert .operator token s.entry) := Entry.parts_append_space _
    rw [(Registry.Denotes.digit (r := .empty) hd).tokens_append hparts, h.tokens_insert,
      List.append_assoc]
    rfl
  · rintro rfl
    cases h
    have hsigned : Numeral.Written (['-'] ++ [d]) ⟨['-'] == ['-'], [d], []⟩ :=
      .whole (by decide) (List.forall_mem_singleton.mpr hd) (List.cons_ne_nil d [])
    exact Entry.tokens_insert_sign s.entry (.numeral (r := .empty) hsigned)

/-- A sign and a digit behind `$x 2.`, where neither the point nor the sign is part of a
numeral before it. -/
theorem tokens_entry_insert_sign :
    let s : Session := { initial with entry := ['$', 'x', ' ', '2', '.'] }
    let after := (s.insert .sign ['-']).insert .digit ['4']
    Entry.TokenKey isWordChar .sign ['-'] ∧ ('4' : Char).isDigit = true ∧
      after.entry = ['$', 'x', ' ', '2', '.', ' ', '-', '4'] ∧
      tokens after.entry = tokens s.entry ++ [['-', '4']] := by
  intro s after
  have hdigit := (tokens_entry_insert .sign s).2 '4' rfl
  exact ⟨.sign, rfl, by decide +kernel, hdigit.2 rfl⟩

/-- Pressing the erasing key often enough empties any entry. -/
theorem entry_performAll_erase {s : Session} {n : Nat} (hn : s.entry.length ≤ n) :
    (s.performAll (List.replicate n .erase)).entry = [] := by
  induction n generalizing s with
  | zero => exact List.eq_nil_of_length_eq_zero (Nat.le_zero.mp hn)
  | succ n ih =>
      have hshorter : s.erase.entry.length ≤ s.entry.length - 1 := Entry.length_erase_le s.entry
      rw [List.replicate_succ, performAll_cons]
      exact ih (hshorter.trans (Nat.sub_le_of_le_add hn))

/-- The erasing key takes back what a key has entered, and the spaces before it. Of any
entry it takes something, all of it at the end, and it leaves no space there; so pressed
once for each character it leaves nothing. -/
theorem entry_erase_insert (s : Session) :
    (∀ kind token, Entry.TokenKey isNameChar kind token →
      (s.insert kind token).erase.entry = Entry.dropEndSpaces s.entry) ∧
    (∀ c : Char, c.isDigit = true ∨ c = '.' → Entry.referenceOffset? s.entry = none →
      (s.insert .digit [c]).erase.entry = Entry.dropEndSpaces s.entry) ∧
    (s.entry ≠ [] → s.erase.entry <+: s.entry ∧ s.erase.entry ≠ s.entry ∧
      s.erase.entry.getLast? ≠ some ' ') ∧
    ∀ n, s.entry.length ≤ n → (s.performAll (List.replicate n .erase)).entry = [] := by
  refine ⟨fun kind token hkey => ?_, fun c hc hnone => ?_, fun hne => ⟨?_, fun heq => ?_, ?_⟩,
    fun n => entry_performAll_erase⟩
  · rw [erase, entry_insert s hkey.ne_nil]
    exact hkey.erase_insert s.entry
  · rw [erase, entry_insert s (List.cons_ne_nil c [])]
    exact Entry.erase_insert_digit hc (Option.map_eq_none_iff.mp hnone)
  · exact Entry.erase_isPrefix s.entry
  · have hshorter : s.erase.entry.length ≤ s.entry.length - 1 := Entry.length_erase_le s.entry
    have hpos := List.length_pos_iff.mpr hne
    rw [heq] at hshorter
    omega
  · exact Entry.getLast?_erase s.entry

/-- Behind `$a 2` and two spaces, the reference to `x²` is taken back as a whole. -/
theorem entry_erase_insert_reference :
    let s : Session := { initial with entry := ['$', 'a', ' ', '2', ' ', ' '] }
    let after := s.insert .reference ['$', 'x', '²']
    after.entry = ['$', 'a', ' ', '2', ' ', ' ', ' ', '$', 'x', '²'] ∧
      after.erase.entry = ['$', 'a', ' ', '2'] ∧
      Entry.referenceOffset? s.entry = none ∧
      (s.insert .digit ['7']).erase.entry = ['$', 'a', ' ', '2'] ∧
      (s.performAll (List.replicate 6 .erase)).entry = [] := by
  intro s after
  have hname : ∀ c ∈ ['x', '²'], isNameChar c = true := List.all_eq_true.mp (by decide +kernel)
  have hnone : Entry.referenceOffset? s.entry = none := by decide +kernel
  obtain ⟨hkey, hdigit, -, hempty⟩ := entry_erase_insert s
  exact ⟨by decide +kernel, hkey .reference _ (.reference hname), hnone,
    hdigit '7' (.inl rfl) hnone, hempty 6 le_rfl⟩

/-! ## Keys in a row -/

/-- Some keys, each with its token. -/
def tokenKeys (keys : List (Insertion × Text)) : List Action :=
  keys.map fun key => .insert key.1 key.2

theorem tokens_performAll_tokenKeys {keys : List (Insertion × Text)}
    (hkeys : ∀ key ∈ keys, Entry.TokenKey isWordChar key.1 key.2) (s : Session) :
    tokens (s.performAll (tokenKeys keys)).entry = tokens s.entry ++ keys.map Prod.snd := by
  induction keys generalizing s with
  | nil => exact (List.append_nil _).symm
  | cons key keys ih =>
      obtain ⟨hkey, hkeys⟩ := List.forall_mem_cons.mp hkeys
      rw [tokenKeys, List.map_cons, performAll_cons, ← tokenKeys, ih hkeys, perform,
        entry_insert s hkey.ne_nil, hkey.tokens_insert, List.append_assoc]
      rfl

/-- As many erasures as there were keys leave what was there before, spaces at its end
apart. -/
theorem dropEndSpaces_performAll_tokenKeys {keys : List (Insertion × Text)}
    (hkeys : ∀ key ∈ keys, Entry.TokenKey isNameChar key.1 key.2) (s : Session) :
    Entry.dropEndSpaces
        (s.performAll (tokenKeys keys ++ List.replicate keys.length .erase)).entry =
      Entry.dropEndSpaces s.entry := by
  induction keys generalizing s with
  | nil => rfl
  | cons key keys ih =>
      obtain ⟨hkey, hkeys⟩ := List.forall_mem_cons.mp hkeys
      -- the first key is the last one to be taken back
      let t := s.perform (.insert key.1 key.2)
      let u := t.performAll (tokenKeys keys ++ List.replicate keys.length .erase)
      have hall : s.performAll (tokenKeys (key :: keys) ++
          List.replicate (key :: keys).length .erase) = u.erase := by
        rw [List.length_cons, List.replicate_succ', ← List.append_assoc, performAll_append]
        rfl
      have hrest : Entry.dropEndSpaces u.entry = Entry.dropEndSpaces t.entry := ih hkeys t
      have herase : u.erase.entry = Entry.dropEndSpaces s.entry :=
        calc Entry.erase u.entry
          _ = Entry.erase (Entry.dropEndSpaces u.entry) := (Entry.erase_dropEndSpaces _).symm
          _ = Entry.erase t.entry := by rw [hrest, Entry.erase_dropEndSpaces]
          _ = Entry.erase (Entry.insert key.1 key.2 s.entry) :=
            congrArg Entry.erase (entry_insert s hkey.ne_nil)
          _ = Entry.dropEndSpaces s.entry := hkey.erase_insert s.entry
      rw [hall, herase, Entry.dropEndSpaces_idem]

end Session

end Reckoner
