import Reckoner.Proofs.Session.Editing

/-!
# The reference at the end

The erasing keys look for a reference at the end of the entry, from its last `$` on, and
take for its name what may be the name of a registered variable. A formula is cut from left
to right, and a name goes on there as long as word characters follow. The two find the same
reference exactly where both classes have, or both lack, all that stands behind the last
`$`. For characters of ASCII that is so; behind `$²` and behind a `$` with a combining mark
it is not.
-/
namespace Reckoner

namespace Entry

/-- The last token of the entry is a reference, and reaches to the end. -/
def EndsInReference (entry before : Text) : Prop :=
  ∃ name, entry = before ++ referenceSign :: name ∧
    (tokens entry).getLast? = some (referenceSign :: name)

/-- What stands behind the last sign of a reference is a name for the editing keys exactly
if it is one for a formula. -/
def Uncontested (entry : Text) : Prop :=
  ∀ before name, entry = before ++ referenceSign :: name → referenceSign ∉ name →
    ((∀ c ∈ name, isNameChar c = true) ↔ ∀ c ∈ name, isWordChar c = true)

/-! ## The last sign -/

section Sign

variable {before before' name name' : Text}

theorem referenceSign_not_mem_of_isNameChar (hname : ∀ c ∈ name, isNameChar c = true) :
    referenceSign ∉ name := by
  intro hmem
  exact absurd (hname referenceSign hmem) (by decide +kernel)

theorem referenceSign_not_mem_of_isWordChar (hname : ∀ c ∈ name, isWordChar c = true) :
    referenceSign ∉ name := by
  intro hmem
  exact absurd (hname referenceSign hmem) (by decide +kernel)

/-- What stands behind the last sign is the run without a sign at the end. -/
theorem takeWhile_reverse_of_not_mem (hname : referenceSign ∉ name) :
    (before ++ referenceSign :: name).reverse.takeWhile (· != referenceSign) = name.reverse := by
  rw [List.reverse_append, List.reverse_cons, List.append_assoc]
  refine takeWhile_run (fun c hc => ?_) (by simp)
  have hmem : c ∈ name := List.mem_reverse.mp hc
  exact bne_iff_ne.mpr fun hsign => hname (hsign ▸ hmem)

/-- There is one last sign only. -/
theorem append_referenceSign_inj
    (h : before ++ referenceSign :: name = before' ++ referenceSign :: name')
    (hname : referenceSign ∉ name) (hname' : referenceSign ∉ name') :
    before = before' ∧ name = name' := by
  have hbehind : name.reverse = name'.reverse := by
    rw [← takeWhile_reverse_of_not_mem hname, h, takeWhile_reverse_of_not_mem hname']
  obtain rfl := List.reverse_inj.mp hbehind
  exact ⟨List.append_cancel_right h, rfl⟩

end Sign

/-! ## The two ways to find a reference -/

section Reference

variable {entry before before' name : Text}

theorem tokens_append_last (hname : ∀ c ∈ name, isWordChar c = true) (before : Text) :
    tokens (before ++ referenceSign :: name) = tokens before ++ [referenceSign :: name] := by
  have hend : Breaks [] := nofun
  have htokens := tokens_append_reference hname before hend
  rwa [List.append_nil, tokens_nil] at htokens

theorem endsInReference_iff :
    EndsInReference entry before ↔
      ∃ name, entry = before ++ referenceSign :: name ∧ ∀ c ∈ name, isWordChar c = true := by
  constructor
  · rintro ⟨name, rfl, hlast⟩
    exact ⟨name, rfl, isWordChar_of_mem_tokens (List.mem_of_getLast? hlast) name rfl⟩
  · rintro ⟨name, rfl, hname⟩
    exact ⟨name, rfl, by rw [tokens_append_last hname, List.getLast?_concat]⟩

/-- The reference is one token more. -/
theorem EndsInReference.dropLast_tokens (h : EndsInReference entry before) :
    (tokens entry).dropLast = tokens before := by
  obtain ⟨name, rfl, hname⟩ := endsInReference_iff.mp h
  rw [tokens_append_last hname, List.dropLast_concat]

theorem EndsInReference.eq_of_beforeReference? (h : EndsInReference entry before)
    (hfound : beforeReference? entry = some before') : before' = before := by
  obtain ⟨name, hentry, hname⟩ := endsInReference_iff.mp h
  obtain ⟨name', hentry', hname'⟩ := beforeReference?_eq_some_iff.mp hfound
  exact (append_referenceSign_inj (hentry'.symm.trans hentry)
    (referenceSign_not_mem_of_isNameChar hname') (referenceSign_not_mem_of_isWordChar hname)).1

/-- On an uncontested entry, and on no other, both ways find the same. -/
theorem uncontested_iff :
    Uncontested entry ↔
      ∀ before, beforeReference? entry = some before ↔ EndsInReference entry before := by
  constructor
  · intro h before
    rw [beforeReference?_eq_some_iff, endsInReference_iff]
    constructor
    · rintro ⟨name, hentry, hname⟩
      exact ⟨name, hentry,
        (h before name hentry (referenceSign_not_mem_of_isNameChar hname)).mp hname⟩
    · rintro ⟨name, hentry, hname⟩
      exact ⟨name, hentry,
        (h before name hentry (referenceSign_not_mem_of_isWordChar hname)).mpr hname⟩
  · rintro h before name rfl -
    have hboth := h before
    simp only [beforeReference?_eq_some_iff, endsInReference_iff, List.append_cancel_left_eq,
      List.cons.injEq, true_and, exists_eq_left'] at hboth
    exact hboth

theorem uncontested_iff_isSome :
    Uncontested entry ↔
      ((beforeReference? entry).isSome = true ↔ ∃ before, EndsInReference entry before) := by
  rw [uncontested_iff, Option.isSome_iff_exists]
  refine ⟨fun h => exists_congr h, fun h before => ⟨fun hfound => ?_, fun hends => ?_⟩⟩
  · obtain ⟨before', hends⟩ := h.mp ⟨before, hfound⟩
    rwa [hends.eq_of_beforeReference? hfound]
  · obtain ⟨before', hfound⟩ := h.mpr ⟨before, hends⟩
    rwa [← hends.eq_of_beforeReference? hfound]

/-- Behind a reference that the editing keys find, there are no spaces. -/
theorem dropEndSpaces_of_beforeReference? (h : beforeReference? entry = some before) :
    dropEndSpaces entry = entry := by
  obtain ⟨name, rfl, hname⟩ := beforeReference?_eq_some_iff.mp h
  exact dropEndSpaces_eq_self (getLast?_reference hname before)

/-- The erasing key takes the reference at the end away if it finds it; if not, it leaves
a shorter one. -/
theorem EndsInReference.tokens_erase_iff (h : EndsInReference (dropEndSpaces entry) before) :
    tokens (erase entry) = tokens before ↔ Uncontested (dropEndSpaces entry) := by
  have hends : ∃ before, EndsInReference (dropEndSpaces entry) before := ⟨before, h⟩
  rw [uncontested_iff_isSome, iff_true_right hends]
  cases hfound : beforeReference? (dropEndSpaces entry) with
  | none =>
      refine iff_of_false (fun htokens => ?_) (by simp)
      obtain ⟨name, hentry, hname⟩ := endsInReference_iff.mp h
      have hne : name ≠ [] := by
        rintro rfl
        rw [beforeReference?_eq_some_iff.mpr ⟨[], hentry, List.forall_mem_nil _⟩] at hfound
        cases hfound
      have hcut : (dropEndSpaces entry).dropLast = before ++ referenceSign :: name.dropLast := by
        rw [hentry, List.dropLast_append_of_ne_nil (List.cons_ne_nil _ _),
          List.dropLast_cons_of_ne_nil hne]
      have hshorter : ∀ c ∈ name.dropLast, isWordChar c = true := fun c hc =>
        hname c (List.dropLast_subset name hc)
      rw [erase_of_eq_none hfound, hcut, tokens_dropEndSpaces,
        tokens_append_last hshorter] at htokens
      exact absurd htokens (by simp)
  | some before' =>
      obtain rfl := h.eq_of_beforeReference? hfound
      refine iff_of_true ?_ rfl
      rw [erase_of_eq_some hfound, tokens_dropEndSpaces]

end Reference

/-! ## Entries that are not contested -/

theorem uncontested_of_forall {entry : Text} (h : ∀ c ∈ entry, isNameChar c = isWordChar c) :
    Uncontested entry := by
  rintro before name rfl -
  have hname : ∀ c ∈ name, isNameChar c = isWordChar c := fun c hc => h c (by simp [hc])
  exact forall₂_congr fun c hc => by rw [hname c hc]

/-- Entries of ASCII characters are not contested. -/
theorem uncontested_of_ascii {entry : Text} (h : ∀ c ∈ entry, c.toNat < 128) :
    Uncontested entry := by
  have hall : ∀ n < 128, isNameChar (.ofNat n) = isWordChar (.ofNat n) := by decide +kernel
  refine uncontested_of_forall fun c hc => ?_
  have hchar := hall c.toNat (h c hc)
  rwa [Char.ofNat_toNat] at hchar

end Entry

/-! ## Sessions -/

namespace Session

theorem eraseReference?_eq_some_iff {s t : Session} {cursor : Option (Nat × Nat)} :
    s.eraseReference? cursor = some t ↔
      (cursor = some (s.entry.length, s.entry.length) ∧
        (Entry.beforeReference? s.entry).isSome = true) ∧ s.erase = t := by
  unfold eraseReference?
  split
  · rename_i h
    simp [h]
  · rename_i h
    simp [h]

theorem isSome_eraseReference?_iff {s : Session} {cursor : Option (Nat × Nat)} :
    (s.eraseReference? cursor).isSome = true ↔
      cursor = some (s.entry.length, s.entry.length) ∧
        (Entry.beforeReference? s.entry).isSome = true := by
  simp [Option.isSome_iff_exists, eraseReference?_eq_some_iff]

/-- The erasing keys find the reference at the end of the entry where a formula has it,
exactly if the entry is not contested. Then what they leave has the tokens of the entry but
the last one. Where the erasing key of the keyboard finds no reference, the session stays
as it is. -/
theorem lastReference_iff_uncontested (s : Session) :
    [Entry.Uncontested s.entry,
      ∀ p, Entry.referenceOffset? s.entry = some p ↔
        ∃ before, Entry.EndsInReference s.entry before ∧ Text.byteLength before = p,
      ∀ cursor, (s.eraseReference? cursor).isSome = true ↔
        cursor = some (s.entry.length, s.entry.length) ∧
          ∃ before, Entry.EndsInReference s.entry before].TFAE ∧
    (∀ before, Entry.EndsInReference (Entry.dropEndSpaces s.entry) before →
      (tokens s.erase.entry = (tokens s.entry).dropLast ↔
        Entry.Uncontested (Entry.dropEndSpaces s.entry))) ∧
    (∀ cursor t, s.eraseReference? cursor = some t → Entry.Uncontested s.entry →
      tokens t.entry = (tokens s.entry).dropLast) ∧
    ∀ cursor, s.eraseReference? cursor = none → s.perform (.eraseReference cursor) = s := by
  refine ⟨?_, fun before h => ?_, fun cursor t h hall => ?_, fun cursor h => ?_⟩
  · tfae_have 1 → 2 := by
      intro hall p
      rw [Entry.referenceOffset?, Option.map_eq_some_iff]
      exact exists_congr fun before => and_congr_left' (Entry.uncontested_iff.mp hall before)
    tfae_have 2 → 1 := by
      intro hoffset
      refine Entry.uncontested_iff_isSome.mpr ?_
      have hsome : (Entry.beforeReference? s.entry).isSome = true ↔
          ∃ p, Entry.referenceOffset? s.entry = some p := by
        rw [← Option.isSome_iff_exists, Entry.referenceOffset?, Option.isSome_map]
      rw [hsome]
      constructor
      · rintro ⟨p, hp⟩
        obtain ⟨before, hends, -⟩ := (hoffset p).mp hp
        exact ⟨before, hends⟩
      · rintro ⟨before, hends⟩
        exact ⟨_, (hoffset _).mpr ⟨before, hends, rfl⟩⟩
    tfae_have 1 ↔ 3 := by
      rw [Entry.uncontested_iff_isSome]
      constructor
      · intro hfinds cursor
        rw [isSome_eraseReference?_iff, hfinds]
      · intro hcursor
        have hend := hcursor (some (s.entry.length, s.entry.length))
        rwa [isSome_eraseReference?_iff, and_iff_right rfl, and_iff_right rfl] at hend
    tfae_finish
  · rw [← Entry.tokens_dropEndSpaces s.entry, h.dropLast_tokens]
    exact h.tokens_erase_iff
  · obtain ⟨⟨-, hsome⟩, rfl⟩ := eraseReference?_eq_some_iff.mp h
    obtain ⟨before, hfound⟩ := Option.isSome_iff_exists.mp hsome
    have hends : Entry.EndsInReference s.entry before :=
      (Entry.uncontested_iff.mp hall before).mp hfound
    have hspaces : Entry.dropEndSpaces s.entry = s.entry :=
      Entry.dropEndSpaces_of_beforeReference? hfound
    rw [hends.dropLast_tokens]
    rw [← hspaces] at hends hall
    exact hends.tokens_erase_iff.mpr hall
  · rw [perform, h, Option.getD_none]

/-- The reference in `2*$é_1` is found where a formula has it, and taken away. -/
theorem lastReference_found :
    let s : Session := { initial with entry := ['2', '*', '$', 'é', '_', '1'] }
    Entry.Uncontested s.entry ∧ Entry.EndsInReference s.entry ['2', '*'] ∧
      Entry.referenceOffset? s.entry = some 2 ∧
      (s.eraseReference? (some (6, 6))).isSome = true ∧
      tokens s.erase.entry = (tokens s.entry).dropLast := by
  intro s
  have hsame : ∀ c ∈ s.entry, (isNameChar c == isWordChar c) = true :=
    List.all_eq_true.mp (by decide +kernel)
  have hall : Entry.Uncontested s.entry :=
    Entry.uncontested_of_forall fun c hc => eq_of_beq (hsame c hc)
  have hword : ∀ c ∈ ['é', '_', '1'], isWordChar c = true :=
    List.all_eq_true.mp (by decide +kernel)
  have hends : Entry.EndsInReference s.entry ['2', '*'] :=
    Entry.endsInReference_iff.mpr ⟨_, rfl, hword⟩
  obtain ⟨hboth, herase, -, -⟩ := lastReference_iff_uncontested s
  have hoffset := (hboth.out 0 1).mp hall
  have hcursor := (hboth.out 0 2).mp hall
  exact ⟨hall, hends, (hoffset 2).mpr ⟨_, hends, by decide⟩,
    (hcursor _).mpr ⟨rfl, _, hends⟩, (herase _ hends).mpr hall⟩

/-- In `$²` the editing keys find a reference at the start, though no formula has one at
the end. In a reference to `e` with an accent as a mark of its own they find none, and
erase the mark only. -/
theorem exists_lastReference_contested :
    let s : Session := { initial with entry := ['$', '²'] }
    let t : Session := { initial with entry := ['$', 'e', '\u0301'] }
    (Entry.referenceOffset? s.entry = some 0 ∧
      (∀ before, ¬ Entry.EndsInReference s.entry before) ∧
      (s.eraseReference? (some (2, 2))).isSome = true) ∧
    Entry.EndsInReference t.entry [] ∧ Entry.referenceOffset? t.entry = none ∧
      tokens t.erase.entry = [['$', 'e']] := by
  intro s t
  have hnone : ∀ before, ¬ Entry.EndsInReference s.entry before := by
    intro before h
    obtain ⟨name, hentry, hname⟩ := Entry.endsInReference_iff.mp h
    have hlast : [] ++ referenceSign :: ['²'] = before ++ referenceSign :: name := hentry
    obtain ⟨-, rfl⟩ := Entry.append_referenceSign_inj hlast (by decide)
      (Entry.referenceSign_not_mem_of_isWordChar hname)
    exact absurd (hname '²' (List.mem_singleton.mpr rfl)) (by decide +kernel)
  have hmark : ∀ c ∈ ['e', '\u0301'], isWordChar c = true :=
    List.all_eq_true.mp (by decide +kernel)
  have hletter : ∀ c ∈ ['e'], isWordChar c = true := List.all_eq_true.mp (by decide +kernel)
  have herase : t.erase.entry = ['$', 'e'] := by decide +kernel
  refine ⟨⟨by decide +kernel, hnone, by decide +kernel⟩,
    Entry.endsInReference_iff.mpr ⟨_, rfl, hmark⟩, by decide +kernel, ?_⟩
  rw [herase]
  exact tokens_reference hletter

end Session

end Reckoner
