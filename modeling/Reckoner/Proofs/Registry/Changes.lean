import Mathlib.Data.List.Basic
import Mathlib.Data.Set.Card
import Reckoner.Proofs.Text.ByteOrder
import Reckoner.Registry

/-!
# What a registry holds after a run

Names are registered and removed one by one, and cleared all at once, in any order. Two accounts
of what is then registered are compared: the registry that the changes build step by step, and
the changes themselves, where the last one that touches a name says what it stands for.

A registry is told by what it answers for each name, so two runs with the same answers end in
the same list.
-/
namespace Reckoner

inductive Change
  | register (name : Text) (value : Float)
  | remove (name : Text)
  | clear

namespace Change

/-- The name that a change is about, if it is about one. -/
def name? : Change → Option Text
  | register name _ | remove name => some name
  | clear => none

/-- The value that the names touched by a change have after it. -/
def value? : Change → Option Float
  | register _ value => some value
  | remove _ | clear => none

/-- A change touches a name if what the name had before has no part in what it has after. -/
def Touches : Change → Text → Prop
  | register other _, name | remove other, name => other = name
  | clear, _ => True

instance : DecidableRel Touches
  | register other _, name | remove other, name => inferInstanceAs (Decidable (other = name))
  | clear, _ => inferInstanceAs (Decidable True)

variable {c : Change} {m n : Text} {v : Float}

theorem touches_iff_of_name? (h : c.name? = some m) : c.Touches n ↔ m = n := by
  cases c with
  | register | remove => rw [Touches, Option.some.inj h]
  | clear => cases h

theorem value?_eq_some_iff (h : c.Touches n) : c.value? = some v ↔ c = register n v := by
  cases c with
  | register =>
      rw [Touches] at h
      simp [value?, h]
  | remove | clear => simp [value?]

/-- A name without a value after a change that touches it was removed, or cleared with all. -/
theorem value?_eq_none_iff (h : c.Touches n) : c.value? = none ↔ c = remove n ∨ c = clear := by
  cases c with
  | register => simp [value?]
  | remove =>
      rw [Touches] at h
      simp [value?, h]
  | clear => simp [value?]

end Change

namespace Registry

/-! ## The entries and the answers -/

section Entries

variable (r : Registry)

theorem nodup_names : (r.entries.map Prod.fst).Nodup := by
  refine List.pairwise_map.mpr (r.increasing.imp fun hlt heq => ?_)
  exact List.lt_irrefl _ (heq ▸ hlt)

variable {r}

theorem mem_entries_iff {n : Text} {v : Float} : (n, v) ∈ r.entries ↔ r.get? n = some v := by
  constructor
  · intro hmem
    have hfound : (r.entries.find? (·.1 == n)).isSome :=
      List.find?_isSome.mpr ⟨(n, v), hmem, beq_self_eq_true n⟩
    obtain ⟨e, he⟩ := Option.isSome_iff_exists.mp hfound
    have hname : e.1 = n := by simpa using List.find?_some he
    have heq : e = (n, v) :=
      List.inj_on_of_nodup_map r.nodup_names (List.mem_of_find?_eq_some he) hmem hname
    rw [get?, he, heq]
    rfl
  · intro hget
    obtain ⟨e, he, rfl⟩ := Option.map_eq_some_iff.mp hget
    have hname : e.1 = n := by simpa using List.find?_some he
    exact hname ▸ List.mem_of_find?_eq_some he

/-- Registries with the same answers list the same entries, in the same order. -/
theorem ext_get? {s : Registry} (h : ∀ n, r.get? n = s.get? n) : r = s := by
  have hmem : ∀ e, e ∈ r.entries ↔ e ∈ s.entries := fun (n, v) => by
    rw [mem_entries_iff, mem_entries_iff, h]
  have hperm : r.entries.Perm s.entries :=
    (List.perm_ext_iff_of_nodup r.nodup_names.of_map s.nodup_names.of_map).mpr hmem
  have hentries : r.entries = s.entries :=
    hperm.eq_of_pairwise (fun _ _ _ _ hlt hgt => absurd hgt (List.lt_asymm hlt))
      r.increasing s.increasing
  cases r
  cases s
  congr

variable (r)

/-- The size of a registry is the number of names with a value. -/
theorem encard_registered : {n | (r.get? n).isSome}.encard = r.size := by
  have hnames : {n | (r.get? n).isSome} = ((r.entries.map Prod.fst).toFinset : Set Text) := by
    ext n
    simp [Option.isSome_iff_exists, mem_entries_iff]
  rw [hnames, Set.encard_coe_eq_coe_finsetCard, List.toFinset_card_of_nodup r.nodup_names,
    List.length_map, size]

theorem isEmpty_iff_size_eq_zero : r.isEmpty ↔ r.size = 0 := by
  rw [isEmpty, size, List.isEmpty_iff, List.length_eq_zero_iff]

theorem pairwise_utf8 : r.entries.Pairwise (fun a b => a.1.utf8 < b.1.utf8) :=
  r.increasing.imp Text.utf8_lt_iff.mpr

end Entries

/-! ## One change -/

def apply (r : Registry) : Change → Registry
  | .register name value => r.insert name value
  | .remove name => (r.remove name).2
  | .clear => empty

section Apply

variable (r : Registry) {c d : Change} {m n : Text}

theorem get?_apply_of_touches (h : c.Touches n) : (r.apply c).get? n = c.value? := by
  cases c with
  | register =>
      rw [Change.Touches] at h
      exact h ▸ get?_insert_self r _ _
  | remove =>
      rw [Change.Touches] at h
      rw [apply, remove_eq, h]
      exact get?_erase_self r n
  | clear => rfl

theorem get?_apply_of_not_touches (h : ¬ c.Touches n) : (r.apply c).get? n = r.get? n := by
  cases c with
  | register => exact get?_insert_of_ne r _ fun heq => h heq.symm
  | remove =>
      rw [apply, remove_eq]
      exact get?_erase_of_ne r fun heq => h heq.symm
  | clear => exact absurd trivial h

/-- What one change does: a name has the value that it is given, or the one that it keeps. -/
theorem get?_apply_eq_some_iff {v : Float} :
    (r.apply c).get? n = some v ↔ c = .register n v ∨ ¬ c.Touches n ∧ r.get? n = some v := by
  by_cases h : c.Touches n
  · rw [get?_apply_of_touches r h, Change.value?_eq_some_iff h]
    simp [h]
  · rw [get?_apply_of_not_touches r h]
    have hne : c ≠ .register n v := by
      rintro rfl
      exact h rfl
    simp [h, hne]

theorem isSome_get?_apply (hr : (r.get? n).isSome) (hc : ¬ (c = .remove n ∨ c = .clear)) :
    ((r.apply c).get? n).isSome := by
  by_cases h : c.Touches n
  · rw [get?_apply_of_touches r h]
    exact Option.isSome_iff_ne_none.mpr (mt (Change.value?_eq_none_iff h).mp hc)
  · rwa [get?_apply_of_not_touches r h]

/-- Changes about different names may come in either order. -/
theorem apply_comm (hc : c.name? = some m) (hd : d.name? = some n) (hne : m ≠ n) :
    (r.apply c).apply d = (r.apply d).apply c := by
  -- each name is touched by one of the two at most
  refine ext_get? fun k => ?_
  have hc := Change.touches_iff_of_name? (n := k) hc
  have hd := Change.touches_iff_of_name? (n := k) hd
  by_cases hck : c.Touches k
  · have hdk : ¬ d.Touches k := fun h => hne ((hc.mp hck).trans (hd.mp h).symm)
    rw [get?_apply_of_not_touches _ hdk, get?_apply_of_touches _ hck, get?_apply_of_touches _ hck]
  · rw [get?_apply_of_not_touches _ hck]
    by_cases hdk : d.Touches k
    · rw [get?_apply_of_touches _ hdk, get?_apply_of_touches _ hdk]
    · rw [get?_apply_of_not_touches _ hdk, get?_apply_of_not_touches _ hdk,
        get?_apply_of_not_touches _ hck]

end Apply

/-! ## A run -/

/-- The registry after changes in a row, from the beginning. -/
def ofChanges (changes : List Change) : Registry := changes.foldl apply empty

/-- A change registers a value under a name, and none after it touches the name. -/
def Assigned (changes : List Change) (n : Text) (v : Float) : Prop :=
  ∃ before after, changes = before ++ .register n v :: after ∧ ∀ c ∈ after, ¬ c.Touches n

section Run

variable {changes : List Change} {c : Change} {n : Text} {v : Float}

theorem ofChanges_append (before after : List Change) :
    ofChanges (before ++ after) = after.foldl apply (ofChanges before) := List.foldl_append

/-- The last change is the one that registers the value, or it keeps what was assigned. -/
theorem assigned_concat_iff :
    Assigned (changes ++ [c]) n v ↔ c = .register n v ∨ ¬ c.Touches n ∧ Assigned changes n v := by
  constructor
  · rintro ⟨before, after, heq, hafter⟩
    obtain rfl | ⟨after, last, rfl⟩ := after.eq_nil_or_concat'
    · exact .inl (List.head_eq_of_cons_eq (List.append_inj' heq rfl).2)
    · rw [← List.cons_append, ← List.append_assoc] at heq
      obtain ⟨rfl, hlast⟩ := List.append_inj' heq rfl
      obtain rfl := List.head_eq_of_cons_eq hlast
      exact .inr ⟨hafter c (by simp), before, after, rfl, fun d hd => hafter d (by simp [hd])⟩
  · rintro (rfl | ⟨hc, before, after, rfl, hafter⟩)
    · exact ⟨changes, [], rfl, by simp⟩
    · refine ⟨before, after ++ [c], by simp, ?_⟩
      simpa [or_imp, forall_and] using ⟨hafter, hc⟩

theorem get?_ofChanges_eq_some_iff : (ofChanges changes).get? n = some v ↔ Assigned changes n v := by
  induction changes using List.reverseRecOn with
  | nil => simp [ofChanges, Assigned]
  | append_singleton changes c ih =>
      rw [ofChanges_append, assigned_concat_iff, ← ih]
      exact get?_apply_eq_some_iff _

/-- A name with a value has one until it is removed, or cleared with all. -/
theorem isSome_get?_foldl_apply {r : Registry} {after : List Change} (hr : (r.get? n).isSome)
    (hafter : ∀ c ∈ after, ¬ (c = .remove n ∨ c = .clear)) :
    ((after.foldl apply r).get? n).isSome := by
  induction after generalizing r with
  | nil => exact hr
  | cons c after ih =>
      obtain ⟨hc, hafter⟩ := List.forall_mem_cons.mp hafter
      exact ih (isSome_get?_apply r hr hc) hafter

theorem get?_ofChanges_eq_none_iff :
    (ofChanges changes).get? n = none ↔
      ∀ before v after, changes = before ++ .register n v :: after →
        ∃ c ∈ after, c = .remove n ∨ c = .clear := by
  constructor
  · rintro hnone before v after rfl
    -- if nothing took it away, what was registered would be there at the end
    refine Classical.byContradiction fun hkept => ?_
    have hstart : (((ofChanges before).apply (.register n v)).get? n).isSome := by
      rw [get?_apply_eq_some_iff _ |>.mpr (.inl rfl)]
      rfl
    have hend := isSome_get?_foldl_apply hstart (by simpa using hkept)
    rw [← List.foldl_cons, ← ofChanges_append, hnone] at hend
    cases hend
  · intro hlost
    refine Option.eq_none_iff_forall_ne_some.mpr fun v hv => ?_
    obtain ⟨before, after, heq, hafter⟩ := get?_ofChanges_eq_some_iff.mp hv
    obtain ⟨c, hc, rfl | rfl⟩ := hlost before v after heq
    · exact hafter _ hc rfl
    · exact hafter _ hc trivial

/-- Whatever runs before and after them, changes about different names may come in either
order. -/
theorem ofChanges_swap (before after : List Change) {d : Change} {m : Text}
    (hc : c.name? = some m) (hd : d.name? = some n) (hne : m ≠ n) :
    ofChanges (before ++ d :: c :: after) = ofChanges (before ++ c :: d :: after) := by
  rw [ofChanges_append, ofChanges_append, List.foldl_cons, List.foldl_cons, List.foldl_cons,
    List.foldl_cons, apply_comm _ hc hd hne]

end Run

/-- After any run of changes, a name has the value that the last of the changes that touch it
registers, and no value exactly if what was registered under it was lost since. The entries list
the names with a value, each once, in the order of their bytes, with these values, and the size
counts them. A name that is removed gives up the value that it had, and the others keep theirs;
changes about different names that follow each other may do so in either order. -/
theorem entries_are_last_assignments (changes : List Change) :
    let r := ofChanges changes
    (∀ n v, r.get? n = some v ↔ Assigned changes n v) ∧
    (∀ n, r.get? n = none ↔
      ∀ before v after, changes = before ++ .register n v :: after →
        ∃ c ∈ after, c = .remove n ∨ c = .clear) ∧
    (∀ n v, (n, v) ∈ r.entries ↔ r.get? n = some v) ∧
    (r.entries.map Prod.fst).Nodup ∧
    r.entries.Pairwise (fun a b => a.1.utf8 < b.1.utf8) ∧
    {n | (r.get? n).isSome}.encard = r.size ∧ (r.isEmpty ↔ r.size = 0) ∧
    (∀ n, (r.remove n).1 = r.get? n ∧ (r.remove n).2 = ofChanges (changes ++ [.remove n]) ∧
      ∀ other, other ≠ n → (r.remove n).2.get? other = r.get? other) ∧
    (∀ before c d after m n, changes = before ++ c :: d :: after →
      c.name? = some m → d.name? = some n → m ≠ n →
      ofChanges (before ++ d :: c :: after) = r) := by
  intro r
  refine ⟨fun n v => get?_ofChanges_eq_some_iff, fun n => get?_ofChanges_eq_none_iff,
    fun n v => mem_entries_iff, r.nodup_names, r.pairwise_utf8, r.encard_registered,
    r.isEmpty_iff_size_eq_zero, ?removed, ?swapped⟩
  case removed =>
    intro n
    refine ⟨congrArg Prod.fst (r.remove_eq n), ?_, fun other hne => ?_⟩
    · rw [ofChanges_append]
      rfl
    · rw [remove_eq]
      exact get?_erase_of_ne r hne
  case swapped =>
    rintro before c d after m n rfl hc hd hne
    exact ofChanges_swap before after hc hd hne

/-- Among them the `x` that is cleared, the `z` that is registered twice and the `é` behind it,
which has two bytes. -/
theorem entries_are_last_assignments_of_cleared :
    let changes : List Change :=
      [.register ['x'] 9, .clear, .register ['z'] 1, .register ['é'] 2, .register ['z'] 3]
    (ofChanges changes).get? ['z'] = some 3 ∧ (ofChanges changes).get? ['x'] = none ∧
      (['é'], 2) ∈ (ofChanges changes).entries ∧
      ((ofChanges changes).remove ['z']).2.get? ['é'] = some 2 ∧
      ofChanges [.register ['x'] 9, .clear, .register ['z'] 1, .register ['z'] 3,
        .register ['é'] 2] = ofChanges changes := by
  intro changes
  obtain ⟨hvalue, -, hentry, -, -, -, -, hremove, hswap⟩ :=
    entries_are_last_assignments changes
  have hz : (ofChanges changes).get? ['z'] = some 3 :=
    (hvalue _ _).mpr ⟨changes.dropLast, [], rfl, by decide⟩
  have haccent : (ofChanges changes).get? ['é'] = some 2 :=
    (hvalue _ _).mpr ⟨changes.take 3, [.register ['z'] 3], rfl, by decide⟩
  have hx : (ofChanges changes).get? ['x'] = none := by decide +kernel
  refine ⟨hz, hx, (hentry _ _).mpr haccent, ?_, ?_⟩
  · rw [(hremove ['z']).2.2 ['é'] (by decide), haccent]
  · exact hswap (changes.take 3) _ _ [] ['é'] ['z'] rfl rfl rfl (by decide)

end Registry

end Reckoner
