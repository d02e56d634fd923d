import Reckoner.Symbol
import Reckoner.Token

/-!
# The registry of variables

The names that have a value, and their values. A name has one value at most, the
last one registered, and the entries are listed by name, in the order of code
points. Looking a name up changes nothing; a reference to a name without a value
stands for zero.
-/
namespace Reckoner

/-- Whether the names of a list of entries increase. -/
abbrev Increasing (entries : List (Text × Float)) : Prop := entries.Pairwise (·.1 < ·.1)

structure Registry where
  entries : List (Text × Float)
  increasing : Increasing entries
deriving DecidableEq

namespace Registry

def empty : Registry := ⟨[], .nil⟩

/-- The value registered under a name. -/
def get? (r : Registry) (name : Text) : Option Float :=
  (r.entries.find? (·.1 == name)).map (·.2)

/-- The registry in which a name has a value, whatever it had before. -/
def insert (r : Registry) (name : Text) (value : Float) : Registry where
  entries :=
    r.entries.filter (·.1 < name) ++ (name, value) :: r.entries.filter (name < ·.1)
  increasing := by
    refine List.pairwise_append.mpr ⟨r.increasing.filter _, ?_, ?_⟩
    · refine List.pairwise_cons.mpr ⟨?_, r.increasing.filter _⟩
      intro e he
      simpa using (List.mem_filter.mp he).2
    · intro a ha b hb
      have hlow : a.1 < name := by simpa using (List.mem_filter.mp ha).2
      rcases List.mem_cons.mp hb with rfl | hb
      · exact hlow
      · have hhigh : name < b.1 := by simpa using (List.mem_filter.mp hb).2
        exact List.lt_trans hlow hhigh

/-- The registry in which a name has no value. -/
def erase (r : Registry) (name : Text) : Registry where
  entries := r.entries.filter (·.1 != name)
  increasing := r.increasing.filter _

/-- The value that a name loses, and the registry without it. -/
def remove (r : Registry) (name : Text) : Option Float × Registry :=
  let parts := r.entries.partition (·.1 == name)
  have hrest : Increasing parts.2 := by
    simp only [parts, List.partition_eq_filter_filter]
    exact r.increasing.filter _
  (parts.1.head?.map (·.2), ⟨parts.2, hrest⟩)

def size (r : Registry) : Nat := r.entries.length

def isEmpty (r : Registry) : Bool := r.entries.isEmpty

/-- The name that a token refers to. -/
def reference? : Text → Option Text
  | c :: name => if c = referenceSign then some name else none
  | [] => none

/-- A token with a reference to a variable replaced by its value. -/
def substitute (r : Registry) (token : Text) : Fragment :=
  match reference? token with
  | none => .raw token
  | some name => .value ((r.get? name).getD 0)

/-- The name that a token refers to, if it has no value. -/
def unknown? (r : Registry) (token : Text) : Option Text :=
  (reference? token).filter fun name => (r.get? name).isNone

/-! ## Looking up what was registered -/

@[simp] theorem get?_empty (name : Text) : empty.get? name = none := rfl

theorem get?_insert_self (r : Registry) (name : Text) (value : Float) :
    (r.insert name value).get? name = some value := by
  have hnone : (r.entries.filter (·.1 < name)).find? (·.1 == name) = none := by
    refine List.find?_eq_none.mpr fun e he heq => ?_
    have hlt : e.1 < name := by simpa using (List.mem_filter.mp he).2
    exact List.lt_irrefl name (eq_of_beq heq ▸ hlt)
  simp [get?, insert, List.find?_append, hnone]

/-- Where only some names are kept, each of them is found as before. -/
theorem find?_filter_name (entries : List (Text × Float)) (keep : Text → Bool) (name : Text) :
    (entries.filter fun e => keep e.1).find? (·.1 == name) =
      if keep name then entries.find? (·.1 == name) else none := by
  rw [List.find?_filter]
  split
  · rename_i hkeep
    congr 1
    funext e
    by_cases he : e.1 = name <;> simp [he, hkeep]
  · rename_i hkeep
    refine List.find?_eq_none.mpr fun e _ he => hkeep ?_
    have hboth : keep e.1 = true ∧ e.1 = name := by simpa using he
    exact hboth.2 ▸ hboth.1

theorem get?_insert_of_ne (r : Registry) {name other : Text} (value : Float) (h : other ≠ name) :
    (r.insert name value).get? other = r.get? other := by
  have hne : (name == other) = false := by simpa using fun heq => h heq.symm
  have hlow := find?_filter_name r.entries (fun n => n < name) other
  have hhigh := find?_filter_name r.entries (fun n => name < n) other
  simp only [get?, insert, List.find?_append, List.find?_cons, hne, hlow, hhigh]
  congr 1
  by_cases hlt : other < name
  · have hgt : ¬ name < other := List.lt_asymm hlt
    simp [hlt, hgt]
  · have hgt : name < other := by
      refine Decidable.byContradiction fun hn => h ?_
      exact List.le_antisymm (List.not_lt.mp hn) (List.not_lt.mp hlt)
    simp [hlt, hgt]

theorem get?_erase_of_ne (r : Registry) {name other : Text} (h : other ≠ name) :
    (r.erase name).get? other = r.get? other := by
  have hkept := find?_filter_name r.entries (fun n => n != name) other
  simp only [get?, erase, hkept, bne_iff_ne, ne_eq, h, not_false_eq_true, if_true]

theorem mem_entries_insert {r : Registry} {name : Text} {value : Float} {entry : Text × Float}
    (h : entry ∈ (r.insert name value).entries) : entry = (name, value) ∨ entry ∈ r.entries := by
  simp only [insert, List.mem_append, List.mem_cons, List.mem_filter] at h
  rcases h with h | h | h
  · exact .inr h.1
  · exact .inl h
  · exact .inr h.1

theorem get?_erase_self (r : Registry) (name : Text) : (r.erase name).get? name = none := by
  simp [get?, erase]

/-- What is lost is what was registered, and nothing else is. -/
theorem remove_eq (r : Registry) (name : Text) :
    r.remove name = (r.get? name, r.erase name) := by
  simp only [remove, get?, erase, List.partition_eq_filter_filter, List.head?_filter]
  rfl

end Registry

end Reckoner
