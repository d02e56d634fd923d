/-!
# Stacks

Last in, first out. A stack is listed from its bottom to its top.
-/
namespace Reckoner

/-- A stack, kept as the list of its items from the top down. -/
structure Stack (α : Type) where
  topDown : List α
deriving DecidableEq, BEq, Repr

namespace Stack

variable {α : Type}

def empty : Stack α := ⟨[]⟩

def push (s : Stack α) (a : α) : Stack α := ⟨a :: s.topDown⟩

/-- The items on top of a stack, each above those before it. -/
def pushAll (s : Stack α) (items : List α) : Stack α := ⟨items.reverse ++ s.topDown⟩

def pop? (s : Stack α) : Option (α × Stack α) :=
  match s.topDown with
  | [] => none
  | a :: rest => some (a, ⟨rest⟩)

/-- The item on top, which stays there. -/
def top? (s : Stack α) : Option α := s.topDown.head?

def size (s : Stack α) : Nat := s.topDown.length

def isEmpty (s : Stack α) : Bool := s.topDown.isEmpty

def toList (s : Stack α) : List α := s.topDown.reverse

/-- The stack that holds a list of items, its last one on top. -/
def ofList (items : List α) : Stack α := ⟨items.reverse⟩

/-! ## What each operation does to the list -/

@[simp] theorem toList_empty : (empty : Stack α).toList = [] := rfl

@[simp] theorem toList_push (s : Stack α) (a : α) : (s.push a).toList = s.toList ++ [a] := by
  simp [push, toList]

@[simp] theorem toList_pushAll (s : Stack α) (items : List α) :
    (s.pushAll items).toList = s.toList ++ items := by
  simp [pushAll, toList]

@[simp] theorem pushAll_nil (s : Stack α) : s.pushAll [] = s := rfl

@[simp] theorem pushAll_singleton (s : Stack α) (a : α) : s.pushAll [a] = s.push a := rfl

theorem pushAll_append (s : Stack α) (items more : List α) :
    s.pushAll (items ++ more) = (s.pushAll items).pushAll more := by
  simp [pushAll]

@[simp] theorem toList_ofList (items : List α) : (ofList items).toList = items := by
  simp [ofList, toList]

@[simp] theorem ofList_toList (s : Stack α) : ofList s.toList = s := by
  simp [ofList, toList]

@[simp] theorem pop?_push (s : Stack α) (a : α) : (s.push a).pop? = some (a, s) := rfl

theorem pushAll_eq_ofList (s : Stack α) (items : List α) :
    s.pushAll items = .ofList (s.toList ++ items) := by
  simp [pushAll, ofList, toList]

theorem pop?_eq_some {s rest : Stack α} {a : α} (h : s.pop? = some (a, rest)) :
    s = rest.push a := by
  obtain ⟨items⟩ := s
  cases items with
  | nil => simp [pop?] at h
  | cons b bs =>
      simp only [pop?, Option.some.injEq, Prod.mk.injEq] at h
      obtain ⟨rfl, rfl⟩ := h
      rfl

theorem top?_eq_getLast? (s : Stack α) : s.top? = s.toList.getLast? := by
  simp [top?, toList]

@[simp] theorem length_toList (s : Stack α) : s.toList.length = s.size := by
  simp [toList, size]

theorem isEmpty_iff (s : Stack α) : s.isEmpty = true ↔ s.toList = [] := by
  simp [isEmpty, toList]

end Stack

end Reckoner
