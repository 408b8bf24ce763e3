/-!
# Tables

Things by number. Numbers are given out in order, and none is used again after what stood there
was removed.
-/

namespace StreamBuffer

/-- Things by number. -/
structure Table (α : Type) where
  slots : List (Option α) := []

namespace Table

variable {α : Type}

instance : Inhabited (Table α) := ⟨{}⟩

def next (table : Table α) : Nat := table.slots.length

def get? (table : Table α) (slot : Nat) : Option α := table.slots[slot]?.join

def push (table : Table α) (a : α) : Table α := ⟨table.slots ++ [some a]⟩

def set (table : Table α) (slot : Nat) (a : α) : Table α := ⟨table.slots.set slot (some a)⟩

def remove (table : Table α) (slot : Nat) : Table α := ⟨table.slots.set slot none⟩

def toList (table : Table α) : List (Nat × α) :=
  table.slots.zipIdx.filterMap fun (thing, slot) => thing.map fun a => (slot, a)

variable {table : Table α} {a b : α} {slot other : Nat}

@[simp] theorem next_push : (table.push a).next = table.next + 1 := by
  simp [next, push]

@[simp] theorem next_set : (table.set slot a).next = table.next := by
  simp [next, set]

@[simp] theorem next_remove : (table.remove slot).next = table.next := by
  simp [next, remove]

@[simp] theorem get?_push : (table.push a).get? slot =
    if slot = table.next then some a else table.get? slot := by
  simp only [get?, push, next, List.getElem?_append]
  grind

@[simp] theorem get?_set : (table.set slot a).get? other =
    if other = slot ∧ slot < table.next then some a else table.get? other := by
  simp only [get?, set, next, List.getElem?_set]
  grind

@[simp] theorem get?_remove : (table.remove slot).get? other =
    if other = slot then none else table.get? other := by
  simp only [get?, remove, List.getElem?_set]
  grind

@[simp] theorem set_push : (table.push a).set table.next b = table.push b := by
  simp [set, push, next]

theorem get?_eq_none (h : table.next ≤ slot) : table.get? slot = none := by
  simp [get?, List.getElem?_eq_none (show table.slots.length ≤ slot from h)]

end Table

end StreamBuffer
