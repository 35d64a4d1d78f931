import CanOpen.Foundation.Exec

/-! # Vectors of bounded capacity

A growable list that never holds more than its capacity, as a fixed-capacity
vector type provides.
-/

namespace CanOpen

/-- A list of at most `capacity` elements. -/
structure BoundedVec (α : Type u) (capacity : Nat) where
  toList : List α
  length_le : toList.length ≤ capacity
  deriving DecidableEq, Repr

namespace BoundedVec

variable {α : Type u} {capacity : Nat}

@[ext] theorem ext {left right : BoundedVec α capacity}
    (equal : left.toList = right.toList) : left = right := by
  cases left
  cases right
  cases equal
  rfl

def new : BoundedVec α capacity := ⟨[], Nat.zero_le capacity⟩

@[simp] theorem toList_new : (new : BoundedVec α capacity).toList = [] := rfl

def len (items : BoundedVec α capacity) : Nat := items.toList.length

def isFull (items : BoundedVec α capacity) : Bool := items.len == capacity

def extendFromSlice (items : BoundedVec α capacity) (extension : List α) :
    Option (BoundedVec α capacity) :=
  if fits : (items.toList ++ extension).length ≤ capacity then
    some ⟨items.toList ++ extension, fits⟩
  else none

def push (items : BoundedVec α capacity) (item : α) :
    Option (BoundedVec α capacity) :=
  items.extendFromSlice [item]

def index (items : BoundedVec α capacity) (position : Nat) : Exec α :=
  Exec.index items.toList position

def setIndex (items : BoundedVec α capacity) (position : Nat) (value : α) :
    Exec (BoundedVec α capacity) :=
  if position < items.len then
    pure ⟨items.toList.set position value, by
      rw [List.length_set]
      exact items.length_le⟩
  else throw .indexOutOfBounds

def pop (items : BoundedVec α capacity) : BoundedVec α capacity :=
  ⟨items.toList.dropLast, by
    have bound := items.length_le
    simp only [List.length_dropLast]
    omega⟩

/-- Keep the first `count` elements. -/
def truncate (items : BoundedVec α capacity) (count : Nat) : BoundedVec α capacity :=
  ⟨items.toList.take count, Nat.le_trans (List.length_take_le' count items.toList) items.length_le⟩

@[simp] theorem toList_truncate (items : BoundedVec α capacity) (count : Nat) :
    (items.truncate count).toList = items.toList.take count := rfl

theorem extendFromSlice_eq_some_iff {items extended : BoundedVec α capacity}
    {extension : List α} :
    items.extendFromSlice extension = some extended ↔
      extended.toList = items.toList ++ extension := by
  constructor
  · intro extends_
    unfold extendFromSlice at extends_
    split at extends_
    · cases extends_
      rfl
    · cases extends_
  · intro equal
    have fits : (items.toList ++ extension).length ≤ capacity :=
      equal ▸ extended.length_le
    rw [extendFromSlice, dif_pos fits]
    exact congrArg some (ext equal.symm)

theorem push_eq_some_iff {items pushed : BoundedVec α capacity} {item : α} :
    items.push item = some pushed ↔ pushed.toList = items.toList ++ [item] :=
  extendFromSlice_eq_some_iff

theorem exists_front {items : BoundedVec α capacity} {front back : List α}
    (equal : items.toList = front ++ back) :
    ∃ initial : BoundedVec α capacity, initial.toList = front := by
  have bound := items.length_le
  rw [equal, List.length_append] at bound
  exact ⟨⟨front, by omega⟩, rfl⟩

theorem setIndex_of_lt {items : BoundedVec α capacity} {position : Nat} (value : α)
    (within : position < items.toList.length) :
    ∃ changed, items.setIndex position value = pure changed ∧
      changed.toList = items.toList.set position value := by
  have bound : (items.toList.set position value).length ≤ capacity := by
    rw [List.length_set]
    exact items.length_le
  refine ⟨⟨items.toList.set position value, bound⟩, ?_, rfl⟩
  rw [setIndex, if_pos (show position < items.len from within)]

theorem push_of_lt {items : BoundedVec α capacity} (item : α)
    (room : items.toList.length < capacity) :
    ∃ pushed, items.push item = some pushed ∧ pushed.toList = items.toList ++ [item] :=
  ⟨⟨items.toList ++ [item], by
      rw [List.length_append]
      exact room⟩, extendFromSlice_eq_some_iff.mpr rfl, rfl⟩

end BoundedVec

end CanOpen
