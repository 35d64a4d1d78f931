import Mathlib.Data.List.Basic

/-! # Execution that may panic

Every slice, index, subtraction, shift and `expect` whose bounds are decided at
run time is a checked operation here. A computation that performs one returns
in `Exec`, so that the absence of panics is a theorem about it.
-/

namespace CanOpen

inductive Panic where
  | indexOutOfBounds
  | sliceOutOfBounds
  | lengthMismatch
  | arithmeticOverflow
  | failedExpect
  deriving DecidableEq, Repr

/-- A result, or the panic that prevented it. -/
abbrev Exec (α : Type u) := Except Panic α

def i128Min : Int := -0x80000000000000000000000000000000
def i128Max : Int := 0x7FFFFFFFFFFFFFFFFFFFFFFFFFFFFFFF

namespace Exec

@[simp] theorem pure_inj {left right : α} :
    (pure left : Exec α) = pure right ↔ left = right := by
  constructor
  · intro equal
    cases equal
    rfl
  · intro equal
    rw [equal]

@[simp] theorem throw_ne_pure (panic : Panic) (value : α) :
    (throw panic : Exec α) ≠ pure value := by
  intro equal
  cases equal

theorem bind_eq_pure_iff {first : Exec α} {next : α → Exec β} {result : β} :
    (first >>= next) = pure result ↔
      ∃ middle, first = pure middle ∧ next middle = pure result := by
  constructor
  · intro returns
    cases first with
    | error panic => cases returns
    | ok middle => exact ⟨middle, rfl, returns⟩
  · rintro ⟨middle, firstReturns, nextReturns⟩
    rw [firstReturns, pure_bind, nextReturns]

theorem mapM_eq_pure {action : α → Exec β} {value : α → β} {items : List α}
    (returns : ∀ item ∈ items, action item = pure (value item)) :
    items.mapM action = pure (items.map value) := by
  induction items with
  | nil => rfl
  | cons head tail induction =>
      rw [List.mapM_cons, returns head (by simp),
        induction fun item member => returns item (by simp [member])]
      rfl

theorem foldlM_invariant {Holds : β → Prop} {action : β → α → Exec β} {items : List α}
    (step : ∀ state, Holds state → ∀ item ∈ items,
      ∃ next, action state item = pure next ∧ Holds next) {start : β} (holds : Holds start) :
    ∃ final, items.foldlM action start = pure final ∧ Holds final := by
  induction items generalizing start with
  | nil => exact ⟨start, rfl, holds⟩
  | cons head tail induction =>
      rcases step start holds head List.mem_cons_self with ⟨next, taken, stillHolds⟩
      rcases induction (fun state keeps item member =>
        step state keeps item (List.mem_cons_of_mem head member)) stillHolds with
        ⟨final, folded, finally_⟩
      exact ⟨final, by rw [List.foldlM_cons, taken, pure_bind, folded], finally_⟩

theorem foldlM_returns {action : β → α → Exec β} {items : List α}
    (returns : ∀ state, ∀ item ∈ items, ∃ next, action state item = pure next) (start : β) :
    ∃ final, items.foldlM action start = pure final := by
  have keeps : ∀ state, True → ∀ item ∈ items,
      ∃ next, action state item = pure next ∧ True := by
    intro state _ item member
    rcases returns state item member with ⟨next, taken⟩
    exact ⟨next, taken, trivial⟩
  rcases foldlM_invariant keeps trivial with ⟨final, folded, _⟩
  exact ⟨final, folded⟩

def expect : Except ε α → Exec α
  | .ok value => pure value
  | .error _ => throw .failedExpect

def unwrap : Option α → Exec α
  | some value => pure value
  | none => throw .failedExpect

@[simp] theorem expect_ok (value : α) :
    expect (.ok value : Except ε α) = pure value := rfl

@[simp] theorem unwrap_some (value : α) : unwrap (some value) = pure value := rfl

@[simp] theorem unwrap_eq_pure_iff {option : Option α} {value : α} :
    unwrap option = pure value ↔ option = some value := by
  cases option <;> simp [unwrap]

@[simp] theorem expect_eq_pure_iff {result : Except ε α} {value : α} :
    expect result = pure value ↔ result = .ok value := by
  cases result <;> simp [expect]

def checkedSub (left right : Nat) : Exec Nat :=
  if right ≤ left then pure (left - right) else throw .arithmeticOverflow

@[simp] theorem checkedSub_of_le {left right : Nat} (le : right ≤ left) :
    checkedSub left right = pure (left - right) := by
  simp [checkedSub, le]

theorem checkedSub_eq_pure_iff {left right difference : Nat} :
    checkedSub left right = pure difference ↔ right ≤ left ∧ left - right = difference := by
  unfold checkedSub
  split
  · next le => simp [le]
  · next gt => simp [gt]

def checkedAdd (low high left right : Int) : Exec Int :=
  if low ≤ left + right ∧ left + right ≤ high then pure (left + right)
  else throw .arithmeticOverflow

theorem checkedAdd_eq_pure_iff {low high left right sum : Int} :
    checkedAdd low high left right = pure sum ↔
      (low ≤ left + right ∧ left + right ≤ high) ∧ left + right = sum := by
  unfold checkedAdd
  split
  · next within => simp [within]
  · next outside => simp [outside]

def checkedSucc (value : UInt8) : Exec UInt8 :=
  if value = 255 then throw .arithmeticOverflow else pure (value + 1)

def checkedPred (value : Int8) : Exec Int8 :=
  if value = -128 then throw .arithmeticOverflow else pure (value - 1)

def shiftLeft (value : UInt32) (amount : Int) : Exec UInt32 :=
  if 0 ≤ amount ∧ amount < 32 then pure (value <<< UInt32.ofNat amount.toNat)
  else throw .arithmeticOverflow

theorem shiftLeft_of_lt (value : UInt32) {amount : Nat} (within : amount < 32) :
    shiftLeft value amount = pure (value <<< UInt32.ofNat amount) := by
  have bounds : (0 : Int) ≤ amount ∧ (amount : Int) < 32 := by omega
  simp [shiftLeft, bounds]

def index (items : List α) (position : Nat) : Exec α :=
  if within : position < items.length then pure items[position]
  else throw .indexOutOfBounds

@[simp] theorem index_of_lt {items : List α} {position : Nat}
    (within : position < items.length) :
    index items position = pure items[position] := by
  simp [index, within]

def setIndex (items : List α) (position : Nat) (value : α) : Exec (List α) :=
  if position < items.length then pure (items.set position value)
  else throw .indexOutOfBounds

@[simp] theorem setIndex_of_lt {items : List α} {position : Nat} (value : α)
    (within : position < items.length) :
    setIndex items position value = pure (items.set position value) := by
  simp [setIndex, within]

def slice (items : List α) (first last : Nat) : Exec (List α) :=
  if first ≤ last ∧ last ≤ items.length then
    pure ((items.take last).drop first)
  else throw .sliceOutOfBounds

theorem slice_of_le (items : List α) {first last : Nat}
    (ordered : first ≤ last) (within : last ≤ items.length) :
    slice items first last = pure ((items.take last).drop first) := by
  simp [slice, ordered, within]

def copyFromSlice (items : List α) (first last : Nat) (source : List α) :
    Exec (List α) :=
  if first ≤ last ∧ last ≤ items.length then
    if source.length = last - first then
      pure (items.take first ++ source ++ items.drop last)
    else throw .lengthMismatch
  else throw .sliceOutOfBounds

theorem copyFromSlice_of_le {items : List α} {first last : Nat} {source : List α}
    (ordered : first ≤ last) (within : last ≤ items.length)
    (sameLength : source.length = last - first) :
    copyFromSlice items first last source =
      pure (items.take first ++ source ++ items.drop last) := by
  simp [copyFromSlice, ordered, within, sameLength]

@[simp] theorem copyFromSlice_front {items source : List α} {last : Nat}
    (within : last ≤ items.length) (sameLength : source.length = last) :
    copyFromSlice items 0 last source = pure (source ++ items.drop last) := by
  rw [copyFromSlice_of_le (Nat.zero_le last) within (by simpa using sameLength)]
  rfl

/-! ## Arrays of fixed length -/

instance neZeroEight : @NeZero Nat Zero.ofOfNat0 8 := ⟨by decide⟩

theorem get_eq_of_toList {length : Nat} {items : Vector α length} {position : Fin length}
    {value : α} (found : items.toList[position.val]? = some value) :
    items.get position = value := by
  rw [Vector.getElem?_toList, Vector.getElem?_eq_getElem position.isLt,
    Option.some.injEq] at found
  exact found

theorem toList_get {length : Nat} (items : Vector α length) (position : Fin length) :
    items.toList[position.val]? = some (items.get position) := by
  rw [Vector.getElem?_toList, Vector.getElem?_eq_getElem position.isLt]
  rfl

def indexArray {length : Nat} (items : Vector α length) (position : Nat) : Exec α :=
  if within : position < length then pure items[position]
  else throw .indexOutOfBounds

theorem indexArray_of_lt {length : Nat} {items : Vector α length} {position : Nat}
    (within : position < length) : indexArray items position = pure items[position] := by
  simp [indexArray, within]

def setArray {length : Nat} (items : Vector α length) (position : Nat) (value : α) :
    Exec (Vector α length) :=
  if within : position < length then pure (items.set position value)
  else throw .indexOutOfBounds

theorem setArray_of_lt {length : Nat} {items : Vector α length} {position : Nat} (value : α)
    (within : position < length) :
    setArray items position value = pure (items.set position value) := by
  simp [setArray, within]

def splice {length : Nat} (items : Vector α length) (first : Nat) (source : List α)
    (fits : first + source.length ≤ length) : Vector α length :=
  ⟨(items.toList.take first ++ source ++ items.toList.drop (first + source.length)).toArray,
    by
      simp only [List.size_toArray, List.length_append, List.length_take,
        List.length_drop, Vector.length_toList]
      omega⟩

@[simp] theorem toList_splice {length : Nat} (items : Vector α length) (first : Nat)
    (source : List α) (fits : first + source.length ≤ length) :
    (splice items first source fits).toList =
      items.toList.take first ++ source ++ items.toList.drop (first + source.length) :=
  rfl

def overwrite {length : Nat} (items : Vector α length) (first last : Nat)
    (source : List α) : Exec (Vector α length) :=
  if bounds : first ≤ last ∧ last ≤ length then
    if sameLength : source.length = last - first then
      pure (splice items first source (by omega))
    else throw .lengthMismatch
  else throw .sliceOutOfBounds

theorem overwrite_of_le {length : Nat} (items : Vector α length) {first last : Nat}
    {source : List α} (sameLength : first + source.length = last)
    (within : last ≤ length) :
    overwrite items first last source =
      pure (splice items first source (by omega)) := by
  have bounds : first ≤ last ∧ last ≤ length := ⟨by omega, within⟩
  have equal : source.length = last - first := by omega
  simp [overwrite, bounds, equal]

end Exec

end CanOpen
