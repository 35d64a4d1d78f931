import CanOpen.Datatypes
import Mathlib.Data.List.Nodup

/-! # The object dictionary -/

namespace CanOpen

structure Address where
  index : UInt16
  subindex : UInt8
  deriving DecidableEq, Repr

inductive AccessType where
  | ro
  | wo
  | rw
  | const
  deriving DecidableEq, Repr

namespace AccessType

def isReadable : AccessType → Bool
  | ro | rw | const => true
  | wo => false

def isWritable : AccessType → Bool
  | wo | rw => true
  | ro | const => false

end AccessType

structure Entry where
  value : Value
  access : AccessType
  deriving DecidableEq, Repr

/-- Entries addressed by index and subindex, at most `capacity` of them and at
most one at each address. -/
structure ObjectDictionary (capacity : Nat) where
  entries : List (Address × Entry)
  addresses_nodup : (entries.map Prod.fst).Nodup
  length_le : entries.length ≤ capacity
  deriving DecidableEq, Repr

namespace ObjectDictionary

variable {N : Nat}

def new : ObjectDictionary N := ⟨[], List.nodup_nil, Nat.zero_le N⟩

def entry (od : ObjectDictionary N) (addr : Address) : Option Entry :=
  (od.entries.find? fun item => item.1 = addr).map Prod.snd

private def replaceAt (addr : Address) (entry : Entry) (item : Address × Entry) :
    Address × Entry :=
  if item.1 = addr then (addr, entry) else item

private theorem map_fst_replaceAt (addr : Address) (entry : Entry)
    (items : List (Address × Entry)) :
    (items.map (replaceAt addr entry)).map Prod.fst = items.map Prod.fst := by
  rw [List.map_map]
  apply List.map_congr_left
  intro item _
  simp only [Function.comp_apply, replaceAt]
  split
  · next equal => exact equal.symm
  · rfl

def replace (od : ObjectDictionary N) (addr : Address) (entry : Entry) :
    ObjectDictionary N where
  entries := od.entries.map (replaceAt addr entry)
  addresses_nodup := by
    rw [map_fst_replaceAt]
    exact od.addresses_nodup
  length_le := by
    rw [List.length_map]
    exact od.length_le

def insert (od : ObjectDictionary N) (addr : Address) (entry : Entry) :
    Except Error (ObjectDictionary N) :=
  if present : addr ∈ od.entries.map Prod.fst then .ok (od.replace addr entry)
  else if room : od.entries.length < N then
    .ok {
      entries := od.entries ++ [(addr, entry)]
      addresses_nodup := by
        rw [List.map_append, List.nodup_append]
        refine ⟨od.addresses_nodup, by simp, ?_⟩
        rintro key member other last rfl
        rw [List.map_singleton, List.mem_singleton] at last
        exact present ((show key = addr from last) ▸ member)
      length_le := by
        rw [List.length_append]
        exact room }
  else .error .dictionaryFull

def read (od : ObjectDictionary N) (addr : Address) : Except Error Value :=
  match od.entry addr with
  | none => .error .objectNotFound
  | some entry => if entry.access.isReadable then .ok entry.value else .error .writeOnly

def write (od : ObjectDictionary N) (addr : Address) (value : Value) :
    Except Error (ObjectDictionary N) :=
  match od.entry addr with
  | none => .error .objectNotFound
  | some entry =>
      if ¬ entry.access.isWritable then .error .readOnly
      else if entry.value.dataType ≠ value.dataType then .error .typeMismatch
      else .ok (od.replace addr { entry with value })

def set (od : ObjectDictionary N) (addr : Address) (value : Value) :
    Except Error (ObjectDictionary N) :=
  match od.entry addr with
  | none => .error .objectNotFound
  | some entry =>
      if entry.value.dataType ≠ value.dataType then .error .typeMismatch
      else .ok (od.replace addr { entry with value })

/-! ## Lookups after an update -/

private theorem find?_map_replaceAt (addr other : Address) (entry : Entry)
    (items : List (Address × Entry)) :
    ((items.map (replaceAt addr entry)).find? fun item => item.1 = other).map Prod.snd =
      if other = addr then
        ((items.find? fun item => item.1 = addr).map Prod.snd).map fun _ => entry
      else (items.find? fun item => item.1 = other).map Prod.snd := by
  induction items with
  | nil => simp
  | cons item items induction =>
      by_cases atItem : item.1 = addr <;> by_cases sought : other = addr
      · simp [replaceAt, atItem, sought]
      · have different : ¬ addr = other := fun equal => sought equal.symm
        have itemDifferent : ¬ item.1 = other := fun equal => different (atItem ▸ equal)
        simpa [replaceAt, atItem, sought, different, itemDifferent] using induction
      · subst other
        simpa [replaceAt, atItem] using induction
      · by_cases found : item.1 = other
        · simp [replaceAt, sought, found]
        · simpa [replaceAt, atItem, sought, found] using induction

theorem entry_replace (od : ObjectDictionary N) (addr other : Address) (entry : Entry) :
    (od.replace addr entry).entry other =
      if other = addr then (od.entry addr).map fun _ => entry else od.entry other :=
  find?_map_replaceAt addr other entry od.entries

theorem entry_replace_self {od : ObjectDictionary N} {addr : Address} {old entry : Entry}
    (present : od.entry addr = some old) :
    (od.replace addr entry).entry addr = some entry := by
  simp [entry_replace, present]

theorem entry_replace_of_ne {od : ObjectDictionary N} {addr other : Address}
    {entry : Entry} (different : other ≠ addr) :
    (od.replace addr entry).entry other = od.entry other := by
  simp [entry_replace, different]

theorem entry_eq_none_iff {od : ObjectDictionary N} {addr : Address} :
    od.entry addr = none ↔ addr ∉ od.entries.map Prod.fst := by
  rw [entry, Option.map_eq_none_iff, List.find?_eq_none]
  constructor
  · intro absent member
    rcases List.mem_map.mp member with ⟨item, itemMember, rfl⟩
    exact absent item itemMember (by simp)
  · intro absent item member here
    rw [decide_eq_true_eq] at here
    exact absent (here ▸ List.mem_map_of_mem member)

theorem entry_insert {od inserted : ObjectDictionary N} {addr : Address} {item : Entry}
    (inserts : od.insert addr item = .ok inserted) (other : Address) :
    inserted.entry other = if other = addr then some item else od.entry other := by
  unfold insert at inserts
  split at inserts
  · next present =>
      cases inserts
      rw [entry_replace]
      cases found : od.entry addr with
      | none => exact absurd present (entry_eq_none_iff.mp found)
      | some old => rfl
  · next absent =>
      split at inserts
      · cases inserts
        by_cases here : other = addr
        · subst here
          have before : (od.entries.find? fun entry => entry.1 = other) = none :=
            Option.map_eq_none_iff.mp (entry_eq_none_iff.mpr absent)
          simp [entry, List.find?_append, before]
        · have elsewhere : ¬ addr = other := fun equal => here equal.symm
          simp [entry, List.find?_append, here, elsewhere]
      · cases inserts

@[simp] theorem addresses_replace (od : ObjectDictionary N) (addr : Address) (entry : Entry) :
    (od.replace addr entry).entries.map Prod.fst = od.entries.map Prod.fst :=
  map_fst_replaceAt addr entry od.entries

/-- Dictionaries with the same addresses in the same order and the same entry at each are
equal. -/
theorem eq_of_entry_eq {left right : ObjectDictionary N}
    (addresses : left.entries.map Prod.fst = right.entries.map Prod.fst)
    (same : ∀ addr, left.entry addr = right.entry addr) : left = right := by
  rcases left with ⟨items, nodup, bound⟩
  rcases right with ⟨others, otherNodup, otherBound⟩
  simp only [entry] at addresses same
  congr
  clear bound otherBound
  induction items generalizing others with
  | nil => simpa using addresses.symm
  | cons item items induction =>
      cases others with
      | nil => cases addresses
      | cons other others =>
          simp only [List.map_cons, List.cons.injEq] at addresses
          simp only [List.map_cons, List.nodup_cons] at nodup otherNodup
          have head := same item.1
          simp only [List.find?_cons, decide_true, addresses.1, Option.map_some,
            Option.some.injEq] at head
          have equal : item = other := Prod.ext addresses.1 head
          subst equal
          rw [induction nodup.2 others otherNodup.2 addresses.2]
          intro addr
          by_cases here : item.1 = addr
          · subst here
            have absent : ∀ rest : List (Address × Entry), item.1 ∉ rest.map Prod.fst →
                (rest.find? fun entry => entry.1 = item.1) = none := by
              intro rest missing
              rw [List.find?_eq_none]
              intro entry member equal
              rw [decide_eq_true_eq] at equal
              exact missing (equal ▸ List.mem_map_of_mem member)
            rw [absent items nodup.1, absent others otherNodup.1]
          · simpa [List.find?_cons, here] using same addr

theorem read_eq_ok_iff {od : ObjectDictionary N} {addr : Address} {value : Value} :
    od.read addr = .ok value ↔
      ∃ entry, od.entry addr = some entry ∧ entry.access.isReadable = true ∧
        entry.value = value := by
  unfold read
  cases present : od.entry addr with
  | none => simp
  | some entry =>
      by_cases readable : entry.access.isReadable = true <;> simp [readable]

/-- A write succeeds exactly on a writable entry of the value's type, and then
replaces the value of that entry. -/
theorem write_eq_ok_iff {od written : ObjectDictionary N} {addr : Address} {value : Value} :
    od.write addr value = .ok written ↔
      ∃ entry, od.entry addr = some entry ∧ entry.access.isWritable ∧
        entry.value.dataType = value.dataType ∧
        od.replace addr { entry with value } = written := by
  unfold write
  cases present : od.entry addr with
  | none => simp
  | some entry =>
      by_cases writable : entry.access.isWritable <;>
        by_cases sameType : entry.value.dataType = value.dataType <;>
        simp [writable, sameType]

/-! ## What a master may change -/

def kind (entry : Entry) : AccessType × DataType := (entry.access, entry.value.dataType)

def SameShape (left right : ObjectDictionary N) : Prop :=
  ∀ addr, (left.entry addr).map kind = (right.entry addr).map kind

structure MasterChange (before after : ObjectDictionary N) : Prop where
  sameShape : SameShape before after
  keepsValue : ∀ addr entry, before.entry addr = some entry →
    entry.access.isWritable = false → after.entry addr = some entry

theorem SameShape.refl (od : ObjectDictionary N) : SameShape od od := fun _ => rfl

theorem SameShape.symm {left right : ObjectDictionary N} (same : SameShape left right) :
    SameShape right left := fun addr => (same addr).symm

theorem SameShape.trans {left middle right : ObjectDictionary N}
    (first : SameShape left middle) (second : SameShape middle right) :
    SameShape left right := fun addr => (first addr).trans (second addr)

theorem SameShape.entry_eq_none {left right : ObjectDictionary N}
    (same : SameShape left right) {addr : Address} (absent : left.entry addr = none) :
    right.entry addr = none := by
  simpa [absent, eq_comm] using same addr

theorem SameShape.entry_eq_some {left right : ObjectDictionary N}
    (same : SameShape left right) {addr : Address} {entry : Entry}
    (present : left.entry addr = some entry) :
    ∃ other, right.entry addr = some other ∧ other.access = entry.access ∧
      other.value.dataType = entry.value.dataType := by
  have equal := same addr
  rw [present, Option.map_some, eq_comm, Option.map_eq_some_iff] at equal
  rcases equal with ⟨other, otherPresent, sameKind⟩
  simp only [kind, Prod.mk.injEq] at sameKind
  exact ⟨other, otherPresent, sameKind.1, sameKind.2⟩

theorem SameShape.write_error {left right : ObjectDictionary N} (same : SameShape left right)
    {addr : Address} {value : Value} {error : Error}
    (fails : left.write addr value = .error error) : right.write addr value = .error error := by
  cases present : left.entry addr with
  | none => simpa [write, present, same.entry_eq_none present] using fails
  | some entry =>
      rcases same.entry_eq_some present with ⟨other, otherPresent, sameAccess, sameType⟩
      simp only [write, present] at fails
      simp only [write, otherPresent, sameAccess, sameType]
      split at fails
      · next denied =>
          rw [if_pos denied]
          exact fails
      · next permitted =>
          split at fails
          · next mistyped =>
              rw [if_neg permitted, if_pos mistyped]
              exact fails
          · cases fails

theorem MasterChange.refl (od : ObjectDictionary N) : MasterChange od od :=
  ⟨SameShape.refl od, fun _ _ present _ => present⟩

theorem MasterChange.trans {before middle after : ObjectDictionary N}
    (first : MasterChange before middle) (second : MasterChange middle after) :
    MasterChange before after :=
  ⟨first.sameShape.trans second.sameShape, fun addr entry present protected_ =>
    second.keepsValue addr entry (first.keepsValue addr entry present protected_) protected_⟩

theorem sameShape_replace {od : ObjectDictionary N} {addr : Address} {old entry : Entry}
    (present : od.entry addr = some old) (sameKind : kind entry = kind old) :
    SameShape od (od.replace addr entry) := by
  intro other
  by_cases equal : other = addr
  · subst other
    simp [entry_replace_self present, present, sameKind]
  · rw [entry_replace_of_ne equal]

/-- Dictionaries of the same shape still have it after the same write, and then
agree in the entry written. -/
theorem SameShape.write_ok {left right written : ObjectDictionary N}
    (same : SameShape left right) {addr : Address} {value : Value}
    (writes : left.write addr value = .ok written) :
    ∃ other, right.write addr value = .ok other ∧ SameShape written other ∧
      written.entry addr = other.entry addr := by
  rcases write_eq_ok_iff.mp writes with ⟨entry, present, writable, sameType, rfl⟩
  rcases same.entry_eq_some present with ⟨other, otherPresent, sameAccess, otherType⟩
  refine ⟨right.replace addr { other with value }, write_eq_ok_iff.mpr ⟨other, otherPresent,
    sameAccess ▸ writable, otherType.trans sameType, rfl⟩, ?_, ?_⟩
  · have keepsLeft : SameShape left (left.replace addr { entry with value }) :=
      sameShape_replace present (by simp [kind, sameType])
    have keepsRight : SameShape right (right.replace addr { other with value }) :=
      sameShape_replace otherPresent (by simp [kind, otherType, sameType])
    exact (keepsLeft.symm.trans same).trans keepsRight
  · rw [entry_replace_self present, entry_replace_self otherPresent, sameAccess]

theorem masterChange_write {od written : ObjectDictionary N} {addr : Address}
    {value : Value} (writes : od.write addr value = .ok written) :
    MasterChange od written := by
  rcases write_eq_ok_iff.mp writes with ⟨old, present, writable, sameType, rfl⟩
  refine ⟨sameShape_replace present (by simp [kind, sameType]), ?_⟩
  intro other entry otherPresent protected_
  have different : other ≠ addr := by
    rintro rfl
    rw [present, Option.some.injEq] at otherPresent
    subst otherPresent
    simp [writable] at protected_
  rw [entry_replace_of_ne different, otherPresent]

end ObjectDictionary

end CanOpen
