import CanOpen.Lss.Frames
import CanOpen.ObjectDictionary

/-! # The communication profile objects

The baseline of objects that every device exposes, inserted into a dictionary one after
the other.
-/

namespace CanOpen

open Lss (LssAddress)

variable {N : Nat}

namespace Entry

def ro (value : Value) : Entry := ⟨value, .ro⟩

def rw (value : Value) : Entry := ⟨value, .rw⟩

def constant (value : Value) : Entry := ⟨value, .const⟩

end Entry

structure StandardObjects where
  deviceType : UInt32
  identity : LssAddress
  producerHeartbeatMs : UInt16
  /-- The number of sub-entries of the pre-defined error field, `0` for none at all. -/
  errorHistoryLen : UInt8
  deviceName : Option ByteString

namespace StandardObjects

def new (deviceType : UInt32) (identity : LssAddress) : StandardObjects :=
  ⟨deviceType, identity, 0, 0, none⟩

def withHeartbeat (standard : StandardObjects) (ms : UInt16) : StandardObjects :=
  { standard with producerHeartbeatMs := ms }

def withErrorHistory (standard : StandardObjects) (entries : UInt8) : StandardObjects :=
  { standard with errorHistoryLen := entries }

def withDeviceName (standard : StandardObjects) (name : String) : StandardObjects :=
  { standard with
    deviceName := (ByteString.fromBytes (name.toUTF8.toList.take maxStringLen)).toOption }

def baseline (standard : StandardObjects) : List (Address × Entry) :=
  [(⟨0x1000, 0⟩, .constant (.unsigned32 standard.deviceType)),
    (⟨0x1001, 0⟩, .ro (.unsigned8 0)),
    (⟨0x1017, 0⟩, .rw (.unsigned16 standard.producerHeartbeatMs)),
    (⟨0x1018, 0⟩, .constant (.unsigned8 4)),
    (⟨0x1018, 1⟩, .constant (.unsigned32 standard.identity.vendorId)),
    (⟨0x1018, 2⟩, .constant (.unsigned32 standard.identity.productCode)),
    (⟨0x1018, 3⟩, .constant (.unsigned32 standard.identity.revisionNumber)),
    (⟨0x1018, 4⟩, .constant (.unsigned32 standard.identity.serialNumber))] ++
    standard.deviceName.toList.map fun name => (⟨0x1008, 0⟩, .constant (.visibleString name))

def errorField (standard : StandardObjects) : List (Address × Entry) :=
  if 0 < standard.errorHistoryLen then
    (⟨0x1003, 0⟩, .rw (.unsigned8 0)) ::
      (List.range' 1 standard.errorHistoryLen.toNat).map fun sub =>
        (⟨0x1003, UInt8.ofNat sub⟩, .ro (.unsigned32 0))
  else []

def objects (standard : StandardObjects) : List (Address × Entry) :=
  standard.baseline ++ standard.errorField

def insertAll : List (Address × Entry) → ObjectDictionary N →
    Except Error Unit × ObjectDictionary N
  | [], od => (.ok (), od)
  | (addr, entry) :: items, od =>
      match od.insert addr entry with
      | .ok od => insertAll items od
      | .error error => (.error error, od)

def insertInto (standard : StandardObjects) (od : ObjectDictionary N) :
    Except Error Unit × ObjectDictionary N :=
  insertAll standard.objects od

end StandardObjects

/-! ## What is inserted -/

namespace StandardObjects

section

variable {items : List (Address × Entry)} {od inserted : ObjectDictionary N}

theorem entry_insertAll_of_notMem (inserts : insertAll items od = (.ok (), inserted))
    {addr : Address} (other : addr ∉ items.map Prod.fst) : inserted.entry addr = od.entry addr := by
  induction items generalizing od with
  | nil =>
      cases inserts
      rfl
  | cons item items induction =>
      rw [List.map_cons, List.mem_cons, not_or] at other
      rw [insertAll] at inserts
      split at inserts
      · next next insertsFirst =>
          rw [induction inserts other.2, ObjectDictionary.entry_insert insertsFirst,
            if_neg other.1]
      · cases inserts

theorem entry_insertAll_of_mem (inserts : insertAll items od = (.ok (), inserted))
    (nodup : (items.map Prod.fst).Nodup) {addr : Address} {entry : Entry}
    (member : (addr, entry) ∈ items) : inserted.entry addr = some entry := by
  induction items generalizing od with
  | nil => cases member
  | cons item items induction =>
      rw [List.map_cons, List.nodup_cons] at nodup
      rw [insertAll] at inserts
      split at inserts
      · next next insertsFirst =>
          cases member with
          | head =>
              rw [entry_insertAll_of_notMem inserts nodup.1,
                ObjectDictionary.entry_insert insertsFirst, if_pos rfl]
          | tail _ later => exact induction inserts nodup.2 later
      · cases inserts

end

/-! ## The addresses -/

theorem subindex_inj {left right : Nat} (leftLe : left ≤ 255) (rightLe : right ≤ 255)
    (same : UInt8.ofNat left = UInt8.ofNat right) : left = right := by
  have numbers := congrArg UInt8.toNat same
  rw [UInt8.toNat_ofNat', UInt8.toNat_ofNat', Nat.mod_eq_of_lt (by omega),
    Nat.mod_eq_of_lt (by omega)] at numbers
  exact numbers

theorem errorField_addresses (standard : StandardObjects) :
    standard.errorField.map Prod.fst =
      if 0 < standard.errorHistoryLen then
        (List.range' 0 (standard.errorHistoryLen.toNat + 1)).map fun sub =>
          ⟨0x1003, UInt8.ofNat sub⟩
      else [] := by
  unfold errorField
  split
  · rw [List.range'_succ, List.map_cons, List.map_cons, List.map_map]
    rfl
  · rfl

theorem index_of_mem_errorField {standard : StandardObjects} {addr : Address}
    (member : addr ∈ standard.errorField.map Prod.fst) : addr.index = 0x1003 := by
  rw [errorField_addresses] at member
  split at member
  · rcases List.mem_map.mp member with ⟨sub, -, rfl⟩
    rfl
  · cases member

theorem errorField_nodup (standard : StandardObjects) :
    (standard.errorField.map Prod.fst).Nodup := by
  rw [errorField_addresses]
  split
  · apply List.Nodup.map_on _ List.nodup_range'
    intro left leftMember right rightMember same
    have bound := standard.errorHistoryLen.toNat_lt
    rw [List.mem_range'_1] at leftMember rightMember
    exact subindex_inj (by omega) (by omega) (congrArg Address.subindex same)
  · exact List.nodup_nil

theorem baseline_nodup (standard : StandardObjects) :
    (standard.baseline.map Prod.fst).Nodup := by
  unfold baseline
  cases standard.deviceName <;> simp

theorem index_of_mem_baseline {standard : StandardObjects} {addr : Address}
    (member : addr ∈ standard.baseline.map Prod.fst) : addr.index ≠ 0x1003 := by
  revert addr
  unfold baseline
  cases standard.deviceName <;> simp

theorem objects_nodup (standard : StandardObjects) :
    (standard.objects.map Prod.fst).Nodup := by
  rw [objects, List.map_append, List.nodup_append]
  refine ⟨standard.baseline_nodup, standard.errorField_nodup, ?_⟩
  rintro addr before _ behind rfl
  exact index_of_mem_baseline before (index_of_mem_errorField behind)

/-! ## The populated dictionary -/

section

variable {standard : StandardObjects} {od populated : ObjectDictionary N}

theorem entry_insertInto (inserts : standard.insertInto od = (.ok (), populated)) :
    (∀ item ∈ standard.objects, populated.entry item.1 = some item.2) ∧
      ∀ addr ∉ standard.objects.map Prod.fst, populated.entry addr = od.entry addr :=
  ⟨fun _ member => entry_insertAll_of_mem inserts standard.objects_nodup member,
    fun _ other => entry_insertAll_of_notMem inserts other⟩

variable (inserts : standard.insertInto od = (.ok (), populated))
  (some_ : 0 < standard.errorHistoryLen)

include inserts some_

theorem entry_errorCount : populated.entry ⟨0x1003, 0⟩ = some (.rw (.unsigned8 0)) := by
  apply (entry_insertInto inserts).1 (⟨0x1003, 0⟩, .rw (.unsigned8 0))
  rw [objects, errorField, if_pos some_]
  exact List.mem_append_right _ List.mem_cons_self

theorem entry_errorCode {sub : Nat} (positive : 1 ≤ sub)
    (within : sub ≤ standard.errorHistoryLen.toNat) :
    populated.entry ⟨0x1003, UInt8.ofNat sub⟩ = some (.ro (.unsigned32 0)) := by
  apply (entry_insertInto inserts).1 (⟨0x1003, UInt8.ofNat sub⟩, .ro (.unsigned32 0))
  rw [objects, errorField, if_pos some_]
  apply List.mem_append_right
  apply List.mem_cons_of_mem
  apply List.mem_map.mpr
  exact ⟨sub, List.mem_range'_1.mpr ⟨positive, by omega⟩, rfl⟩

theorem entry_beyond {sub : Nat} (beyond : standard.errorHistoryLen.toNat < sub)
    (small : sub ≤ 255) :
    populated.entry ⟨0x1003, UInt8.ofNat sub⟩ = od.entry ⟨0x1003, UInt8.ofNat sub⟩ := by
  apply (entry_insertInto inserts).2
  rw [objects, List.map_append, List.mem_append, not_or]
  constructor
  · intro member
    exact index_of_mem_baseline member rfl
  · rw [errorField_addresses, if_pos some_]
    intro member
    rcases List.mem_map.mp member with ⟨other, otherMember, same⟩
    rw [List.mem_range'_1] at otherMember
    have equal := subindex_inj (by omega) small (congrArg Address.subindex same)
    omega

end

end StandardObjects

end CanOpen
