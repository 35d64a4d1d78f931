import Mathlib.Data.List.Basic

/-! # Foundational types -/

namespace CanOpen

inductive Error where
  | badLength
  | overflow
  | objectNotFound
  | invalidNodeId
  | readOnly
  | writeOnly
  | typeMismatch
  | dictionaryFull
  | unsupportedTransfer
  | unexpectedCommand
  | unknownState
  | pdoTooLong
  | mappingFull
  | invalidSyncCounter
  | toggleMismatch
  | crcMismatch
  deriving DecidableEq, Repr

structure NodeId where
  raw : UInt8
  raw_le : raw ≤ 127
  deriving DecidableEq, Repr

namespace NodeId

def broadcast : NodeId := ⟨0, by decide⟩

def new (id : UInt8) : Except Error NodeId :=
  if valid : 1 ≤ id ∧ id ≤ 127 then .ok ⟨id, valid.2⟩ else .error .invalidNodeId

theorem new_eq_ok_iff {raw : UInt8} {id : NodeId} :
    NodeId.new raw = .ok id ↔ raw = id.raw ∧ 1 ≤ id.raw := by
  unfold new
  split
  · next valid =>
      rw [Except.ok.injEq]
      constructor
      · rintro rfl
        exact ⟨rfl, valid.1⟩
      · rintro ⟨rfl, -⟩
        rfl
  · next invalid =>
      constructor
      · intro equal
        cases equal
      · rintro ⟨rfl, positive⟩
        exact absurd ⟨positive, id.raw_le⟩ invalid

end NodeId

end CanOpen
