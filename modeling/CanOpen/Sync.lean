import CanOpen.Foundation.Exec
import CanOpen.Types

/-! # The SYNC producer -/

namespace CanOpen

def syncCobId : UInt16 := 0x080

def isValidCounterOverflow (overflow : UInt8) : Bool :=
  overflow = 0 ∨ 2 ≤ overflow ∧ overflow ≤ 240

def encodeCounter (count : UInt8) : Vector UInt8 1 := #v[count]

def syncData : Option UInt8 → List UInt8
  | some count => (encodeCounter count).toList
  | none => []

def Sync.decode : List UInt8 → Except Error (Option UInt8)
  | [] => .ok none
  | [count] => .ok (some count)
  | _ => .error .badLength

theorem Sync.decode_syncData (count : Option UInt8) : Sync.decode (syncData count) = .ok count := by
  cases count <;> rfl

structure SyncCounter where
  overflow : UInt8
  value : UInt8
  deriving DecidableEq, Repr

namespace SyncCounter

def new (overflow : UInt8) : Except Error SyncCounter :=
  if !isValidCounterOverflow overflow then .error .invalidSyncCounter else .ok ⟨overflow, 0⟩

def isCounting (counter : SyncCounter) : Bool := 2 ≤ counter.overflow

def advance (counter : SyncCounter) : Exec (SyncCounter × Option UInt8) :=
  if !counter.isCounting then pure (counter, none)
  else do
    let value ← if counter.overflow ≤ counter.value then pure 1
      else Exec.checkedSucc counter.value
    pure ({ counter with value }, some value)

def next (counter : SyncCounter) : SyncCounter :=
  if counter.isCounting then
    { counter with value := if counter.overflow ≤ counter.value then 1 else counter.value + 1 }
  else counter

theorem advance_eq (counter : SyncCounter) :
    counter.advance = pure (counter.next,
      if counter.isCounting then some counter.next.value else none) := by
  unfold advance next
  by_cases counting : counter.isCounting
  · by_cases wraps : counter.overflow ≤ counter.value
    · simp [counting, wraps]
    · have below : counter.value ≠ 255 := by
        intro full
        rw [full] at wraps
        exact wraps (UInt8.le_iff_toNat_le.mpr (Nat.le_of_lt_succ counter.overflow.toNat_lt))
      simp [counting, wraps, Exec.checkedSucc, below]
  · simp [counting]

theorem advance_returns (counter : SyncCounter) :
    ∃ advanced count, counter.advance = pure (advanced, count) :=
  ⟨_, _, counter.advance_eq⟩

end SyncCounter

end CanOpen
