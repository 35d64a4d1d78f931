import CanOpen.Foundation.BitSearch
import CanOpen.Foundation.Loop
import CanOpen.Lss.Slave

/-! # Fastscan

The master that discovers an address bit by bit, and the loop that drives it
against every slave on the bus.
-/

namespace CanOpen.Lss

/-- A master discovering the address of an unconfigured node. `sub` is the
identity value under scan, 4 when complete; `bit` is -2 for the initial probe,
the bit under test, or -1 to confirm. -/
structure FastscanMaster where
  id : Vector UInt32 4
  sub : UInt8
  bit : Int8
  found : Bool
  deriving DecidableEq, Repr

namespace FastscanMaster

def new : FastscanMaster := ⟨Vector.replicate 4 0, 0, -2, false⟩

def nextRequest (master : FastscanMaster) : Exec (Option LssFrame) :=
  if 3 < master.sub then pure none
  else if master.bit = -2 then pure (some (encodeFastscan 0 fastscanInit 0 0))
  else do
    let id ← Exec.indexArray master.id master.sub.toNat
    if master.bit = -1 then
      pure (some (encodeFastscan id 0 master.sub ((master.sub + 1) &&& 3)))
    else pure (some (encodeFastscan id master.bit.toUInt8 master.sub master.sub))

def onResponse (master : FastscanMaster) (responded : Bool) : Exec FastscanMaster :=
  if master.bit = -2 then
    if responded then pure { master with found := true, bit := 31 }
    else pure { master with sub := 4 }
  else if master.bit = -1 then do
    let sub ← Exec.checkedSucc master.sub
    pure { master with sub, bit := 31 }
  else if responded then do
    let bit ← Exec.checkedPred master.bit
    pure { master with bit }
  else do
    -- No response means this bit of the identity is a 1.
    let value ← Exec.indexArray master.id master.sub.toNat
    let mask ← Exec.shiftLeft 1 master.bit.toInt
    let id ← Exec.setArray master.id master.sub.toNat (value ||| mask)
    let bit ← Exec.checkedPred master.bit
    pure { master with id, bit }

def isComplete (master : FastscanMaster) : Bool := 3 < master.sub

def address (master : FastscanMaster) : LssAddress :=
  ⟨master.id[0], master.id[1], master.id[2], master.id[3]⟩

/-! ## One request and its answer -/

def bitAt (left : Nat) : Int8 := Int8.ofInt ((left : Int) - 1)

private theorem bitAt_succ : ∀ left : Fin 32,
    bitAt (left + 1) ≠ -2 ∧ bitAt (left + 1) ≠ -1 ∧ bitAt (left + 1) ≠ -128 ∧
      (bitAt (left + 1)).toUInt8 = UInt8.ofNat left ∧
      (bitAt (left + 1)).toInt = (left : Nat) ∧ bitAt (left + 1) - 1 = bitAt left := by
  decide

private theorem sub_fields : ∀ sub : Fin 4,
    ¬ 3 < UInt8.ofNat sub ∧ (UInt8.ofNat sub).toNat = sub ∧ UInt8.ofNat sub ≠ 255 ∧
      UInt8.ofNat sub + 1 = UInt8.ofNat (sub + 1) := by
  decide

variable {master : FastscanMaster} {sub left : Nat}

theorem nextRequest_probe (subEq : master.sub = UInt8.ofNat sub) (subLt : sub < 4)
    (bitEq : master.bit = bitAt (left + 1)) (leftLt : left < 32) :
    master.nextRequest = pure (some (encodeFastscan master.id[sub] (UInt8.ofNat left)
      (UInt8.ofNat sub) (UInt8.ofNat sub))) := by
  rcases bitAt_succ ⟨left, leftLt⟩ with ⟨notInit, notConfirm, _, byte, _, _⟩
  rcases sub_fields ⟨sub, subLt⟩ with ⟨notDone, index, _, _⟩
  simp only at notInit notConfirm byte notDone index
  rw [nextRequest, subEq, if_neg notDone, bitEq, if_neg notInit, index,
    Exec.indexArray_of_lt subLt, pure_bind, if_neg notConfirm, byte]

theorem nextRequest_confirm (subEq : master.sub = UInt8.ofNat sub) (subLt : sub < 4)
    (bitEq : master.bit = bitAt 0) :
    master.nextRequest = pure (some (encodeFastscan master.id[sub] 0
      (UInt8.ofNat sub) ((UInt8.ofNat sub + 1) &&& 3))) := by
  rcases sub_fields ⟨sub, subLt⟩ with ⟨notDone, index, _, _⟩
  simp only at notDone index
  rw [nextRequest, subEq, if_neg notDone, bitEq, if_neg (by decide), index,
    Exec.indexArray_of_lt subLt, pure_bind, if_pos (by decide)]

theorem nextRequest_complete (subEq : master.sub = 4) : master.nextRequest = pure none := by
  rw [nextRequest, subEq, if_pos (by decide)]

theorem onResponse_probe (responded : Bool) (subEq : master.sub = UInt8.ofNat sub)
    (subLt : sub < 4) (bitEq : master.bit = bitAt (left + 1)) (leftLt : left < 32) :
    master.onResponse responded = pure { master with
      id := if responded then master.id
        else master.id.set sub (master.id[sub] ||| (1 <<< UInt32.ofNat left))
      bit := bitAt left } := by
  rcases bitAt_succ ⟨left, leftLt⟩ with ⟨notInit, notConfirm, notMin, _, amount, previous⟩
  rcases sub_fields ⟨sub, subLt⟩ with ⟨_, index, _, _⟩
  simp only at notInit notConfirm notMin amount previous index
  rw [onResponse, bitEq, if_neg notInit, if_neg notConfirm, subEq, index,
    Exec.indexArray_of_lt subLt, amount, Exec.shiftLeft_of_lt _ leftLt,
    Exec.checkedPred, if_neg notMin, previous]
  cases responded with
  | true => rfl
  | false =>
      simp only [Bool.false_eq_true, if_false, pure_bind]
      rw [Exec.setArray_of_lt _ subLt, pure_bind]

theorem onResponse_confirm (responded : Bool) (subEq : master.sub = UInt8.ofNat sub)
    (subLt : sub < 4) (bitEq : master.bit = bitAt 0) :
    master.onResponse responded = pure { master with
      sub := UInt8.ofNat (sub + 1), bit := bitAt 32 } := by
  rcases sub_fields ⟨sub, subLt⟩ with ⟨_, _, notMax, next⟩
  simp only at notMax next
  rw [onResponse, bitEq, if_neg (by decide), if_pos (by decide), subEq,
    Exec.checkedSucc, if_neg notMax, next, pure_bind]
  rfl

end FastscanMaster

/-! ## The documented loop -/

structure Scan where
  master : FastscanMaster
  slaves : List LssSlave
  deriving DecidableEq

namespace Scan

/-- Give one frame to every slave. The result is the slaves with what each of
them answers. -/
def broadcast (req : LssFrame) (slaves : List LssSlave) :
    Exec (List (LssSlave × Option LssFrame)) :=
  slaves.mapM fun slave => slave.handle req

def step (scan : Scan) : Exec (Option Scan) := do
  match ← scan.master.nextRequest with
  | none => pure none
  | some req => do
      let handled ← broadcast req scan.slaves
      let master ← scan.master.onResponse (handled.any fun answer => answer.2.isSome)
      pure (some ⟨master, handled.map Prod.fst⟩)

/-- The slaves, computed from what they were at some earlier point, after a
request and its answers. -/
theorem step_of_next {master next : FastscanMaster} {req : LssFrame}
    (slaves : List LssSlave) (before : LssSlave → LssSlave) {after : LssSlave → LssSlave}
    {answer : LssSlave → Option LssFrame}
    (requests : master.nextRequest = pure (some req))
    (handled : ∀ slave ∈ slaves,
      (before slave).handle req = pure (after slave, answer slave))
    (advanced : master.onResponse (slaves.any fun slave => (answer slave).isSome) =
      pure next) :
    step ⟨master, slaves.map before⟩ = pure (some ⟨next, slaves.map after⟩) := by
  have all : broadcast req (slaves.map before) =
      pure (slaves.map fun slave => (after slave, answer slave)) := by
    rw [broadcast, List.mapM_map]
    exact Exec.mapM_eq_pure handled
  have same : ((slaves.map fun slave => (after slave, answer slave)).any
      fun answer => answer.2.isSome) = slaves.any fun slave => (answer slave).isSome := by
    rw [List.any_map]
    rfl
  rw [step, requests, pure_bind]
  simp only [all, pure_bind, same, advanced, List.map_map]
  rfl

theorem step_of_complete {scan : Scan} (complete : scan.master.sub = 4) :
    scan.step = pure none := by
  rw [step, FastscanMaster.nextRequest_complete complete, pure_bind]

end Scan

end CanOpen.Lss
