import CanOpen.Node.Transmission
import Mathlib.Data.List.DropRight

/-! # What a node signals on its own

The toggle of node guarding, the error record and the SYNC counter form a machine of their
own: they follow the operations of the device, and nothing received from the bus reaches them.
-/

namespace CanOpen

variable {N : Nat}

/-! ## The machine -/

/-- The part of a node that it signals without being asked for an object. -/
structure Producers where
  guardToggle : Bool
  errorRegister : UInt8
  errorHistory : List UInt32
  syncProducer : Option SyncCounter
  deriving DecidableEq

def Node.producers (node : Node N) : Producers :=
  ⟨node.guardToggle, node.errorRegister, node.errorHistory.toList, node.syncProducer⟩

namespace Producers

def next (producers : Producers) : NodeOp N → Producers
  | .boot => { producers with guardToggle := false }
  | .nodeGuardResponse => { producers with guardToggle := !producers.guardToggle }
  | .raiseEmergency code register _ => { producers with
      errorRegister := producers.errorRegister ||| (register.bits ||| ErrorRegister.generic)
      errorHistory := (code.toUInt32 :: producers.errorHistory).take maxErrorHistory }
  | .clearErrors => { producers with errorRegister := 0, errorHistory := [] }
  | .enableSyncProducer counterOverflow => { producers with
      syncProducer := if isValidCounterOverflow counterOverflow then some ⟨counterOverflow, 0⟩
        else producers.syncProducer }
  | .produceSync => { producers with
      syncProducer := producers.syncProducer.map SyncCounter.next }
  | _ => producers

end Producers

theorem Node.Served.producers {node : Node N} {cobId : UInt16} {data : List UInt8}
    {out : Node N × Option TxFrame} (served : Served node cobId data out) :
    out.1.producers = node.producers := by
  cases served <;> rfl

theorem Node.applyLssNodeId_producers (node : Node N) :
    node.applyLssNodeId.1.producers = node.producers := by
  unfold applyLssNodeId
  split
  · rfl
  · split <;> rfl

theorem Node.configurePdosFromOd_producers (node : Node N) :
    node.configurePdosFromOd.producers = node.producers := by
  rcases node.configurePdosFromOd_slots with ⟨rpdos, tpdos, configured, -⟩
  rw [configured]
  rfl

/-- The node refines the machine: each operation does to its producers what it does to them
there. -/
theorem NodeOp.perform_producers {node after : Node N} {op : NodeOp N} {frames : List TxFrame}
    (performed : op.perform node = pure (after, frames)) :
    after.producers = node.producers.next op := by
  cases op with
  | enableLss | enableLssUnconfigured | setNodeId | takeWrittenObject | odMut =>
      cases performed
      rfl
  | applyLssNodeId =>
      cases performed
      exact node.applyLssNodeId_producers
  | configurePdosFromOd =>
      cases performed
      exact node.configurePdosFromOd_producers
  | addRpdo cobId mapping =>
      cases performed
      unfold Node.addRpdo
      split <;> rfl
  | addTpdo cobId mapping transmission =>
      cases performed
      unfold Node.addTpdo
      split <;> rfl
  | boot =>
      simp only [perform, Node.boot, Exec.bind_eq_pure_iff] at performed
      rcases performed with ⟨_, ⟨_, -, ⟨⟩⟩, ⟨⟩⟩
      rfl
  | nodeGuardResponse =>
      simp only [perform, Node.nodeGuardResponse, Exec.bind_eq_pure_iff] at performed
      rcases performed with ⟨_, ⟨_, -, ⟨⟩⟩, ⟨⟩⟩
      rfl
  | heartbeat | syncTpdos | tpdo =>
      simp only [perform, Exec.bind_eq_pure_iff] at performed
      rcases performed with ⟨_, -, ⟨⟩⟩
      rfl
  | raiseEmergency code register info =>
      simp only [perform, Node.raiseEmergency, Exec.bind_eq_pure_iff] at performed
      rcases performed with ⟨_, ⟨recorded, records, _, -, ⟨⟩⟩, ⟨⟩⟩
      rcases Node.recordError_returns node.errorHistory code.toUInt32 with ⟨_, again, content⟩
      cases records.symm.trans again
      simp only [Node.producers, Producers.next, Node.mirrorErrorObjects, content]
      rfl
  | clearErrors =>
      simp only [perform, Node.clearErrors, Exec.bind_eq_pure_iff] at performed
      rcases performed with ⟨_, ⟨_, -, ⟨⟩⟩, ⟨⟩⟩
      rfl
  | enableSyncProducer counterOverflow =>
      cases performed
      unfold Node.enableSyncProducer SyncCounter.new
      cases valid : isValidCounterOverflow counterOverflow with
      | false => simp [Producers.next, valid]; rfl
      | true => simp [Producers.next, valid]; rfl
  | produceSync =>
      simp only [perform, Exec.bind_eq_pure_iff] at performed
      rcases performed with ⟨⟨next, frame⟩, produced, ⟨⟩⟩
      unfold Node.produceSync at produced
      split at produced
      · next absent =>
          cases produced
          simp [Node.producers, Producers.next, absent]
      · next counter present =>
          rw [counter.advance_eq] at produced
          simp only [pure_bind, Exec.bind_eq_pure_iff] at produced
          rcases produced with ⟨_, -, ⟨⟩⟩
          simp [Node.producers, Producers.next, present]
  | onFrame cobId data =>
      simp only [perform, Exec.bind_eq_pure_iff] at performed
      rcases performed with ⟨⟨next, tx⟩, received, ⟨⟩⟩
      exact (Node.onFrame_served received).producers

/-! ## The machine in closed form -/

namespace NodeOp

def isBoot : NodeOp N → Bool
  | .boot => true
  | _ => false

def isGuard : NodeOp N → Bool
  | .nodeGuardResponse => true
  | _ => false

def isClear : NodeOp N → Bool
  | .clearErrors => true
  | _ => false

def isSync : NodeOp N → Bool
  | .produceSync => true
  | _ => false

def raisedError : NodeOp N → Option (UInt16 × ErrorRegister)
  | .raiseEmergency code register _ => some (code, register)
  | _ => none

def enabledOverflow : NodeOp N → Option UInt8
  | .enableSyncProducer counterOverflow =>
      if isValidCounterOverflow counterOverflow then some counterOverflow else none
  | _ => none

def since (marks : NodeOp N → Bool) (ops : List (NodeOp N)) : List (NodeOp N) :=
  ops.rtakeWhile fun op => !marks op

theorem since_concat (marks : NodeOp N → Bool) (ops : List (NodeOp N)) (op : NodeOp N) :
    since marks (ops ++ [op]) = if marks op then [] else since marks ops ++ [op] := by
  rw [since, List.rtakeWhile_concat]
  cases marks op <;> rfl

def guardResponses (ops : List (NodeOp N)) : Nat := (since isBoot ops).countP isGuard

def openErrors (ops : List (NodeOp N)) : List (UInt16 × ErrorRegister) :=
  (since isClear ops).filterMap raisedError

def errorClasses (errors : List (UInt16 × ErrorRegister)) : UInt8 :=
  errors.foldl (fun bits error => bits ||| (error.2.bits ||| ErrorRegister.generic)) 0

def syncOverflow (ops : List (NodeOp N)) : Option UInt8 := (ops.filterMap enabledOverflow).getLast?

def producedSyncs (ops : List (NodeOp N)) : Nat :=
  (since (fun op => op.enabledOverflow.isSome) ops).countP isSync

theorem guardResponses_concat (ops : List (NodeOp N)) (op : NodeOp N) :
    guardResponses (ops ++ [op]) =
      if op.isBoot then 0 else guardResponses ops + if op.isGuard then 1 else 0 := by
  rw [guardResponses, since_concat]
  cases op.isBoot with
  | true => rfl
  | false => simp [guardResponses, List.countP_append, List.countP_singleton]

theorem openErrors_concat (ops : List (NodeOp N)) (op : NodeOp N) :
    openErrors (ops ++ [op]) =
      if op.isClear then [] else openErrors ops ++ op.raisedError.toList := by
  rw [openErrors, since_concat]
  cases op.isClear with
  | true => rfl
  | false =>
      simp only [Bool.false_eq_true, if_false, openErrors, List.filterMap_append]
      cases raised : op.raisedError with
      | none => simp [List.filterMap_cons_none raised]
      | some error => simp [List.filterMap_cons_some raised]

theorem syncOverflow_concat (ops : List (NodeOp N)) (op : NodeOp N) :
    syncOverflow (ops ++ [op]) = op.enabledOverflow.or (syncOverflow ops) := by
  rw [syncOverflow, List.filterMap_append]
  cases enabled : op.enabledOverflow with
  | none => simp [List.filterMap_cons_none enabled, syncOverflow]
  | some overflow => simp [List.filterMap_cons_some enabled]

theorem producedSyncs_concat (ops : List (NodeOp N)) (op : NodeOp N) :
    producedSyncs (ops ++ [op]) =
      if op.enabledOverflow.isSome then 0
      else producedSyncs ops + if op.isSync then 1 else 0 := by
  rw [producedSyncs, since_concat]
  cases op.enabledOverflow.isSome with
  | true => rfl
  | false => simp [producedSyncs, List.countP_append, List.countP_singleton]

attribute [simp] isBoot isGuard isClear isSync raisedError enabledOverflow

end NodeOp

def SyncCounter.countAt (overflow : UInt8) (produced : Nat) : UInt8 :=
  if overflow < 2 ∨ produced = 0 then 0 else UInt8.ofNat ((produced - 1) % overflow.toNat + 1)

theorem SyncCounter.countAt_succ {overflow : UInt8} (counting : 2 ≤ overflow) (produced : Nat) :
    countAt overflow (produced + 1) = UInt8.ofNat (produced % overflow.toNat + 1) := by
  have notLess : ¬ overflow < 2 := UInt8.not_lt.mpr counting
  simp [countAt, notLess]

theorem SyncCounter.next_countAt (overflow : UInt8) (produced : Nat) :
    SyncCounter.next ⟨overflow, countAt overflow produced⟩ =
      ⟨overflow, countAt overflow (produced + 1)⟩ := by
  by_cases counting : 2 ≤ overflow
  · have bound := overflow.toNat_lt
    have large : 2 ≤ overflow.toNat := UInt8.le_iff_toNat_le.mp counting
    have isCounting : SyncCounter.isCounting ⟨overflow, countAt overflow produced⟩ = true := by
      simpa [SyncCounter.isCounting] using counting
    rw [next, if_pos isCounting, countAt_succ counting]
    congr 1
    cases produced with
    | zero =>
        have first : countAt overflow 0 = 0 := by simp [countAt]
        rw [first, if_neg (by
          intro le
          have none := UInt8.le_iff_toNat_le.mp le
          simp only [UInt8.reduceToNat] at none
          omega), Nat.zero_mod]
        rfl
    | succ produced =>
        have within : produced % overflow.toNat < overflow.toNat := Nat.mod_lt _ (by omega)
        have value : (UInt8.ofNat (produced % overflow.toNat + 1)).toNat =
            produced % overflow.toNat + 1 := by
          rw [UInt8.toNat_ofNat', Nat.mod_eq_of_lt (by omega)]
        have reached : overflow ≤ UInt8.ofNat (produced % overflow.toNat + 1) ↔
            overflow.toNat ≤ produced % overflow.toNat + 1 := by
          rw [UInt8.le_iff_toNat_le, value]
        rw [countAt_succ counting]
        simp only [reached]
        have step := Nat.add_mod produced 1 overflow.toNat
        rw [Nat.mod_eq_of_lt (show 1 < overflow.toNat by omega)] at step
        split
        · next full =>
            have last : produced % overflow.toNat + 1 = overflow.toNat := by omega
            rw [step, last, Nat.mod_self]
            rfl
        · next room =>
            rw [step, Nat.mod_eq_of_lt (show produced % overflow.toNat + 1 < _ by omega)]
            apply UInt8.toNat_inj.mp
            simp only [UInt8.toNat_add, value, UInt8.toNat_ofNat', UInt8.reduceToNat]
  · have less : overflow < 2 := UInt8.not_le.mp counting
    have idle : SyncCounter.isCounting ⟨overflow, countAt overflow produced⟩ = false := by
      simpa [SyncCounter.isCounting] using counting
    rw [next, idle]
    simp [countAt, less]

namespace Producers

/-- What the operations since the last boot-up, the last clearing of errors and the last enabling
of a SYNC producer amount to. -/
def ofOps (ops : List (NodeOp N)) : Producers where
  guardToggle := NodeOp.guardResponses ops % 2 = 1
  errorRegister := NodeOp.errorClasses (NodeOp.openErrors ops)
  errorHistory :=
    ((NodeOp.openErrors ops).map fun error => error.1.toUInt32).reverse.take maxErrorHistory
  syncProducer := (NodeOp.syncOverflow ops).map fun overflow =>
    ⟨overflow, SyncCounter.countAt overflow (NodeOp.producedSyncs ops)⟩

theorem ofOps_concat (ops : List (NodeOp N)) (op : NodeOp N) :
    ofOps (ops ++ [op]) = (ofOps ops).next op := by
  unfold ofOps
  rw [NodeOp.guardResponses_concat, NodeOp.openErrors_concat, NodeOp.syncOverflow_concat,
    NodeOp.producedSyncs_concat]
  cases op with
  | nodeGuardResponse =>
      have parity : decide ((NodeOp.guardResponses ops + 1) % 2 = 1) =
          !decide (NodeOp.guardResponses ops % 2 = 1) := by
        rw [← decide_not]
        congr 1
        apply propext
        omega
      simp [next, parity]
  | raiseEmergency code register info =>
      have latest (codes : List UInt32) : (code.toUInt32 :: codes).take maxErrorHistory =
          (code.toUInt32 :: codes.take maxErrorHistory).take maxErrorHistory := by
        simp [maxErrorHistory, List.take_take]
      simp [next, NodeOp.errorClasses, ← latest]
  | clearErrors => simp [next, NodeOp.errorClasses]
  | enableSyncProducer counterOverflow =>
      cases valid : isValidCounterOverflow counterOverflow with
      | true => simp [next, valid, SyncCounter.countAt]
      | false => simp [next, valid]
  | produceSync => simp [next, Function.comp_def, SyncCounter.next_countAt]
  | _ => simp [next]

end Producers

/-! ## Runs of a node -/

theorem NodeOp.producers_in_run {nodeId : NodeId} {od : ObjectDictionary N}
    {ops : List (NodeOp N)} {events : List (BusEvent N)} {final : Node N}
    (ran : Trace.run NodeOp.step (Node.new nodeId od) ops = pure (events, final)) :
    ∀ past event future, events = past ++ event :: future →
      event.before.producers = .ofOps (past.map Trace.Event.input) ∧
      event.after.producers = .ofOps (past.map Trace.Event.input ++ [event.input]) ∧
      Transmits event.before event.input event.output := by
  have history := Trace.run_history
    (fun (past : List (BusEvent N)) state =>
      state.producers = .ofOps (past.map Trace.Event.input))
    (fun past event => event.before.producers = .ofOps (past.map Trace.Event.input) ∧
      event.after.producers = .ofOps (past.map Trace.Event.input ++ [event.input]) ∧
      Transmits event.before event.input event.output) rfl
    (by
      intro past node op after sent before taken
      rcases NodeOp.step_eq_pure_iff.mp taken with ⟨frames, performed, -⟩
      have next : after.producers = .ofOps (past.map Trace.Event.input ++ [op]) := by
        rw [Producers.ofOps_concat, ← before, NodeOp.perform_producers performed]
      refine ⟨?_, before, next, NodeOp.transmits taken⟩
      rw [List.map_append, List.map_singleton]
      exact next) ran
  exact history.2

/-! ## Node guarding -/

/-- In every run, each response to a guarding request is on the channel of the node and carries
its state and a toggle that alternates from one response to the next, starting clear after
each boot-up. -/
theorem node_guarding_alternates (nodeId : NodeId) (od : ObjectDictionary N)
    (ops : List (NodeOp N)) :
    ∃ events final, Trace.run NodeOp.step (Node.new nodeId od) ops = pure (events, final) ∧
      ∀ past event future, events = past ++ event :: future →
        event.input = .nodeGuardResponse →
        ∃ byte, event.output = [(heartbeatCobId event.before.nodeId, [byte])] ∧
          decodeNodeGuard byte = .ok
            (NodeOp.guardResponses (past.map Trace.Event.input) % 2 = 1, event.before.state) := by
  rcases NodeOp.run_returns nodeId od ops with ⟨events, final, ran⟩
  refine ⟨events, final, ran, ?_⟩
  intro past event future split guards
  rcases NodeOp.producers_in_run ran past event future split with ⟨before, -, transmits⟩
  rw [guards] at transmits
  have toggle := congrArg Producers.guardToggle before
  generalize event.output = sent at transmits ⊢
  cases transmits with
  | guarded =>
      refine ⟨_, rfl, ?_⟩
      rw [decodeNodeGuard_encodeNodeGuard]
      exact congrArg (fun toggle => Except.ok (toggle, event.before.state)) toggle
  | silent _ silent => exact silent.elim

/-! ## Emergencies -/

theorem NodeOp.errorClasses_concat (errors : List (UInt16 × ErrorRegister))
    (error : UInt16 × ErrorRegister) :
    errorClasses (errors ++ [error]) =
      errorClasses errors ||| (error.2.bits ||| ErrorRegister.generic) :=
  List.foldl_concat ..

theorem NodeOp.errorClasses_eq_zero_iff {errors : List (UInt16 × ErrorRegister)} :
    errorClasses errors = 0 ↔ errors = [] := by
  induction errors using List.reverseRecOn with
  | nil => simp [errorClasses]
  | append_singleton errors error =>
      rw [errorClasses_concat]
      simp [UInt8.or_eq_zero_iff, ErrorRegister.generic]

/-- In every run, an emergency message tells the code that is raised and the classes of all errors
since they were cleared last, and clearing them is told by the error reset. At any time the error
register has these classes, and the history the latest codes of these errors. Nothing but raising
and clearing an error has an influence on them. -/
theorem emergencies_tell_the_open_errors (nodeId : NodeId) (od : ObjectDictionary N)
    (ops : List (NodeOp N)) :
    ∃ events final, Trace.run NodeOp.step (Node.new nodeId od) ops = pure (events, final) ∧
      ∀ past event future, events = past ++ event :: future →
        let errors := NodeOp.openErrors (past.map Trace.Event.input ++ [event.input])
        event.after.errorRegister = NodeOp.errorClasses errors ∧
        (ErrorRegister.hasError ⟨event.after.errorRegister⟩ = true ↔ errors ≠ []) ∧
        event.after.errorHistory.toList =
          (errors.reverse.map fun error => error.1.toUInt32).take 8 ∧
        (∀ code register info, event.input = .raiseEmergency code register info →
          ∃ data, event.output = [(emcyCobId event.before.nodeId, data)] ∧
            EmergencyMessage.decode data = .ok ⟨code, ⟨NodeOp.errorClasses errors⟩, info⟩) ∧
        (event.input = .clearErrors →
          ∃ data message, event.output = [(emcyCobId event.before.nodeId, data)] ∧
            EmergencyMessage.decode data = .ok message ∧ message.isErrorReset = true ∧
            message.errorRegister.hasError = false) := by
  rcases NodeOp.run_returns nodeId od ops with ⟨events, final, ran⟩
  refine ⟨events, final, ran, ?_⟩
  intro past event future split errors
  rcases NodeOp.producers_in_run ran past event future split with ⟨before, after, transmits⟩
  have register : event.after.errorRegister = NodeOp.errorClasses errors :=
    congrArg Producers.errorRegister after
  have history : event.after.errorHistory.toList =
      (errors.map fun error => error.1.toUInt32).reverse.take maxErrorHistory :=
    congrArg Producers.errorHistory after
  refine ⟨register, ?_, by rw [history, List.map_reverse]; rfl, ?_, ?_⟩
  · rw [ErrorRegister.hasError, decide_eq_true_iff, register, ne_eq,
      NodeOp.errorClasses_eq_zero_iff]
  · intro code classes info raises
    have told : NodeOp.errorClasses errors = event.before.errorRegister |||
        (classes.bits ||| ErrorRegister.generic) := by
      have earlier : event.before.errorRegister = NodeOp.errorClasses
          (NodeOp.openErrors (past.map Trace.Event.input)) :=
        congrArg Producers.errorRegister before
      rw [earlier, ← NodeOp.errorClasses_concat _ (code, classes)]
      simp only [errors, raises, NodeOp.openErrors_concat]
      rfl
    rw [told]
    rw [raises] at transmits
    generalize event.output = sent at transmits ⊢
    cases transmits with
    | raised => exact ⟨_, rfl, EmergencyMessage.decode_encode _⟩
    | silent _ silent => exact silent.elim
  · intro clears
    rw [clears] at transmits
    generalize event.output = sent at transmits ⊢
    cases transmits with
    | cleared =>
        exact ⟨_, .errorReset, rfl, EmergencyMessage.decode_encode _, rfl, rfl⟩
    | silent _ silent => exact silent.elim

/-! ## SYNC -/

theorem NodeOp.syncOverflow_valid {ops : List (NodeOp N)} {overflow : UInt8}
    (inForce : syncOverflow ops = some overflow) : isValidCounterOverflow overflow = true := by
  have enabled := List.mem_of_getLast? inForce
  rcases List.mem_filterMap.mp enabled with ⟨op, -, enables⟩
  cases op with
  | enableSyncProducer counterOverflow =>
      simp only [enabledOverflow, Option.ite_none_right_eq_some, Option.some.injEq] at enables
      exact enables.2 ▸ enables.1
  | _ => cases enables

/-- In every run, each SYNC that is produced is empty or carries its number in the cycle, counted
from the last time the producer was enabled. A node that is no producer has none. -/
theorem syncs_count_through_the_cycle (nodeId : NodeId) (od : ObjectDictionary N)
    (ops : List (NodeOp N)) :
    ∃ events final, Trace.run NodeOp.step (Node.new nodeId od) ops = pure (events, final) ∧
      ∀ past event future, events = past ++ event :: future → event.input = .produceSync →
        match NodeOp.syncOverflow (past.map Trace.Event.input) with
        | none => event.output = []
        | some overflow => ∃ data, event.output = [(syncCobId, data)] ∧
            Sync.decode data = .ok (if overflow = 0 then none else some (UInt8.ofNat
              (NodeOp.producedSyncs (past.map Trace.Event.input) % overflow.toNat + 1))) := by
  rcases NodeOp.run_returns nodeId od ops with ⟨events, final, ran⟩
  refine ⟨events, final, ran, ?_⟩
  intro past event future split produces
  rcases NodeOp.producers_in_run ran past event future split with ⟨before, -, transmits⟩
  have counter : event.before.syncProducer =
      (NodeOp.syncOverflow (past.map Trace.Event.input)).map fun overflow => ⟨overflow,
        SyncCounter.countAt overflow (NodeOp.producedSyncs (past.map Trace.Event.input))⟩ :=
    congrArg Producers.syncProducer before
  rw [produces] at transmits
  generalize event.output = sent at transmits ⊢
  cases inForce : NodeOp.syncOverflow (past.map Trace.Event.input) with
  | none =>
      rw [inForce, Option.map_none] at counter
      cases transmits with
      | noSync => rfl
      | sync present _ _ enabled => rw [counter] at enabled; cases enabled
      | silent _ silent => exact silent.elim
  | some overflow =>
      rw [inForce, Option.map_some] at counter
      cases transmits with
      | noSync absent => rw [counter] at absent; cases absent
      | sync present advanced count enabled advances =>
          rw [counter, Option.some.injEq] at enabled
          subst enabled
          rw [SyncCounter.advance_eq, Exec.pure_inj, Prod.mk.injEq, SyncCounter.next_countAt]
            at advances
          refine ⟨_, rfl, ?_⟩
          rw [Sync.decode_syncData, ← advances.2]
          have valid := NodeOp.syncOverflow_valid inForce
          simp only [isValidCounterOverflow, decide_eq_true_eq] at valid
          rcases valid with rfl | ⟨counting, -⟩
          · rfl
          · have notZero : overflow ≠ 0 := by
              rintro rfl
              exact absurd counting (by decide)
            simp [SyncCounter.isCounting, counting, notZero, SyncCounter.countAt_succ]
      | silent _ silent => exact silent.elim

end CanOpen
