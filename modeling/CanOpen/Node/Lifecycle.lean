import CanOpen.Node.Transmission
import Mathlib.Data.List.DropRight

/-! # The lifecycle of a node

The state of a node is decided by the last reset, the first boot-up behind it and the last
command behind that.
-/

namespace CanOpen

variable {N : Nat}

/-! ## What moves a node through its states -/

/-- What an NMT state machine is given: the end of the initialisation, or a command. -/
inductive LifecycleSignal where
  | boot
  | command (command : NmtCommand)
  deriving DecidableEq, Repr

namespace LifecycleSignal

def isReset : LifecycleSignal → Bool
  | command .resetNode | command .resetCommunication => true
  | _ => false

def target : LifecycleSignal → Option NmtState
  | command .startRemoteNode => some .operational
  | command .stopRemoteNode => some .stopped
  | command .enterPreOperational => some .preOperational
  | _ => none

def sinceBoot (signals : List LifecycleSignal) : List LifecycleSignal :=
  (signals.rtakeWhile fun signal => !signal.isReset).dropWhile (· != boot)

/-- The state that the signals lead to: that of the last command since the boot-up. -/
def stateAfter (signals : List LifecycleSignal) : NmtState :=
  match sinceBoot signals with
  | [] => .initialising
  | _ :: commands => ((commands.filterMap target).getLast?).getD .preOperational

end LifecycleSignal

namespace NmtStateMachine

open LifecycleSignal (sinceBoot stateAfter target)

def take (machine : NmtStateMachine) : LifecycleSignal → NmtStateMachine
  | .boot => machine.boot
  | .command command => machine.apply command

theorem sinceBoot_concat (signals : List LifecycleSignal) (signal : LifecycleSignal) :
    sinceBoot (signals ++ [signal]) =
      if signal.isReset then []
      else if sinceBoot signals = [] ∧ signal ≠ .boot then []
      else sinceBoot signals ++ [signal] := by
  rw [sinceBoot, List.rtakeWhile_concat]
  cases resets : signal.isReset with
  | true => rfl
  | false =>
      simp only [Bool.not_false, if_true, Bool.false_eq_true, if_false]
      rw [List.dropWhile_append]
      by_cases unbooted : sinceBoot signals = []
      · have empty : ((signals.rtakeWhile fun signal => !signal.isReset).dropWhile
            (· != .boot)).isEmpty = true := List.isEmpty_iff.mpr unbooted
        rw [if_pos empty, unbooted]
        by_cases boots : signal = .boot
        · simp [boots]
        · simp [boots]
      · have some_ : ((signals.rtakeWhile fun signal => !signal.isReset).dropWhile
            (· != .boot)).isEmpty = false := by
          rw [← Bool.not_eq_true, List.isEmpty_iff]
          exact unbooted
        rw [some_]
        simp only [Bool.false_eq_true, if_false, unbooted, false_and]
        rfl

theorem target_ne_initialising {signal : LifecycleSignal} {state : NmtState}
    (asks : target signal = some state) : state ≠ .initialising := by
  rintro rfl
  cases signal with
  | boot => cases asks
  | command command => cases command <;> cases asks

theorem stateAfter_eq_initialising_iff {signals : List LifecycleSignal} :
    stateAfter signals = .initialising ↔ sinceBoot signals = [] := by
  unfold stateAfter
  split
  · next unbooted => simp [unbooted]
  · next first commands booted =>
      rw [booted]
      simp only [reduceCtorEq, iff_false]
      cases last : (commands.filterMap target).getLast? with
      | none => simp
      | some state =>
          rcases List.mem_filterMap.mp (List.mem_of_getLast? last) with ⟨signal, -, asks⟩
          exact target_ne_initialising asks

theorem stateAfter_of_booted {signals commands : List LifecycleSignal} {first : LifecycleSignal}
    (booted : sinceBoot signals = first :: commands) :
    stateAfter signals = ((commands.filterMap target).getLast?).getD .preOperational := by
  rw [stateAfter, booted]

theorem take_of_booted {state : NmtState} (booted : state ≠ .initialising)
    {signal : LifecycleSignal} (keeps : signal.isReset = false) :
    take ⟨state⟩ signal = ⟨(target signal).getD state⟩ := by
  cases signal with
  | boot => cases state <;> first | rfl | exact absurd rfl booted
  | command command =>
      cases command <;> cases state <;> first | rfl | exact absurd rfl booted | cases keeps

theorem take_of_reset (machine : NmtStateMachine) {signal : LifecycleSignal}
    (resets : signal.isReset = true) : machine.take signal = ⟨.initialising⟩ := by
  cases signal with
  | boot => cases resets
  | command command => cases command <;> first | rfl | cases resets

theorem take_initialising {signal : LifecycleSignal} (noBoot : signal ≠ .boot) :
    take ⟨.initialising⟩ signal = ⟨.initialising⟩ := by
  cases signal with
  | boot => exact absurd rfl noBoot
  | command command => cases command <;> rfl

theorem stateAfter_concat (signals : List LifecycleSignal) (signal : LifecycleSignal) :
    (⟨stateAfter (signals ++ [signal])⟩ : NmtStateMachine) =
      take ⟨stateAfter signals⟩ signal := by
  have extended := sinceBoot_concat signals signal
  cases resets : signal.isReset with
  | true =>
      rw [resets, if_pos rfl] at extended
      rw [take_of_reset _ resets, stateAfter_eq_initialising_iff.mpr extended]
  | false =>
      rw [resets, if_neg Bool.false_ne_true] at extended
      cases earlier : sinceBoot signals with
      | nil =>
          rw [earlier] at extended
          rw [stateAfter_eq_initialising_iff.mpr earlier]
          by_cases boots : signal = .boot
          · subst boots
            rw [if_neg (by simp), List.nil_append] at extended
            rw [stateAfter_of_booted extended]
            rfl
          · rw [if_pos ⟨rfl, boots⟩] at extended
            rw [stateAfter_eq_initialising_iff.mpr extended, take_initialising boots]
      | cons first commands =>
          rw [earlier, if_neg (by simp), List.cons_append] at extended
          have booted : stateAfter signals ≠ .initialising := by
            rw [ne_eq, stateAfter_eq_initialising_iff, earlier]
            simp
          rw [take_of_booted booted resets, stateAfter_of_booted extended,
            stateAfter_of_booted earlier, List.filterMap_append]
          cases asks : target signal with
          | none => simp [List.filterMap_cons_none asks]
          | some state => simp [List.filterMap_cons_some asks]

end NmtStateMachine

/-! ## Runs of a node -/

namespace Node

def commandFor (node : Node N) (data : List UInt8) : Option NmtCommand :=
  match data with
  | specifier :: addressee :: _ =>
      match decodeCommand (commandFrame specifier addressee) with
      | .ok (command, target) =>
          if target = .broadcast ∨ target = node.nodeId then some command else none
      | .error _ => none
  | _ => none

def lifecycleSignal (node : Node N) : NodeOp N → Option LifecycleSignal
  | .boot => some .boot
  | .onFrame cobId data =>
      if cobId = nmtCommandCobId ∧ node.lssUnconfigured = false then
        (node.commandFor data).map .command
      else none
  | _ => none

theorem onNmt_nmt {node after : Node N} {data : List UInt8}
    (taken : node.onNmt data = pure after) :
    after.nmt = ((node.commandFor data).map node.nmt.apply).getD node.nmt := by
  unfold onNmt at taken
  match data with
  | [] | [_] =>
      cases taken
      rfl
  | specifier :: addressee :: rest =>
      have long : ¬ (specifier :: addressee :: rest).length < 2 := by simp
      have first : Exec.index (specifier :: addressee :: rest) 0 = pure specifier := rfl
      have second : Exec.index (specifier :: addressee :: rest) 1 = pure addressee := rfl
      rw [if_neg long, first, second, pure_bind, pure_bind] at taken
      rw [commandFor, commandFrame]
      split at taken
      · next fails =>
          rw [fails]
          cases taken
          rfl
      · next command target decodes =>
          rw [decodes]
          split at taken
          · next addressed =>
              cases taken
              simp [addressed]
          · next other =>
              cases taken
              simp [other]

theorem onFrame_nmt {node after : Node N} {cobId : UInt16} {data : List UInt8}
    {tx : Option TxFrame} (taken : node.onFrame cobId data = pure (after, tx)) :
    after.nmt = ((node.lifecycleSignal (.onFrame cobId data)).map node.nmt.take).getD
      node.nmt := by
  by_cases isNmt : cobId = nmtCommandCobId ∧ node.lssUnconfigured = false
  · rcases isNmt with ⟨rfl, configured⟩
    rw [onFrame_nmtCommand configured, Exec.bind_eq_pure_iff] at taken
    rcases taken with ⟨next, commanded, ⟨⟩⟩
    rw [onNmt_nmt commanded, lifecycleSignal, if_pos ⟨rfl, configured⟩, Option.map_map]
    rfl
  · rw [lifecycleSignal, if_neg isNmt]
    cases onFrame_served taken with
    | nmt _ _ _ _ sameId configured => exact absurd ⟨sameId, configured⟩ isNmt
    | _ => rfl

end Node

theorem NodeOp.step_nmt {node after : Node N} {op : NodeOp N} {sent : List BusFrame}
    (taken : op.step node = pure (after, sent)) :
    after.nmt = ((node.lifecycleSignal op).map node.nmt.take).getD node.nmt := by
  rcases NodeOp.step_eq_pure_iff.mp taken with ⟨frames, performed, -⟩
  cases NodeOp.effect performed with
  | received cobId data after tx received => exact Node.onFrame_nmt received
  | adopted id after applied =>
      rcases Node.applyLssNodeId_eq_some_iff.mp applied with ⟨slave, -, -, -, rfl⟩
      rfl
  | internal op after frames isInternal _ _ sameNmt =>
      cases op with
      | boot | onFrame => exact isInternal.elim
      | _ => exact sameNmt
  | _ => rfl

def lifecycleSignals (events : List (BusEvent N)) : List LifecycleSignal :=
  events.filterMap fun event => event.before.lifecycleSignal event.input

theorem lifecycleSignals_concat (events : List (BusEvent N)) (event : BusEvent N) :
    lifecycleSignals (events ++ [event]) =
      lifecycleSignals events ++ (event.before.lifecycleSignal event.input).toList := by
  rw [lifecycleSignals, List.filterMap_append, lifecycleSignals]
  congr 1

/-- In every run, a node is initialising exactly until it boots after its last reset, and is then
in the state of the last command for it, or pre-operational. Its heartbeats tell this state. -/
theorem lifecycle_follows_the_commands (nodeId : NodeId) (od : ObjectDictionary N)
    (ops : List (NodeOp N)) :
    ∃ events final, Trace.run NodeOp.step (Node.new nodeId od) ops = pure (events, final) ∧
      final.state = LifecycleSignal.stateAfter (lifecycleSignals events) ∧
      ∀ past event future, events = past ++ event :: future →
        event.before.state = LifecycleSignal.stateAfter (lifecycleSignals past) ∧
        (event.input = .heartbeat → ∃ frame : Vector UInt8 1,
          event.output = [(heartbeatCobId event.before.nodeId, frame.toList)] ∧
          decodeHeartbeat frame =
            .ok (LifecycleSignal.stateAfter (lifecycleSignals past))) := by
  rcases NodeOp.run_returns nodeId od ops with ⟨events, final, ran⟩
  have history := Trace.run_history
    (fun (past : List (BusEvent N)) state =>
      state.nmt = ⟨LifecycleSignal.stateAfter (lifecycleSignals past)⟩)
    (fun past event =>
      event.before.nmt = ⟨LifecycleSignal.stateAfter (lifecycleSignals past)⟩ ∧
        Transmits event.before event.input event.output) rfl
    (by
      intro past node op after sent before taken
      refine ⟨?_, before, NodeOp.transmits taken⟩
      rw [NodeOp.step_nmt taken, lifecycleSignals_concat]
      cases node.lifecycleSignal op with
      | none => simpa using before
      | some signal =>
          rw [Option.toList_some, NmtStateMachine.stateAfter_concat, ← before]
          rfl) ran
  refine ⟨events, final, ran, congrArg NmtStateMachine.state history.1, ?_⟩
  intro past event future split
  rcases history.2 past event future split with ⟨before, transmits⟩
  have state : event.before.state = LifecycleSignal.stateAfter (lifecycleSignals past) :=
    congrArg NmtStateMachine.state before
  refine ⟨state, fun beats => ?_⟩
  rw [beats] at transmits
  generalize event.output = sent at transmits ⊢
  cases transmits with
  | heartbeat =>
      refine ⟨_, rfl, ?_⟩
      rw [← state]
      cases event.before.state <;> rfl
  | silent _ silent => exact silent.elim

end CanOpen
