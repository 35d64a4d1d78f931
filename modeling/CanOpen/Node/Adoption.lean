import CanOpen.Lss.Identity
import CanOpen.Node.Effects
import CanOpen.Node.Traffic

/-! # The node-id a node has adopted

An adopted node-id stays pending in the slave until a frame selects the slave again, if the
slave was waiting when the id was adopted. A slave that is still in configuration takes
every id that the master configures.
-/

namespace CanOpen

/-! ## Frames that select no slave -/

namespace Lss

def IsSelecting (f : LssFrame) : Prop := IsSwitch f ∨ f.get 0 = csFastscan

instance (f : LssFrame) : Decidable (IsSelecting f) := by
  unfold IsSelecting
  infer_instance

def configuredNodeId (f : LssFrame) : Option UInt8 :=
  if f.get 0 = csConfigureNodeId ∧
      ((1 ≤ f.get 1 ∧ f.get 1 ≤ 127) ∨ f.get 1 = unconfiguredNodeId) then some (f.get 1)
  else none

namespace LssSlave

variable {req : LssFrame}

theorem handle_of_waiting {slave : LssSlave} (waiting : slave.state = .waiting)
    (quiet : ¬ IsSelecting req) : slave.handle req = pure (slave, none) := by
  simp only [IsSelecting, IsSwitch, List.mem_cons, List.not_mem_nil, or_false, not_or] at quiet
  rcases quiet with ⟨⟨global, vendor, product, revision, serial⟩, fastscan⟩
  have idle : ¬ slave.state = .configuration := by
    rw [waiting]
    decide
  simp [handle, idle, global, vendor, product, revision, serial, fastscan]

/-- A slave in configuration takes the node-id in a configure frame, and of the other
frames that select no slave none changes it. -/
theorem handle_of_configuring {slave : LssSlave} (configuring : slave.state = .configuration)
    (quiet : ¬ IsSelecting req) :
    ∃ response, slave.handle req = pure ({ slave with
      pendingNodeId := (configuredNodeId req).getD slave.pendingNodeId }, response) := by
  simp only [IsSelecting, IsSwitch, List.mem_cons, List.not_mem_nil, or_false, not_or] at quiet
  rcases quiet with ⟨⟨global, vendor, product, revision, serial⟩, fastscan⟩
  unfold handle
  simp only [global, vendor, product, revision, serial, fastscan, configuring, if_false, and_true,
    configuredNodeId]
  by_cases configures : req.get 0 = csConfigureNodeId
  · simp only [configures, if_true, true_and]
    split
    · exact ⟨_, rfl⟩
    · exact ⟨some (frameByte csConfigureNodeId 1), by simp [← configuring]⟩
  · simp only [configures, if_false, false_and, Option.getD_none]
    split_ifs <;> exact ⟨_, by rw [← configuring]⟩

end LssSlave

end Lss

/-! ## Adopting a node-id -/

namespace Node

open Lss (LssSlave)

variable {N : Nat}

def pendingNodeId (node : Node N) : Option UInt8 := node.lss.map LssSlave.pendingNodeId

def LssWaiting (node : Node N) : Prop := ∃ slave, node.lss = some slave ∧ slave.state = .waiting

structure KeepsAdopted (node : Node N) (id : NodeId) : Prop where
  pending : node.pendingNodeId = some id.raw
  again : node.applyLssNodeId.2 = some id

theorem keepsAdopted_iff {node : Node N} {id : NodeId} (positive : 1 ≤ id.raw) :
    node.KeepsAdopted id ↔ node.pendingNodeId = some id.raw := by
  constructor
  · exact KeepsAdopted.pending
  · intro pending
    have enabled := pending
    rw [pendingNodeId, Option.map_eq_some_iff] at enabled
    rcases enabled with ⟨slave, enabled, sameId⟩
    refine ⟨pending, ?_⟩
    rw [applyLssNodeId_eq_some_iff.mpr ⟨slave, enabled, sameId, positive, rfl⟩]

/-! ## Frames after the adoption -/

def lssFrame (frame : UInt16 × List UInt8) : Option Lss.LssFrame :=
  if frame.1 = Lss.lssMasterCobId then (padFrame frame.2).toOption else none

/-- A frame of the LSS master that can take a slave to the configuration state. -/
def IsSelecting (frame : UInt16 × List UInt8) : Prop :=
  ∃ f, lssFrame frame = some f ∧ Lss.IsSelecting f

def configuredNodeId (frame : UInt16 × List UInt8) : Option UInt8 :=
  (lssFrame frame).bind Lss.configuredNodeId

section

variable {node after : Node N} {slave : LssSlave} {frame : UInt16 × List UInt8}
  {tx : Option TxFrame}

theorem receive_of_lssFrame_eq_none (other : lssFrame frame = none)
    (taken : node.receive frame = pure (after, tx)) :
    after.lss = node.lss ∧ (frame.1 = Lss.lssMasterCobId → after = node ∧ tx = none) := by
  by_cases isLss : frame.1 = Lss.lssMasterCobId
  · suffices same : after = node ∧ tx = none from ⟨by rw [same.1], fun _ => same⟩
    rw [receive, onFrame, if_pos isLss] at taken
    unfold onLss at taken
    split at taken
    · cases taken
      exact ⟨rfl, rfl⟩
    · split at taken
      · cases taken
        exact ⟨rfl, rfl⟩
      · next short =>
          rcases padFrame_returns (Nat.not_lt.mp short) with ⟨f, padded, -⟩
          rw [lssFrame, if_pos isLss, padded] at other
          cases other
  · refine ⟨?_, fun equal => absurd equal isLss⟩
    cases onFrame_served taken with
    | lss before _ _ equal => exact absurd equal isLss
    | ignored | nmt | sdo | rpdo => rfl

theorem receive_of_lssFrame {f : Lss.LssFrame} {handled : LssSlave}
    {response : Option Lss.LssFrame} (enabled : node.lss = some slave)
    (reads : lssFrame frame = some f) (handles : slave.handle f = pure (handled, response))
    (taken : node.receive frame = pure (after, tx)) :
    after = { node with lss := some handled } ∧ (response = none → tx = none) := by
  unfold lssFrame at reads
  split at reads
  · next isLss =>
      have padded : padFrame frame.2 = pure f := by
        cases pads : padFrame frame.2 with
        | error panic =>
            rw [pads] at reads
            cases reads
        | ok read =>
            rw [pads] at reads
            cases reads
            rfl
      have short := short_of_padFrame padded
      rw [receive, onFrame, if_pos isLss, onLss, enabled] at taken
      dsimp only at taken
      rw [if_neg (Nat.not_lt.mpr short), padded, pure_bind, handles, pure_bind] at taken
      cases response with
      | none =>
          cases taken
          exact ⟨rfl, fun _ => rfl⟩
      | some response =>
          rcases TxFrame.new_of_response Lss.lssSlaveCobId response with ⟨frame, built, -⟩
          simp only [built, pure_bind] at taken
          cases taken
          exact ⟨rfl, fun none => by cases none⟩
  · cases reads

theorem receive_keeps_state (enabled : node.lss = some slave) (quiet : ¬ IsSelecting frame)
    (taken : node.receive frame = pure (after, tx)) :
    ∃ next, after.lss = some next ∧ next.state = slave.state ∧
      next.pendingNodeId = (if slave.state = .waiting then slave.pendingNodeId
        else (configuredNodeId frame).getD slave.pendingNodeId) ∧
      (slave.state = .waiting → frame.1 = Lss.lssMasterCobId → after = node ∧ tx = none) := by
  cases reads : lssFrame frame with
  | none =>
      rcases receive_of_lssFrame_eq_none reads taken with ⟨same, idle⟩
      refine ⟨slave, by rw [same, enabled], rfl, ?_, fun _ => idle⟩
      simp [configuredNodeId, reads]
  | some f =>
      have quietFrame : ¬ Lss.IsSelecting f := fun selecting => quiet ⟨f, reads, selecting⟩
      cases inState : slave.state with
      | waiting =>
          rcases receive_of_lssFrame enabled reads
            (LssSlave.handle_of_waiting inState quietFrame) taken with ⟨rfl, silent⟩
          have same : { node with lss := some slave } = node := by rw [← enabled]
          exact ⟨slave, rfl, inState, rfl, fun _ _ => ⟨same, silent rfl⟩⟩
      | configuration =>
          rcases LssSlave.handle_of_configuring inState quietFrame with ⟨response, handles⟩
          rcases receive_of_lssFrame enabled reads handles taken with ⟨rfl, -⟩
          refine ⟨_, rfl, inState, ?_, fun waiting => by cases waiting⟩
          simp [configuredNodeId, reads]

/-- The adopted node-id stays pending through a run without selecting frames exactly if the
slave is waiting or no frame configures another one. -/
theorem pending_of_run {id : UInt8} {frames : List (UInt16 × List UInt8)} {final : Node N}
    {events : List (Trace.Event (Node N) (UInt16 × List UInt8) (Option TxFrame))}
    (enabled : node.lss = some slave) (pending : slave.pendingNodeId = id)
    (quiet : ∀ frame ∈ frames, ¬ IsSelecting frame)
    (ran : Trace.run receive node frames = pure (events, final)) :
    (∀ event ∈ events, event.after.pendingNodeId = some id) ↔
      slave.state = .waiting ∨
        ∀ frame ∈ frames, ∀ other, configuredNodeId frame = some other → other = id := by
  induction frames generalizing node slave events with
  | nil =>
      cases ran
      simp
  | cons frame frames induction =>
      rcases Trace.run_cons_eq_pure_iff.mp ran with ⟨after, tx, later, taken, laterRan, rfl⟩
      rw [List.forall_mem_cons] at quiet
      rcases receive_keeps_state enabled quiet.1 taken with
        ⟨next, nextEnabled, sameState, nextPending, -⟩
      have head : after.pendingNodeId = some next.pendingNodeId := by
        rw [pendingNodeId, nextEnabled, Option.map_some]
      rw [List.forall_mem_cons, List.forall_mem_cons, head, Option.some.injEq]
      by_cases kept : next.pendingNodeId = id
      · have rest := induction nextEnabled kept quiet.2 laterRan
        rw [sameState] at rest
        simp only [kept, true_and, rest]
        apply or_congr_right'
        intro configuring
        rw [if_neg configuring, pending] at nextPending
        constructor
        · intro others
          refine ⟨fun other configures => ?_, others⟩
          rw [configures, Option.getD_some] at nextPending
          exact nextPending.symm.trans kept
        · exact And.right
      · simp only [kept, false_and, false_iff, not_or, not_and]
        have configuring : ¬ slave.state = .waiting := by
          intro waiting
          rw [if_pos waiting, pending] at nextPending
          exact kept nextPending
        refine ⟨configuring, fun own => absurd ?_ kept⟩
        rw [if_neg configuring, pending] at nextPending
        cases configures : configuredNodeId frame with
        | none => simpa [configures] using nextPending
        | some other =>
            rw [nextPending, configures, Option.getD_some]
            exact own other configures

theorem idle_of_run {frames : List (UInt16 × List UInt8)} {final : Node N}
    {events : List (Trace.Event (Node N) (UInt16 × List UInt8) (Option TxFrame))}
    (waits : node.LssWaiting) (quiet : ∀ frame ∈ frames, ¬ IsSelecting frame)
    (ran : Trace.run receive node frames = pure (events, final)) :
    ∀ event ∈ events, event.input.1 = Lss.lssMasterCobId →
      event.after = event.before ∧ event.output = none := by
  induction frames generalizing node events with
  | nil =>
      cases ran
      simp
  | cons frame frames induction =>
      rcases Trace.run_cons_eq_pure_iff.mp ran with ⟨after, tx, later, taken, laterRan, rfl⟩
      rw [List.forall_mem_cons] at quiet
      rcases waits with ⟨slave, enabled, waiting⟩
      rcases receive_keeps_state enabled quiet.1 taken with
        ⟨next, nextEnabled, sameState, -, idle⟩
      rw [List.forall_mem_cons]
      exact ⟨idle waiting, induction ⟨next, nextEnabled, sameState.trans waiting⟩ quiet.2
        laterRan⟩

end

/-- An adopted node-id stays pending and can be adopted again, through any frames that
select no slave, exactly if the slave was waiting when it was adopted or no frame configures
another node-id. A waiting slave takes no notice of the frames. -/
theorem adopted_id_kept_iff {node adopted : Node N} {id : NodeId}
    (applied : node.applyLssNodeId = (adopted, some id)) (frames : List (UInt16 × List UInt8))
    (quiet : ∀ frame ∈ frames, ¬ IsSelecting frame) :
    adopted.KeepsAdopted id ∧
      ∃ events final, Trace.run receive adopted frames = pure (events, final) ∧
        ((∀ event ∈ events, event.after.KeepsAdopted id) ↔
          adopted.LssWaiting ∨
            ∀ frame ∈ frames, ∀ other, configuredNodeId frame = some other → other = id.raw) ∧
        (adopted.LssWaiting → ∀ event ∈ events, event.input.1 = Lss.lssMasterCobId →
          event.after = event.before ∧ event.output = none) := by
  rcases applyLssNodeId_eq_some_iff.mp applied with ⟨slave, -, pending, positive, sameNode⟩
  have enabled : adopted.lss = some slave.adoptPending := by rw [sameNode]
  have sameServer : adopted.sdo = .new id := by rw [sameNode, setNodeId]
  have valid : adopted.sdo.Valid := sameServer ▸ Sdo.SdoServer.valid_new id
  have adoptedPending : slave.adoptPending.pendingNodeId = id.raw := pending
  have waits : adopted.LssWaiting ↔ slave.adoptPending.state = .waiting := by
    simp [LssWaiting, enabled]
  rcases (traffic_changes adopted frames).2 valid with ⟨events, final, ran⟩
  refine ⟨(keepsAdopted_iff positive).mpr ?_, events, final, ran, ?_, ?_⟩
  · rw [pendingNodeId, enabled, Option.map_some, adoptedPending]
  · rw [waits, ← pending_of_run enabled adoptedPending quiet ran]
    exact forall₂_congr fun event _ => keepsAdopted_iff positive
  · intro waiting
    exact idle_of_run waiting quiet ran

/-- The node-id `0x33` is adopted in configuration, and `0x34` is configured. -/
theorem adopted_id_kept_iff_configuring :
    let slave : LssSlave := ⟨⟨1, 2, 3, 4⟩, 0xFF, 0x33, .configuration, 0, 0⟩
    let node : Node 0 := { Node.new ⟨1, by decide⟩ .new with lss := some slave }
    let id : NodeId := ⟨0x33, by decide⟩
    let adopted := { node.setNodeId id with lss := some slave.adoptPending }
    let frames := [(Lss.lssMasterCobId, (Lss.encodeConfigureNodeId 0x34).toList)]
    adopted.KeepsAdopted id ∧
      ∃ events final, Trace.run receive adopted frames = pure (events, final) ∧
        ((∀ event ∈ events, event.after.KeepsAdopted id) ↔
          adopted.LssWaiting ∨
            ∀ frame ∈ frames, ∀ other, configuredNodeId frame = some other → other = id.raw) ∧
        (adopted.LssWaiting → ∀ event ∈ events, event.input.1 = Lss.lssMasterCobId →
          event.after = event.before ∧ event.output = none) := by
  apply adopted_id_kept_iff
    (show applyLssNodeId { Node.new ⟨1, by decide⟩ .new with
      lss := some ⟨⟨1, 2, 3, 4⟩, 0xFF, 0x33, .configuration, 0, 0⟩ } = _ from rfl)
  rw [List.forall_mem_singleton]
  rintro ⟨f, reads, selecting⟩
  cases reads
  exact absurd selecting (by decide)

/-- A slave is switched to configuration with all others and configured, and its node-id is
adopted. The node-id that the master configures in the next slave replaces it. -/
theorem adopted_id_replaced :
    let placeholder : Node 0 :=
      (Node.new ⟨1, by decide⟩ .new).enableLssUnconfigured ⟨1, 2, 3, 4⟩
    let commissioning := [(Lss.lssMasterCobId, (Lss.encodeSwitchGlobal true).toList),
      (Lss.lssMasterCobId, (Lss.encodeConfigureNodeId 0x33).toList)]
    let next := (Lss.lssMasterCobId, (Lss.encodeConfigureNodeId 0x34).toList)
    ∃ events configured adopted laterEvents final,
      Trace.run receive placeholder commissioning = pure (events, configured) ∧
        configured.applyLssNodeId = (adopted, some ⟨0x33, by decide⟩) ∧
        ¬ IsSelecting next ∧
        Trace.run receive adopted [next] = pure (laterEvents, final) ∧
        final.applyLssNodeId.2 = some ⟨0x34, by decide⟩ ∧
        ¬ ∀ event ∈ laterEvents, event.after.KeepsAdopted ⟨0x33, by decide⟩ := by
  refine ⟨_, _, _, [_], _, rfl, rfl, ?_, rfl, rfl, ?_⟩
  · rintro ⟨f, reads, selecting⟩
    cases reads
    exact absurd selecting (by decide)
  · rw [List.forall_mem_singleton]
    intro keeps
    exact absurd keeps.pending (by decide)

end Node

end CanOpen
