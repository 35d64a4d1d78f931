import CanOpen.Node.Effects
import CanOpen.Node.Isolation
import CanOpen.Sdo.Confirmation
import CanOpen.Sdo.Superseded

/-! # Transfers and resets

Neither a reset nor the boot behind it ends the transfer that the SDO server is in. A
segment that comes before the next initiate continues it in the new session.
-/

namespace CanOpen

open Lss (LssSlave)
open Sdo (SdoServer SdoPayload)
open Sdo.SdoServer (IsSegmentRequest)

variable {N : Nat}

/-! ## Segments that a server refuses -/

namespace Sdo.SdoServer

theorem refuses_segment {server : SdoServer} {od : ObjectDictionary N} {req : SdoPayload}
    {out : Handled N} (idle : server.transfer = none) (segment : IsSegmentRequest req)
    (handled : server.handle od req = pure out) :
    ∃ addr code, out.response = abort addr code ∧ out.od = od := by
  cases handle_effect handled with
  | dropped addr code => exact ⟨addr, code, rfl, rfl⟩
  | rejected addr code => exact ⟨addr, code, rfl, rfl⟩
  | clientAbort carries | expeditedWrite _ _ carries | downloadStarted _ carries
  | expeditedRead _ _ carries | uploadStarted _ _ carries =>
      rcases segment with segment | segment
      · exact absurd (carries.symm.trans segment) (by decide)
      · exact absurd (carries.symm.trans segment) (by decide)
  | uploadSegment _ _ _ _ _ _ current | downloadSegment _ _ _ _ _ _ current
  | downloadFinished _ _ _ _ _ _ _ current =>
      rw [idle] at current
      cases current

theorem idle_of_not_isInitiate {server : SdoServer} {od : ObjectDictionary N} {req : SdoPayload}
    {out : Handled N} (idle : server.transfer = none) (other : ¬ IsInitiate req)
    (handled : server.handle od req = pure out) : out.server.transfer = none := by
  cases handle_effect handled with
  | rejected | clientAbort | dropped | downloadFinished => first | rfl | exact idle
  | expeditedWrite _ _ initiate | downloadStarted _ initiate => exact absurd (.inl initiate) other
  | expeditedRead _ _ initiate | uploadStarted _ _ initiate => exact absurd (.inr initiate) other
  | uploadSegment _ _ _ _ _ _ current | downloadSegment _ _ _ _ _ _ current =>
      rw [idle] at current
      cases current

theorem takes_segment {server : SdoServer} (valid : server.Valid)
    (busy : server.transfer ≠ none) (od : ObjectDictionary N) :
    ∃ req out p, IsSegmentRequest req ∧ server.handle od req = pure out ∧
      out.response = some p ∧ p.get 0 ≠ csAbort := by
  cases current : server.transfer with
  | none => exact absurd current busy
  | some transfer =>
      cases transfer with
      | upload addr data len pos toggle =>
          have bounds := valid addr data len pos toggle current
          rcases encodeUploadSegmentRequest_fields toggle with ⟨specifier, inSequence⟩
          rcases onUploadSegment_inSequence od current inSequence bounds.1 (by omega) with
            ⟨p, handled, carries, -⟩
          exact ⟨_, _, p, .inr specifier, (handle_uploadSegment specifier).trans handled, rfl,
            ne_csAbort carries (by decide)⟩
      | download addr dataType buf declared toggle =>
          have fits : ([] : List UInt8).length ≤ 7 := Nat.zero_le 7
          rcases encodeDataSegment_eq toggle false fits with ⟨req, -, specifier, carries⟩
          have unchanged : buf.toList = buf.toList ++ (segmentOf req).data := by
            rw [carries, List.append_nil]
          have handled := onDownloadSegment_inSequence od specifier (by rw [current, carries])
            (by rw [carries]) unchanged
          exact ⟨_, _, _, .inl specifier, (handle_downloadSegment specifier).trans handled, rfl,
            ne_csAbort (encodeDownloadSegmentResponse_specifier _) (by decide)⟩

end Sdo.SdoServer

/-! ## One operation -/

/-- The operation is a frame that the node serves as an SDO request. -/
def Requests (event : NodeEvent N) (req : SdoPayload) : Prop :=
  ∃ data, event.input = .onFrame event.before.sdo.requestCobId data ∧
    event.before.lssUnconfigured = false ∧ event.before.Serving ∧ Node.padFrame data = pure req

/-- The operation is answered by an abort frame and leaves the dictionary alone. -/
structure Refuses (event : NodeEvent N) : Prop where
  aborts : ∃ tx addr code, event.output = [tx] ∧
    tx.cobId = event.before.sdo.responseCobId ∧ tx.data = Sdo.encodeAbort addr code
  unchanged : event.after.od = event.before.od

def AppliesReset (event : NodeEvent N) : Prop :=
  ∃ (frame : NmtCommandFrame) (rest : List UInt8) (command : NmtCommand) (target : NodeId),
    event.input = .onFrame nmtCommandCobId (frame.toList ++ rest) ∧
      event.before.lssUnconfigured = false ∧ decodeCommand frame = .ok (command, target) ∧
      (target = .broadcast ∨ target = event.before.nodeId) ∧
      (command = .resetNode ∨ command = .resetCommunication)

section

variable {node after : Node N} {op : NodeOp N} {frames : List TxFrame}

theorem refuses_of_idle {event : NodeEvent N} {req : SdoPayload}
    (taken : event.input.perform event.before = pure (event.after, event.output))
    (idle : event.before.sdo.transfer = none) (requests : Requests event req)
    (segment : IsSegmentRequest req) (valid : event.before.sdo.Valid) : Refuses event := by
  rcases event with ⟨before, op, frames, after⟩
  rcases requests with ⟨data, isRequest, configured, serving, padded⟩
  dsimp only at isRequest configured serving idle valid
  subst isRequest
  rcases SdoServer.handle_returns valid before.od req with ⟨handled, handles⟩
  rcases SdoServer.refuses_segment idle segment handles with ⟨addr, code, response, sameOd⟩
  rcases Node.onFrame_serves serving configured padded handles response with
    ⟨tx, served, sameId, -, data⟩
  simp only [NodeOp.perform, served, pure_bind, Exec.pure_inj, Prod.mk.injEq] at taken
  rcases taken with ⟨rfl, rfl⟩
  exact ⟨⟨tx, addr, code, rfl, sameId, data⟩, sameOd⟩

theorem idle_step (idle : node.sdo.transfer = none) (effect : OpEffect node op after frames)
    (quiet : ∀ req, Requests ⟨node, op, frames, after⟩ req → ¬ Sdo.IsInitiate req) :
    after.sdo.transfer = none := by
  cases effect with
  | enabled | unconfigured | borrowed | booted | raised | cleared => exact idle
  | renumbered => rfl
  | adopted id _ applied =>
      rcases Node.applyLssNodeId_eq_some_iff.mp applied with ⟨slave, -, -, -, rfl⟩
      rfl
  | received cobId data _ tx taken =>
      cases Node.onFrame_served taken with
      | ignored | lss | nmt | rpdo => exact idle
      | sdo payload handled _ isRequest configured serving padded handles =>
          subst isRequest
          exact SdoServer.idle_of_not_isInitiate idle
            (quiet payload ⟨data, rfl, configured, serving, padded⟩) handles
  | internal _ _ _ _ _ _ _ _ sameTransfer => rw [sameTransfer, idle]

theorem apply_reset (machine : NmtStateMachine) {command : NmtCommand}
    (reset : command = .resetNode ∨ command = .resetCommunication) :
    machine.apply command = ⟨.initialising⟩ := by
  rcases reset with rfl | rfl
  · rfl
  · rfl

theorem after_of_reset {event : NodeEvent N}
    (taken : event.input.perform event.before = pure (event.after, event.output))
    (resets : AppliesReset event) :
    event.after = { event.before with nmt := ⟨.initialising⟩ } := by
  rcases event with ⟨before, op, sent, after⟩
  rcases resets with
    ⟨frame, rest, command, target, isNmt, configured, decodes, addressed, reset⟩
  dsimp only at isNmt configured addressed taken
  subst isNmt
  have applied : before.onNmt (frame.toList ++ rest) =
      pure { before with nmt := ⟨.initialising⟩ } := by
    rw [before.onNmt_of_decodes decodes, if_pos addressed, apply_reset _ reset]
  rw [NodeOp.perform, Node.onFrame_nmtCommand configured, applied] at taken
  cases taken
  rfl

theorem initialising_step (initialising : node.state = .initialising)
    (effect : OpEffect node op after frames) (notBoot : op ≠ .boot)
    (notSet : ∀ id, op ≠ .setNodeId id) (notApplied : op ≠ .applyLssNodeId) :
    after.state = .initialising ∧ after.sdo.transfer = node.sdo.transfer := by
  cases effect with
  | enabled | unconfigured | borrowed | raised | cleared => exact ⟨initialising, rfl⟩
  | booted => exact absurd rfl notBoot
  | renumbered id => exact absurd rfl (notSet id)
  | adopted => exact absurd rfl notApplied
  | received cobId data _ tx taken =>
      cases Node.onFrame_served taken with
      | ignored | lss | rpdo => exact ⟨initialising, rfl⟩
      | nmt frame rest command target =>
          refine ⟨?_, rfl⟩
          have fixed : node.nmt.apply command = ⟨.initialising⟩ := by
            rw [Node.state] at initialising
            cases command <;> simp [NmtStateMachine.apply, initialising]
          rw [Node.state, fixed]
      | sdo _ _ _ _ _ serving =>
          rcases serving with state | state
          · exact absurd (initialising.symm.trans state) (by decide)
          · exact absurd (initialising.symm.trans state) (by decide)
  | internal _ _ _ _ _ _ sameNmt _ sameTransfer =>
      exact ⟨by rw [Node.state, sameNmt]; exact initialising, sameTransfer⟩

end

/-! ## Exactly the idle nodes forget -/

/-- Until the next initiate every segment request is answered by an abort and leaves the
dictionary alone. -/
def RefusesSegments (events : List (NodeEvent N)) : Prop :=
  ∀ past segment future req, events = past ++ segment :: future →
    (∀ event ∈ past, ∀ earlier, Requests event earlier → ¬ Sdo.IsInitiate earlier) →
    Requests segment req → IsSegmentRequest req → Refuses segment

def ForgetsTransfers (node : Node N) : Prop :=
  ∀ later events final, Trace.run NodeOp.perform node later = pure (events, final) →
    RefusesSegments events

theorem forgets_of_idle {node : Node N} (valid : node.sdo.Valid)
    (idle : node.sdo.transfer = none) : ForgetsTransfers node := by
  intro later events final ran past segment future req split quiet requests isSegment
  have history := Trace.run_while
    (fun event : NodeEvent N => ∀ earlier, Requests event earlier → ¬ Sdo.IsInitiate earlier)
    (fun _ state => state.sdo.transfer = none) idle
    (fun _ event idleBefore taken quiet => idle_step idleBefore (NodeOp.effect taken) quiet) ran
  have idleBefore := history.2 past segment future split quiet
  have validBefore := NodeOp.valid_in_run valid ran past segment future split
  rw [split] at ran
  exact refuses_of_idle (Trace.run_split ran).1 idleBefore requests isSegment validBefore

/-- The node is given an identity and started. -/
def started (node : Node N) : Node N :=
  { node.enableLss ⟨0, 0, 0, 0⟩ with nmt := ⟨.operational⟩ }

theorem lssUnconfigured_enableLss (node : Node N) (address : Lss.LssAddress) :
    (node.enableLss address).lssUnconfigured = false := by
  have configured := node.nodeId.raw_ne_unconfigured
  simp [Node.lssUnconfigured, Node.enableLss, LssSlave.new, configured]

theorem perform_start {node : Node N} (booted : node.state ≠ .initialising) :
    (NodeOp.onFrame nmtCommandCobId [0x01, 0x00]).perform (node.enableLss ⟨0, 0, 0, 0⟩) =
      pure (started node, []) := by
  have starts : (node.enableLss ⟨0, 0, 0, 0⟩).onNmt [0x01, 0x00] = pure (started node) := by
    have applied : node.nmt.apply .startRemoteNode = ⟨.operational⟩ := by
      rw [Node.state] at booted
      cases state : node.nmt.state <;> simp_all [NmtStateMachine.apply]
    show (pure { node.enableLss ⟨0, 0, 0, 0⟩ with
      nmt := node.nmt.apply .startRemoteNode } : Exec (Node N)) = _
    rw [applied, started]
  rw [NodeOp.perform, Node.onFrame_nmtCommand (lssUnconfigured_enableLss ..), starts]
  rfl

/-- A node in a transfer does not forget it: once it is started it takes a segment. -/
theorem idle_of_forgets {node : Node N} (valid : node.sdo.Valid)
    (booted : node.state ≠ .initialising) (forgets : ForgetsTransfers node) :
    node.sdo.transfer = none := by
  by_contra busy
  rcases SdoServer.takes_segment valid busy node.od with
    ⟨req, handled, p, segment, handles, responds, confirms⟩
  rcases @Node.onFrame_serves N (started node) (.inr rfl) (lssUnconfigured_enableLss node _) _ _ _
    (Node.padFrame_toList req) _ handles responds with ⟨tx, served, -, -, data⟩
  have performed : (NodeOp.onFrame node.sdo.requestCobId req.toList).perform (started node) =
      pure ({ started node with sdo := handled.server, od := handled.od }, [tx]) := by
    have taken : (started node).onFrame node.sdo.requestCobId req.toList = _ := served
    rw [NodeOp.perform, taken, pure_bind]
    rfl
  have ended : Trace.run NodeOp.perform
      { started node with sdo := handled.server, od := handled.od } [] = pure ([], _) := rfl
  have ran := Trace.run_cons_eq_pure_iff.mpr ⟨_, _, _,
    (rfl : (NodeOp.enableLss ⟨0, 0, 0, 0⟩).perform node = pure (_, [])),
    Trace.run_cons_eq_pure_iff.mpr ⟨_, _, _, perform_start booted,
      Trace.run_cons_eq_pure_iff.mpr ⟨_, _, _, performed, ended, rfl⟩, rfl⟩, rfl⟩
  have quiet : ∀ event ∈ ([⟨node, .enableLss ⟨0, 0, 0, 0⟩, [], node.enableLss ⟨0, 0, 0, 0⟩⟩,
      ⟨node.enableLss ⟨0, 0, 0, 0⟩, .onFrame nmtCommandCobId [0x01, 0x00], [], started node⟩] :
        List (NodeEvent N)), ∀ earlier, Requests event earlier → ¬ Sdo.IsInitiate earlier := by
    rw [List.forall_mem_cons, List.forall_mem_singleton]
    constructor
    · rintro earlier ⟨_, isRequest, -⟩
      cases isRequest
    · rintro earlier ⟨_, isRequest, -⟩
      rw [NodeOp.onFrame.injEq] at isRequest
      exact absurd isRequest.1.symm (requestCobId_ne node.sdo.node).1
  have refuses := forgets _ _ _ ran [_, _] _ [] req rfl quiet
    ⟨_, rfl, lssUnconfigured_enableLss node _, .inr rfl, Node.padFrame_toList req⟩ segment
  rcases refuses.aborts with ⟨sent, addr, code, same, -, aborts⟩
  cases same
  rw [data] at aborts
  exact confirms (by rw [aborts]; rfl)

/-! ## Whole runs -/

def Waits (event : NodeEvent N) : Prop :=
  event.input ≠ .boot ∧ (∀ id, event.input ≠ .setNodeId id) ∧ event.input ≠ .applyLssNodeId

theorem boot_state_ne (machine : NmtStateMachine) : machine.boot.state ≠ .initialising := by
  cases inState : machine.state <;> simp [NmtStateMachine.boot, inState]

theorem transfer_of_waits {node final : Node N} {ops : List (NodeOp N)}
    {between later : List (NodeEvent N)} {boot : NodeEvent N}
    (initialising : node.state = .initialising)
    (ran : Trace.run NodeOp.perform node ops = pure (between ++ boot :: later, final))
    (waits : ∀ event ∈ between, Waits event) : boot.before.sdo.transfer = node.sdo.transfer := by
  have history := Trace.run_while Waits
    (fun _ state => state.state = .initialising ∧ state.sdo.transfer = node.sdo.transfer)
    ⟨initialising, rfl⟩
    (fun _ event holds taken waits => by
      have effect := NodeOp.effect taken
      rcases initialising_step holds.1 effect waits.1 waits.2.1 waits.2.2 with ⟨stays, kept⟩
      exact ⟨stays, kept.trans holds.2⟩) ran
  exact (history.2 between boot later rfl waits).2

/-- A node that is booted after a reset forgets its transfers exactly if it is in none by
then. The reset does not end the transfer it finds: only setting the node-id does. -/
theorem reset_forgets_iff (nodeId : NodeId) (od : ObjectDictionary N) (ops : List (NodeOp N)) :
    ∃ events final,
      Trace.run NodeOp.perform (Node.new nodeId od) ops = pure (events, final) ∧
        ∀ past reset between boot later,
          events = past ++ reset :: (between ++ boot :: later) → AppliesReset reset →
          boot.input = .boot →
            (ForgetsTransfers boot.after ↔ boot.before.sdo.transfer = none) ∧
            (boot.before.sdo.transfer = none → RefusesSegments later) ∧
            ((∀ event ∈ between, Waits event) →
              boot.before.sdo.transfer = reset.before.sdo.transfer) := by
  rcases Node.new_runs nodeId od ops with ⟨events, final, ran⟩
  refine ⟨events, final, ran, ?_⟩
  intro past reset between boot later split resets boots
  have validBoot : boot.before.sdo.Valid := by
    apply NodeOp.valid_in_run (SdoServer.valid_new nodeId) ran (past ++ reset :: between) boot later
    rw [split, List.append_assoc]
    rfl
  subst split
  rcases Trace.run_split ran with ⟨resetTaken, rest, laterRan⟩
  rcases Trace.run_split laterRan with ⟨bootTaken, _, bootRan⟩
  rw [boots] at bootTaken
  have afterBoot := (NodeOp.effect bootTaken).eq_boot
  have validAfter : boot.after.sdo.Valid := by
    rw [afterBoot]
    exact validBoot
  have same : boot.after.sdo.transfer = boot.before.sdo.transfer := by rw [afterBoot]
  have booted : boot.after.state ≠ .initialising := by
    rw [afterBoot]
    exact boot_state_ne boot.before.nmt
  refine ⟨⟨fun forgets => ?_, fun idle => ?_⟩, fun idle => ?_, fun waits => ?_⟩
  · rw [← same]
    exact idle_of_forgets validAfter booted forgets
  · exact forgets_of_idle validAfter (same.trans idle)
  · exact forgets_of_idle validAfter (same.trans idle) _ _ _ bootRan
  · have afterReset := after_of_reset resetTaken resets
    have initialising : reset.after.state = .initialising := by
      rw [afterReset]
      rfl
    rw [transfer_of_waits initialising laterRan waits, afterReset]

/-- A download of one byte is begun, and all nodes are told to reset their communication. The
segment that comes after the boot is written. -/
theorem reset_keeps_download :
    let byte : Address := ⟨0x2000, 0⟩
    let od : ObjectDictionary 1 := ⟨[(byte, ⟨.unsigned8 1, .rw⟩)], by simp, by simp⟩
    let ops : List (NodeOp 1) := [.boot,
      .onFrame 0x605 [0x21, 0x00, 0x20, 0x00, 0x01, 0x00, 0x00, 0x00],
      .onFrame nmtCommandCobId [0x82, 0x00], .boot,
      .onFrame 0x605 [0x0D, 0x41, 0x00, 0x00, 0x00, 0x00, 0x00, 0x00]]
    ∃ events final past reset boot segment,
      Trace.run NodeOp.perform (Node.new ⟨5, by decide⟩ od) ops = pure (events, final) ∧
        events = past ++ [reset, boot, segment] ∧ AppliesReset reset ∧ boot.input = .boot ∧
        final.od.read byte = .ok (.unsigned8 0x41) ∧ ¬ RefusesSegments [segment] := by
  refine ⟨_, _, [_, _], _, _, _, rfl, rfl, ?_, rfl, rfl, fun refuses => ?_⟩
  · exact ⟨⟨#[0x82, 0x00], rfl⟩, [], .resetCommunication, .broadcast, rfl, rfl, rfl, .inl rfl,
      .inr rfl⟩
  · have refused := refuses [] _ [] #v[0x0D, 0x41, 0x00, 0x00, 0x00, 0x00, 0x00, 0x00] rfl
      (by simp) ⟨_, rfl, rfl, .inl rfl, rfl⟩ (.inl (by decide))
    exact absurd refused.unchanged (by decide)

end CanOpen
