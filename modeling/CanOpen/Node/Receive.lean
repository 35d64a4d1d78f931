import CanOpen.Node.Node
import CanOpen.Sdo.Effect

/-! # What a received frame can do

Closed forms of the frames a node builds, and the complete list of what handing
it a frame can lead to.
-/

namespace CanOpen

open Sdo (SdoServer SdoPayload)
open Lss (LssSlave)

/-! ## COB-IDs -/

theorem requestCobId_toNat (node : NodeId) :
    (Sdo.requestCobId node).toNat = 0x600 + node.raw.toNat := by
  have bound := UInt8.le_iff_toNat_le.mp node.raw_le
  simp only [Sdo.requestCobId, Sdo.sdoRequestCobBase, UInt16.toNat_add, UInt8.toNat_toUInt16,
    UInt16.reduceToNat, UInt8.reduceToNat] at bound ⊢
  omega

theorem responseCobId_toNat (node : NodeId) :
    (Sdo.responseCobId node).toNat = 0x580 + node.raw.toNat := by
  have bound := UInt8.le_iff_toNat_le.mp node.raw_le
  simp only [Sdo.responseCobId, Sdo.sdoResponseCobBase, UInt16.toNat_add, UInt8.toNat_toUInt16,
    UInt16.reduceToNat, UInt8.reduceToNat] at bound ⊢
  omega

theorem requestCobId_ne (node : NodeId) :
    Sdo.requestCobId node ≠ nmtCommandCobId ∧ Sdo.requestCobId node ≠ Lss.lssMasterCobId := by
  have bound := UInt8.le_iff_toNat_le.mp node.raw_le
  have value := requestCobId_toNat node
  simp only [UInt8.reduceToNat] at bound
  constructor
  · intro equal
    simp only [equal, nmtCommandCobId, UInt16.reduceToNat] at value
    omega
  · intro equal
    simp only [equal, Lss.lssMasterCobId, UInt16.reduceToNat] at value
    omega

theorem responseCobId_ne_lss (node : NodeId) : Sdo.responseCobId node ≠ Lss.lssSlaveCobId := by
  have bound := UInt8.le_iff_toNat_le.mp node.raw_le
  have value := responseCobId_toNat node
  simp only [UInt8.reduceToNat] at bound
  intro equal
  simp only [equal, Lss.lssSlaveCobId, UInt16.reduceToNat] at value
  omega

/-! ## The frames a node builds -/

namespace TxFrame

theorem new_returns (cobId : UInt16) (bytes : List UInt8) :
    ∃ frame, new cobId bytes = pure frame ∧ frame.cobId = cobId ∧
      frame.len.toNat = min bytes.length 8 ∧
      frame.data.toList = bytes.take 8 ++ List.replicate (8 - bytes.length) 0 := by
  have window : Exec.slice bytes 0 (min bytes.length 8) = pure (bytes.take 8) := by
    rw [Exec.slice_of_le _ (Nat.zero_le _) (Nat.min_le_left _ _), List.drop_zero,
      List.take_eq_take_iff.mpr]
    omega
  have length : 0 + (bytes.take 8).length = min bytes.length 8 := by
    rw [List.length_take]
    omega
  have copied := Exec.overwrite_of_le (Vector.replicate 8 (0 : UInt8)) length
    (Nat.min_le_right _ _)
  have built : ∃ frame, new cobId bytes = pure frame ∧ frame.cobId = cobId ∧
      frame.len = UInt8.ofNat (min bytes.length 8) ∧
      frame.data = Exec.splice (Vector.replicate 8 0) 0 (bytes.take 8)
        (by rw [length]; exact Nat.min_le_right _ _) := by
    rw [new, window, pure_bind, copied, pure_bind]
    exact ⟨_, rfl, rfl, rfl, rfl⟩
  rcases built with ⟨frame, built, sameId, len, data⟩
  refine ⟨frame, built, sameId, ?_, ?_⟩
  · rw [len, UInt8.toNat_ofNat', Nat.mod_eq_of_lt (by omega)]
  · simp only [data, Exec.toList_splice, List.take_zero, List.nil_append, Vector.toList_replicate,
      List.drop_replicate, length]
    congr 2
    omega

theorem payload_eq (frame : TxFrame) :
    frame.payload = pure (frame.data.toList.take frame.len.toNat) := by
  have bound := UInt8.le_iff_toNat_le.mp frame.len_le
  rw [payload, Exec.slice_of_le _ (Nat.zero_le _) (by simpa using bound), List.drop_zero]

theorem new_of_response (cobId : UInt16) (response : Vector UInt8 8) :
    ∃ frame, new cobId response.toList = pure frame ∧ frame.cobId = cobId ∧
      frame.len = 8 ∧ frame.data = response := by
  rcases new_returns cobId response.toList with ⟨frame, built, sameId, length, data⟩
  refine ⟨frame, built, sameId, ?_, ?_⟩
  · rw [Vector.length_toList] at length
    exact UInt8.toNat_inj.mp length
  · apply Vector.toList_inj.mp
    simpa [List.take_of_length_le] using data

end TxFrame

namespace Node

variable {N : Nat}

theorem padFrame_returns {data : List UInt8} (short : data.length ≤ 8) :
    ∃ frame, padFrame data = pure frame ∧
      frame.toList = data ++ List.replicate (8 - data.length) 0 := by
  have copied := Exec.overwrite_of_le (Vector.replicate 8 (0 : UInt8))
    (show 0 + data.length = data.length from Nat.zero_add _) short
  refine ⟨_, copied, ?_⟩
  simp only [Exec.toList_splice, List.take_zero, List.nil_append, Vector.toList_replicate,
    List.drop_replicate, Nat.zero_add]

theorem short_of_padFrame {data : List UInt8} {frame : Vector UInt8 8}
    (padded : padFrame data = pure frame) : data.length ≤ 8 := by
  by_contra long
  have outside : ¬ (0 ≤ data.length ∧ data.length ≤ 8) := by omega
  rw [padFrame, Exec.overwrite, dif_neg outside] at padded
  cases padded

theorem padFrame_toList (req : Vector UInt8 8) : padFrame req.toList = pure req := by
  have short : req.toList.length ≤ 8 := by simp
  rcases padFrame_returns short with ⟨frame, padded, content⟩
  have same : frame = req := by
    apply Vector.toList_inj.mp
    simpa using content
  rw [padded, same]

/-! ## The services -/

def Serving (node : Node N) : Prop :=
  node.state = .preOperational ∨ node.state = .operational

/-- Everything a frame can do to a node, with what it transmits. -/
inductive Served (node : Node N) (cobId : UInt16) (data : List UInt8) :
    Node N × Option TxFrame → Prop
  | ignored : Served node cobId data (node, none)
  | lss (before after : LssSlave) (tx : Option TxFrame) :
      cobId = Lss.lssMasterCobId → node.lss = some before →
      after.address = before.address → after.nodeId = before.nodeId →
      (∀ frame, tx = some frame → frame.cobId = Lss.lssSlaveCobId) →
      Served node cobId data ({ node with lss := some after }, tx)
  | nmt (frame : NmtCommandFrame) (rest : List UInt8) (command : NmtCommand)
      (target : NodeId) :
      cobId = nmtCommandCobId → node.lssUnconfigured = false →
      data = frame.toList ++ rest → decodeCommand frame = .ok (command, target) →
      target = .broadcast ∨ target = node.nodeId →
      Served node cobId data ({ node with nmt := node.nmt.apply command }, none)
  | sdo (payload : SdoPayload) (handled : Sdo.Handled N) (tx : Option TxFrame) :
      cobId = node.sdo.requestCobId → node.lssUnconfigured = false → node.Serving →
      padFrame data = pure payload → node.sdo.handle node.od payload = pure handled →
      tx.map TxFrame.cobId = handled.response.map (fun _ => handled.server.responseCobId) →
      tx.map TxFrame.data = handled.response →
      Served node cobId data ({ node with sdo := handled.server, od := handled.od }, tx)
  | rpdo (slot : RpdoSlot) (result : Except Error Unit) (od : ObjectDictionary N) :
      cobId ≠ node.sdo.requestCobId → node.lssUnconfigured = false →
      node.state = .operational → slot ∈ node.rpdos.toList → slot.cobId = cobId →
      unpack slot.mapping node.od data = pure (result, od) →
      Served node cobId data ({ node with od }, none)

theorem onLss_returns (node : Node N) (data : List UInt8) :
    ∃ out, node.onLss data = pure out ∧ (out = (node, none) ∨
      ∃ before after tx, node.lss = some before ∧ after.address = before.address ∧
        after.nodeId = before.nodeId ∧
        (∀ frame, tx = some frame → frame.cobId = Lss.lssSlaveCobId) ∧
        out = ({ node with lss := some after }, tx)) := by
  unfold onLss
  split
  · exact ⟨_, rfl, .inl rfl⟩
  · next before enabled =>
      split
      · exact ⟨_, rfl, .inl rfl⟩
      · next short =>
          rcases padFrame_returns (Nat.not_lt.mp short) with ⟨frame, padded, -⟩
          rcases before.handle_keeps frame with
            ⟨after, response, handled, sameAddress, sameNodeId⟩
          rw [padded, pure_bind, handled, pure_bind]
          cases response with
          | none =>
              exact ⟨_, rfl, .inr ⟨before, after, none, enabled, sameAddress, sameNodeId,
                by simp, rfl⟩⟩
          | some response =>
              rcases TxFrame.new_of_response Lss.lssSlaveCobId response with
                ⟨tx, built, sameId, -⟩
              refine ⟨_, by simp only [built, pure_bind], .inr ⟨before, after, some tx,
                enabled, sameAddress, sameNodeId, ?_, rfl⟩⟩
              rintro frame ⟨⟩
              exact sameId

theorem onLss_served {node : Node N} (data : List UInt8) :
    ∃ out, node.onLss data = pure out ∧ Served node Lss.lssMasterCobId data out := by
  rcases node.onLss_returns data with
    ⟨out, returns, rfl | ⟨before, after, tx, enabled, sameAddress, sameNodeId, replies, rfl⟩⟩
  · exact ⟨_, returns, .ignored⟩
  · exact ⟨_, returns, .lss before after tx rfl enabled sameAddress sameNodeId replies⟩

theorem onNmt_of_decodes {frame : NmtCommandFrame} {command : NmtCommand} {target : NodeId}
    (node : Node N) (decodes : decodeCommand frame = .ok (command, target)) (rest : List UInt8) :
    node.onNmt (frame.toList ++ rest) =
      pure (if target = .broadcast ∨ target = node.nodeId then
        { node with nmt := node.nmt.apply command } else node) := by
  rcases frame with ⟨⟨bytes⟩, size⟩
  match bytes, size with
  | [specifier, addressee], _ =>
      have long : ¬ (specifier :: addressee :: rest).length < 2 := by simp
      have first : Exec.index (specifier :: addressee :: rest) 0 = pure specifier := rfl
      have second : Exec.index (specifier :: addressee :: rest) 1 = pure addressee := rfl
      show node.onNmt (specifier :: addressee :: rest) = _
      rw [onNmt, if_neg long, first, second, pure_bind, pure_bind, decodes]
      by_cases addressed : target = .broadcast ∨ target = node.nodeId
      · simp only [if_pos addressed]
      · simp only [if_neg addressed]

theorem onNmt_returns (node : Node N) (data : List UInt8) :
    ∃ after, node.onNmt data = pure after ∧ (after = node ∨
      ∃ (frame : NmtCommandFrame) (rest : List UInt8) (command : NmtCommand)
        (target : NodeId), data = frame.toList ++ rest ∧
        decodeCommand frame = .ok (command, target) ∧
        (target = .broadcast ∨ target = node.nodeId) ∧
        after = { node with nmt := node.nmt.apply command }) := by
  unfold onNmt
  split
  · exact ⟨_, rfl, .inl rfl⟩
  · next long =>
      match data with
      | [] => exact absurd (by simp) long
      | [_] => exact absurd (by simp) long
      | command :: target :: rest =>
          have first : Exec.index (command :: target :: rest) 0 = pure command := rfl
          have second : Exec.index (command :: target :: rest) 1 = pure target := rfl
          rw [first, second, pure_bind, pure_bind]
          split
          · exact ⟨_, rfl, .inl rfl⟩
          · next decoded addressee decodes =>
              split
              · next addressed =>
                  exact ⟨_, rfl, .inr ⟨#v[command, target], rest, decoded, addressee, rfl,
                    decodes, addressed, rfl⟩⟩
              · exact ⟨_, rfl, .inl rfl⟩

/-- A node with a node-id hands the frames of the NMT service to it, and answers none. -/
theorem onFrame_nmtCommand {node : Node N} (configured : node.lssUnconfigured = false)
    (data : List UInt8) :
    node.onFrame nmtCommandCobId data =
      node.onNmt data >>= fun after => pure (after, none) := by
  have notLss : nmtCommandCobId ≠ Lss.lssMasterCobId := by decide
  rw [onFrame, if_neg notLss, configured, if_neg Bool.false_ne_true, if_pos rfl]

theorem onNmt_served {node : Node N} (data : List UInt8)
    (configured : node.lssUnconfigured = false) :
    ∃ after, node.onNmt data = pure after ∧ Served node nmtCommandCobId data (after, none) := by
  rcases node.onNmt_returns data with
    ⟨after, returns, rfl | ⟨frame, rest, command, target, starts, decodes, addressed, rfl⟩⟩
  · exact ⟨_, returns, .ignored⟩
  · exact ⟨_, returns, .nmt frame rest command target rfl configured starts decodes addressed⟩

theorem onSdo_served {node : Node N} {data : List UInt8} {out : Node N × Option TxFrame}
    (configured : node.lssUnconfigured = false) (returns : node.onSdo data = pure out) :
    Served node node.sdo.requestCobId data out := by
  unfold onSdo at returns
  split at returns
  · rw [Exec.pure_inj] at returns
    exact returns ▸ .ignored
  · next serving =>
      split at returns
      · rw [Exec.pure_inj] at returns
        exact returns ▸ .ignored
      · rw [Exec.bind_eq_pure_iff] at returns
        rcases returns with ⟨payload, padded, returns⟩
        rw [Exec.bind_eq_pure_iff] at returns
        rcases returns with ⟨handled, handles, returns⟩
        have serves : node.Serving := by
          unfold Serving
          by_contra neither
          push Not at neither
          exact serving neither
        split at returns
        · next quiet =>
            rw [Exec.pure_inj] at returns
            subst returns
            exact .sdo payload handled none rfl configured serves padded handles
              (by simp [quiet]) (by simp [quiet])
        · next response responds =>
            rcases TxFrame.new_of_response handled.server.responseCobId response with
              ⟨tx, built, sameId, -, sameData⟩
            simp only [built, pure_bind, Exec.pure_inj] at returns
            subst returns
            exact .sdo payload handled (some tx) rfl configured serves padded handles
              (by simp [responds, sameId]) (by simp [responds, sameData])

theorem onRpdo_served {node : Node N} {cobId : UInt16} (data : List UInt8)
    (configured : node.lssUnconfigured = false) (noRequest : cobId ≠ node.sdo.requestCobId) :
    ∃ after, node.onRpdo cobId data = pure after ∧ Served node cobId data (after, none) := by
  unfold onRpdo
  split
  · exact ⟨_, rfl, .ignored⟩
  · next operational =>
      split
      · exact ⟨_, rfl, .ignored⟩
      · next position found =>
          rcases List.findIdx?_eq_some_iff_getElem.mp found with ⟨within, listens, -⟩
          have slot : node.rpdos.index position = pure node.rpdos.toList[position] :=
            Exec.index_of_lt within
          rcases unpack_returns node.rpdos.toList[position].mapping node.od data with
            ⟨result, od, unpacks⟩
          rw [slot, pure_bind, unpacks, pure_bind]
          exact ⟨_, rfl, .rpdo _ result od noRequest configured
            (by simpa using operational) (List.getElem_mem within) (by simpa using listens)
            unpacks⟩

theorem onFrame_served {node : Node N} {cobId : UInt16} {data : List UInt8}
    {out : Node N × Option TxFrame} (returns : node.onFrame cobId data = pure out) :
    Served node cobId data out := by
  unfold onFrame at returns
  split at returns
  · next isLss =>
      subst isLss
      rcases node.onLss_served data with ⟨result, equal, served⟩
      rw [equal, Exec.pure_inj] at returns
      exact returns ▸ served
  · split at returns
    · rw [Exec.pure_inj] at returns
      exact returns ▸ .ignored
    · next configured =>
        rw [Bool.not_eq_true] at configured
        split at returns
        · next isNmt =>
            subst isNmt
            rcases node.onNmt_served data configured with ⟨after, equal, served⟩
            rw [equal, pure_bind, Exec.pure_inj] at returns
            exact returns ▸ served
        · split at returns
          · next isRequest =>
              subst isRequest
              exact onSdo_served configured returns
          · next noRequest =>
              rcases node.onRpdo_served data configured noRequest with
                ⟨after, equal, served⟩
              rw [equal, pure_bind, Exec.pure_inj] at returns
              exact returns ▸ served

/-! ## Absence of panics -/

theorem onSdo_returns {node : Node N} (valid : node.sdo.Valid) (data : List UInt8) :
    ∃ out, node.onSdo data = pure out := by
  unfold onSdo
  split
  · exact ⟨_, rfl⟩
  · split
    · exact ⟨_, rfl⟩
    · next short =>
        rcases padFrame_returns (Nat.not_lt.mp short) with ⟨payload, padded, -⟩
        rcases SdoServer.handle_returns valid node.od payload with ⟨handled, handles⟩
        rw [padded, pure_bind, handles, pure_bind]
        cases handled.response with
        | none => exact ⟨_, rfl⟩
        | some response =>
            rcases TxFrame.new_of_response handled.server.responseCobId response with
              ⟨tx, built, -⟩
            simp only [built, pure_bind]
            exact ⟨_, rfl⟩

/-- Frames on other COB-IDs than that of the SDO server never cause a panic, and
those cause none if the server is in a state it can reach. -/
theorem onFrame_returns {node : Node N} (cobId : UInt16) (data : List UInt8)
    (valid : cobId = node.sdo.requestCobId → node.sdo.Valid) :
    ∃ out, node.onFrame cobId data = pure out := by
  unfold onFrame
  split
  · rcases node.onLss_served data with ⟨out, equal, -⟩
    exact ⟨out, equal⟩
  · split
    · exact ⟨_, rfl⟩
    · next configured =>
        rw [Bool.not_eq_true] at configured
        split
        · rcases node.onNmt_served data configured with ⟨after, equal, -⟩
          exact ⟨(after, none), by rw [equal, pure_bind]⟩
        · split
          · next isRequest => exact onSdo_returns (valid isRequest) data
          · next noRequest =>
              rcases node.onRpdo_served data configured noRequest with ⟨after, equal, -⟩
              exact ⟨(after, none), by rw [equal, pure_bind]⟩

theorem Served.valid {node : Node N} {cobId : UInt16} {data : List UInt8}
    {out : Node N × Option TxFrame} (served : Served node cobId data out)
    (valid : node.sdo.Valid) : out.1.sdo.Valid := by
  cases served with
  | ignored | lss | nmt | rpdo => exact valid
  | sdo payload handled tx _ _ _ _ handles =>
      exact (SdoServer.handle_effect handles).valid valid

theorem Served.pdos {node : Node N} {cobId : UInt16} {data : List UInt8}
    {out : Node N × Option TxFrame} (served : Served node cobId data out) :
    out.1.rpdos = node.rpdos ∧ out.1.tpdos = node.tpdos := by
  cases served <;> exact ⟨rfl, rfl⟩

theorem Served.server {node : Node N} {cobId : UInt16} {data : List UInt8}
    {out : Node N × Option TxFrame} (served : Served node cobId data out)
    (same : node.sdo.node = node.nodeId) : out.1.sdo.node = out.1.nodeId := by
  cases served with
  | ignored | lss | nmt | rpdo => exact same
  | sdo _ _ _ _ _ _ _ handles => exact (SdoServer.handle_effect handles).node.trans same

end Node

end CanOpen
