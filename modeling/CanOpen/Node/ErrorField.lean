import CanOpen.Node.Effects
import CanOpen.Node.Traffic
import CanOpen.Sdo.Confirmation
import CanOpen.Standard

/-! # The error field that a master reads

The mirror writes the number of recorded errors to the count of the error field, and each
of them to the sub-index that is there for it. A master that writes the count changes
nothing but the mirror.
-/

namespace CanOpen

open Sdo (SdoServer SdoPayload)
open ObjectDictionary (SameShape)
open StandardObjects (subindex_inj)

variable {N : Nat}

/-! ## The mirror -/

def Entry.put (entry : Entry) (value : Value) : Entry :=
  if entry.value.dataType = value.dataType then { entry with value } else entry

namespace Node

theorem entry_setQuietly (od : ObjectDictionary N) (addr other : Address) (value : Value) :
    (setQuietly od addr value).entry other =
      if other = addr then (od.entry addr).map fun entry => entry.put value
      else od.entry other := by
  unfold setQuietly ObjectDictionary.set
  cases present : od.entry addr with
  | none =>
      dsimp only
      split
      · next here => rw [here, present, Option.map_none]
      · rfl
  | some entry =>
      by_cases sameType : entry.value.dataType = value.dataType
      · simp only [sameType, ne_eq, not_true_eq_false, if_false, Entry.put, if_true,
          Option.map_some, ObjectDictionary.entry_replace, present]
      · simp only [sameType, ne_eq, not_false_eq_true, if_true, Entry.put, if_false,
          Option.map_some]
        split
        · next here => rw [here, present]
        · rfl

def setCodes (od : ObjectDictionary N) (codes : List UInt32) (first : Nat) : ObjectDictionary N :=
  (codes.zipIdx first).foldl (fun od item =>
    setQuietly od ⟨0x1003, UInt8.ofNat (item.2 + 1)⟩ (.unsigned32 item.1)) od

theorem setCodes_cons (od : ObjectDictionary N) (code : UInt32) (codes : List UInt32)
    (first : Nat) :
    setCodes od (code :: codes) first =
      setCodes (setQuietly od ⟨0x1003, UInt8.ofNat (first + 1)⟩ (.unsigned32 code)) codes
        (first + 1) := rfl

theorem entry_setCodes_of_ne {codes : List UInt32} {first : Nat} (od : ObjectDictionary N)
    {addr : Address}
    (other : ∀ position < codes.length, addr ≠ ⟨0x1003, UInt8.ofNat (first + position + 1)⟩) :
    (setCodes od codes first).entry addr = od.entry addr := by
  induction codes generalizing od first with
  | nil => rfl
  | cons code codes induction =>
      rw [setCodes_cons, induction, entry_setQuietly, if_neg (other 0 (by simp))]
      intro position within
      have next := other (position + 1) (by simpa using within)
      rwa [← Nat.add_assoc, Nat.add_right_comm first] at next

theorem entry_setCodes {codes : List UInt32} {first position : Nat} (od : ObjectDictionary N)
    (small : first + codes.length ≤ 255) {code : UInt32} (found : codes[position]? = some code) :
    (setCodes od codes first).entry ⟨0x1003, UInt8.ofNat (first + position + 1)⟩ =
      (od.entry ⟨0x1003, UInt8.ofNat (first + position + 1)⟩).map
        fun entry => entry.put (.unsigned32 code) := by
  induction codes generalizing od first position with
  | nil => cases found
  | cons head codes induction =>
      rw [List.length_cons] at small
      rw [setCodes_cons]
      cases position with
      | zero =>
          cases found
          rw [entry_setCodes_of_ne, Nat.add_zero, entry_setQuietly, if_pos rfl]
          intro position within same
          have equal := subindex_inj (by omega) (by omega) (congrArg Address.subindex same)
          omega
      | succ position =>
          have within : position < codes.length := by
            rw [List.getElem?_cons_succ] at found
            exact (List.getElem?_eq_some_iff.mp found).1
          have next := induction
            (setQuietly od ⟨0x1003, UInt8.ofNat (first + 1)⟩ (.unsigned32 head))
            (by omega : first + 1 + codes.length ≤ 255) found
          have shift : first + 1 + position + 1 = first + (position + 1) + 1 := by omega
          rw [shift] at next
          rw [next, entry_setQuietly, if_neg]
          intro same
          have equal := subindex_inj (by omega) (by omega) (congrArg Address.subindex same)
          omega

theorem mirrorErrorObjects_od (node : Node N) :
    node.mirrorErrorObjects.od =
      setCodes (setQuietly (setQuietly node.od ⟨0x1001, 0⟩ (.unsigned8 node.errorRegister))
        ⟨0x1003, 0⟩ (.unsigned8 (UInt8.ofNat node.errorHistory.len)))
        node.errorHistory.toList 0 := rfl

theorem errorHistory_length_le (node : Node N) : node.errorHistory.toList.length ≤ 8 :=
  node.errorHistory.length_le

theorem entry_mirror_count (node : Node N) :
    node.mirrorErrorObjects.od.entry ⟨0x1003, 0⟩ =
      (node.od.entry ⟨0x1003, 0⟩).map fun entry =>
        entry.put (.unsigned8 (UInt8.ofNat node.errorHistory.len)) := by
  have bound := node.errorHistory_length_le
  rw [mirrorErrorObjects_od, entry_setCodes_of_ne, entry_setQuietly, if_pos rfl,
    entry_setQuietly, if_neg (by decide)]
  intro position within same
  have equal : 0 = 0 + position + 1 :=
    subindex_inj (by omega) (by omega) (congrArg Address.subindex same)
  omega

theorem entry_mirror_code (node : Node N) {position : Nat} {code : UInt32}
    (found : node.errorHistory.toList[position]? = some code) :
    node.mirrorErrorObjects.od.entry ⟨0x1003, UInt8.ofNat (position + 1)⟩ =
      (node.od.entry ⟨0x1003, UInt8.ofNat (position + 1)⟩).map fun entry =>
        entry.put (.unsigned32 code) := by
  have bound := node.errorHistory_length_le
  have within := (List.getElem?_eq_some_iff.mp found).1
  have small : 0 + node.errorHistory.toList.length ≤ 255 := by omega
  have written := entry_setCodes
    (setQuietly (setQuietly node.od ⟨0x1001, 0⟩ (.unsigned8 node.errorRegister))
      ⟨0x1003, 0⟩ (.unsigned8 (UInt8.ofNat node.errorHistory.len))) small found
  rw [Nat.zero_add] at written
  rw [mirrorErrorObjects_od, written, entry_setQuietly, if_neg, entry_setQuietly, if_neg]
  · intro same
    have index : (0x1003 : UInt16) = 0x1001 := congrArg Address.index same
    exact absurd index (by decide)
  · intro same
    have equal : position + 1 = 0 :=
      subindex_inj (by omega) (by omega) (congrArg Address.subindex same)
    omega

end Node

/-! ## The record -/

def HasCount (od : ObjectDictionary N) : Prop :=
  ∃ entry, od.entry ⟨0x1003, 0⟩ = some entry ∧ entry.access.isReadable = true ∧
    entry.value.dataType = .unsigned8

/-- Number `sub` of the error field is there for a code and can be read. -/
def TakesCode (od : ObjectDictionary N) (sub : Nat) : Prop :=
  ∃ entry, od.entry ⟨0x1003, UInt8.ofNat sub⟩ = some entry ∧ entry.access.isReadable = true ∧
    entry.value.dataType = .unsigned32

/-- As many codes as the count says can be read, and they are those of the history. -/
def ConsistentRecord (node : Node N) : Prop :=
  ∀ count, node.od.read ⟨0x1003, 0⟩ = .ok (.unsigned8 count) →
    ∀ sub, 1 ≤ sub → sub ≤ count.toNat →
      ∃ code, node.errorHistory.toList[sub - 1]? = some code ∧
        node.od.read ⟨0x1003, UInt8.ofNat sub⟩ = .ok (.unsigned32 code)

theorem HasCount.of_sameShape {left right : ObjectDictionary N} (same : SameShape left right)
    (has : HasCount left) : HasCount right := by
  rcases has with ⟨entry, present, readable, isCount⟩
  rcases same.entry_eq_some present with ⟨other, otherPresent, sameAccess, sameType⟩
  exact ⟨other, otherPresent, sameAccess ▸ readable, sameType.trans isCount⟩

theorem takesCode_of_sameShape {left right : ObjectDictionary N} (same : SameShape left right)
    {sub : Nat} (takes : TakesCode left sub) : TakesCode right sub := by
  rcases takes with ⟨entry, present, readable, isCode⟩
  rcases same.entry_eq_some present with ⟨other, otherPresent, sameAccess, sameType⟩
  exact ⟨other, otherPresent, sameAccess ▸ readable, sameType.trans isCode⟩

namespace Node

theorem read_mirror_count {node : Node N} (has : HasCount node.od) :
    node.mirrorErrorObjects.od.read ⟨0x1003, 0⟩ =
      .ok (.unsigned8 (UInt8.ofNat node.errorHistory.len)) := by
  rcases has with ⟨entry, present, readable, isCount⟩
  apply ObjectDictionary.read_eq_ok_iff.mpr
  refine ⟨_, node.entry_mirror_count.trans (by rw [present, Option.map_some]), ?_, ?_⟩
  · rw [Entry.put]
    split <;> exact readable
  · rw [Entry.put, isCount]
    rfl

theorem read_mirror_code_iff {node : Node N} {position : Nat} {code : UInt32}
    (found : node.errorHistory.toList[position]? = some code) :
    node.mirrorErrorObjects.od.read ⟨0x1003, UInt8.ofNat (position + 1)⟩ =
        .ok (.unsigned32 code) ↔ TakesCode node.od (position + 1) := by
  rw [ObjectDictionary.read_eq_ok_iff, node.entry_mirror_code found]
  constructor
  · rintro ⟨entry, present, readable, value⟩
    rw [Option.map_eq_some_iff] at present
    rcases present with ⟨before, present, rfl⟩
    refine ⟨before, present, ?_, ?_⟩
    · unfold Entry.put at readable
      split at readable <;> exact readable
    · unfold Entry.put at value
      split at value
      · assumption
      · next mistyped => exact absurd (by rw [value]) mistyped
  · rintro ⟨before, present, readable, isCode⟩
    refine ⟨before.put (.unsigned32 code), by rw [present, Option.map_some], ?_, ?_⟩
    · rw [Entry.put]
      split <;> exact readable
    · rw [Entry.put, isCode]
      rfl

/-- A record that has just been mirrored is consistent exactly if there is a sub-index for
every code of the history. -/
theorem consistentRecord_mirror_iff {node : Node N} (has : HasCount node.od) :
    ConsistentRecord node.mirrorErrorObjects ↔
      ∀ sub, 1 ≤ sub → sub ≤ node.errorHistory.len → TakesCode node.od sub := by
  have bound := node.errorHistory_length_le
  have count := read_mirror_count has
  have sameHistory : node.mirrorErrorObjects.errorHistory = node.errorHistory := rfl
  have number : (UInt8.ofNat node.errorHistory.len).toNat = node.errorHistory.len := by
    rw [UInt8.toNat_ofNat', BoundedVec.len, Nat.mod_eq_of_lt (by omega)]
  rw [ConsistentRecord, sameHistory, count]
  constructor
  · intro consistent sub positive within
    rcases consistent _ rfl sub positive (by omega) with ⟨code, found, reads⟩
    rw [← Nat.sub_add_cancel positive] at reads ⊢
    exact (read_mirror_code_iff found).mp reads
  · intro takes count isCount sub positive within
    cases isCount
    rw [number] at within
    have inside : sub - 1 < node.errorHistory.toList.length := by
      rw [BoundedVec.len] at within
      omega
    have found := List.getElem?_eq_getElem inside
    have reads := (read_mirror_code_iff found).mpr (by
      rw [Nat.sub_add_cancel positive]
      exact takes sub positive within)
    rw [Nat.sub_add_cancel positive] at reads
    exact ⟨_, found, reads⟩

end Node

/-! ## Emergencies one after the other -/

def NodeOp.SignalsErrors : NodeOp N → Prop
  | .raiseEmergency _ _ _ | .clearErrors => True
  | _ => False

def raisedSinceClear (ops : List (NodeOp N)) : Nat :=
  ops.foldl (fun count op =>
    match op with
    | .raiseEmergency _ _ _ => count + 1
    | .clearErrors => 0
    | _ => count) 0

theorem raisedSinceClear_append (ops : List (NodeOp N)) (op : NodeOp N) :
    raisedSinceClear (ops ++ [op]) =
      match op with
      | .raiseEmergency _ _ _ => raisedSinceClear ops + 1
      | .clearErrors => 0
      | _ => raisedSinceClear ops := by
  rw [raisedSinceClear, List.foldl_append]
  rfl

/-- After the operations the history has the latest errors, and the mirror shows as many of
them as there are sub-indices for. -/
structure Mirrors (populated : ObjectDictionary N) (ops : List (NodeOp N)) (node : Node N) :
    Prop where
  shape : SameShape populated node.od
  counted : node.errorHistory.len = min 8 (raisedSinceClear ops)
  record : ConsistentRecord node ↔
    ∀ sub, 1 ≤ sub → sub ≤ node.errorHistory.len → TakesCode populated sub

theorem mirrors_mirror {populated : ObjectDictionary N} (has : HasCount populated)
    {ops : List (NodeOp N)} {node : Node N} (shape : SameShape populated node.od)
    (counted : node.errorHistory.len = min 8 (raisedSinceClear ops)) :
    Mirrors populated ops node.mirrorErrorObjects := by
  refine ⟨shape.trans (sameShape_mirrorErrorObjects rfl), counted, ?_⟩
  rw [Node.consistentRecord_mirror_iff (has.of_sameShape shape)]
  refine forall₃_congr fun sub _ _ => ?_
  exact ⟨takesCode_of_sameShape shape.symm, takesCode_of_sameShape shape⟩

theorem mirrors_step {populated : ObjectDictionary N} (has : HasCount populated)
    {ops : List (NodeOp N)} {node after : Node N} {op : NodeOp N} {frames : List TxFrame}
    (mirrors : Mirrors populated ops node) (signals : op.SignalsErrors)
    (effect : OpEffect node op after frames) : Mirrors populated (ops ++ [op]) after := by
  cases effect with
  | raised code register info recorded frame content =>
      apply mirrors_mirror has
      · exact mirrors.shape
      · have counted := mirrors.counted
        rw [BoundedVec.len] at counted
        rw [raisedSinceClear_append, BoundedVec.len, content, List.length_cons, List.length_take]
        dsimp only
        omega
  | cleared frame =>
      apply mirrors_mirror has
      · exact mirrors.shape
      · rw [raisedSinceClear_append]
        rfl
  | internal _ _ _ isInternal => cases op <;> first | exact signals.elim | exact isInternal.elim
  | _ => exact signals.elim

/-- After any emergencies and clearings the error record of a node built on the standard objects
is consistent exactly if there is a sub-index for each of the up to eight errors since the
last clearing: in the error field, or behind it in the dictionary that was populated. -/
theorem error_record_consistent_iff {base populated : ObjectDictionary N}
    {standard : StandardObjects} (some_ : 0 < standard.errorHistoryLen)
    (inserts : standard.insertInto base = (.ok (), populated)) (nodeId : NodeId)
    (ops : List (NodeOp N)) (signals : ∀ op ∈ ops, op.SignalsErrors) :
    ∃ events final,
      Trace.run NodeOp.perform (Node.new nodeId populated) ops = pure (events, final) ∧
        (ConsistentRecord final ↔
          ∀ sub, standard.errorHistoryLen.toNat < sub → sub ≤ min 8 (raisedSinceClear ops) →
            TakesCode base sub) := by
  have has : HasCount populated :=
    ⟨_, StandardObjects.entry_errorCount inserts some_, rfl, rfl⟩
  rcases Node.new_runs nodeId populated ops with ⟨events, final, ran⟩
  refine ⟨events, final, ran, ?_⟩
  have atStart : Mirrors populated [] (Node.new nodeId populated) := by
    refine ⟨.refl populated, rfl, ?_⟩
    constructor
    · intro _ sub positive within
      have none_ : 1 ≤ 0 := Nat.le_trans positive within
      omega
    · intro _ count reads sub positive within
      have unset : populated.read ⟨0x1003, 0⟩ = .ok (.unsigned8 0) :=
        ObjectDictionary.read_eq_ok_iff.mpr
          ⟨_, StandardObjects.entry_errorCount inserts some_, rfl, rfl⟩
      cases reads.symm.trans unset
      have none_ : 1 ≤ 0 := Nat.le_trans positive within
      omega
  have mirrors : Mirrors populated ops final := by
    have history := Trace.run_while (fun event : NodeEvent N => event.input.SignalsErrors)
      (fun past node => Mirrors populated (past.map Trace.Event.input) node) atStart
      (fun past event mirrors taken signals => by
        rw [List.map_append, List.map_singleton]
        exact mirrors_step has mirrors signals (NodeOp.effect taken)) ran
    rw [Trace.run_inputs ran] at history
    apply history.1
    intro event member
    apply signals
    rw [← Trace.run_inputs ran]
    exact List.mem_map_of_mem member
  rw [mirrors.record, mirrors.counted]
  constructor
  · intro takes sub beyond within
    have code := takes sub (by omega) within
    rwa [TakesCode, StandardObjects.entry_beyond inserts some_ beyond (by omega)] at code
  · intro takes sub positive within
    by_cases inside : sub ≤ standard.errorHistoryLen.toNat
    · exact ⟨_, StandardObjects.entry_errorCode inserts some_ positive inside, rfl, rfl⟩
    · have beyond : standard.errorHistoryLen.toNat < sub := by omega
      rw [TakesCode, StandardObjects.entry_beyond inserts some_ beyond (by omega)]
      exact takes sub beyond within

/-- Two errors are recorded in an error field for one. -/
theorem error_record_consistent_iff_two :
    let standard := (StandardObjects.new 0x192 ⟨1, 2, 3, 4⟩).withErrorHistory 1
    let populated : ObjectDictionary 10 := (standard.insertInto .new).2
    let ops := [.raiseEmergency 0x1000 ⟨1⟩ (Vector.replicate 5 0),
      .raiseEmergency 0x3000 ⟨4⟩ (Vector.replicate 5 0)]
    ∃ events final,
      Trace.run NodeOp.perform (Node.new ⟨5, by decide⟩ populated) ops = pure (events, final) ∧
        (ConsistentRecord final ↔
          ∀ sub, standard.errorHistoryLen.toNat < sub → sub ≤ min 8 (raisedSinceClear ops) →
            TakesCode (.new : ObjectDictionary 10) sub) := by
  apply error_record_consistent_iff (by decide) (by rfl)
  simp [NodeOp.SignalsErrors]

/-- After two emergencies the count of an error field for one reads two, and there is no second
code to read. -/
theorem error_record_inconsistent :
    let standard := (StandardObjects.new 0x192 ⟨1, 2, 3, 4⟩).withErrorHistory 1
    ∃ (populated : ObjectDictionary 10) (events : List (NodeEvent 10)) (final : Node 10),
      standard.insertInto .new = (.ok (), populated) ∧
      Trace.run NodeOp.perform (Node.new ⟨5, by decide⟩ populated)
        [.raiseEmergency 0x1000 ⟨1⟩ (Vector.replicate 5 0),
          .raiseEmergency 0x3000 ⟨4⟩ (Vector.replicate 5 0)] = pure (events, final) ∧
      final.od.read ⟨0x1003, 0⟩ = .ok (.unsigned8 2) ∧
      final.od.read ⟨0x1003, 2⟩ = .error .objectNotFound ∧ ¬ ConsistentRecord final := by
  refine ⟨_, _, _, rfl, rfl, rfl, rfl, fun consistent => ?_⟩
  rcases consistent 2 rfl 2 (by decide) (by decide) with ⟨code, -, reads⟩
  have absent : (.error .objectNotFound : Except Error Value) = .ok (.unsigned32 code) := reads
  cases absent

/-! ## A master that clears the count -/

/-- A dictionary that the application puts in place of the node's own has the same objects. -/
def KeepsObjects (event : NodeEvent N) : Prop :=
  ∀ od, event.input = .odMut od → SameShape event.before.od od

/-- The frame completes a download of `0` to the count of the error field, and is confirmed. -/
structure ClearsCount (node after : Node N) (cobId : UInt16) (data : List UInt8)
    (tx : TxFrame) : Prop where
  request : cobId = node.sdo.requestCobId
  completes : ∃ req, Node.padFrame data = pure req ∧ SdoServer.CompletesDownload req
  taken : node.onFrame cobId data = pure (after, some tx)
  confirms : tx.data.get 0 ≠ Sdo.csAbort
  address : after.takeWrittenObject.2 = some ⟨0x1003, 0⟩
  value : after.od.read ⟨0x1003, 0⟩ = .ok (.unsigned8 0)

/-- The history is empty, and the next emergency is the only one in the record. -/
structure ErrorsCleared (node : Node N) : Prop where
  history : node.errorHistory.toList = []
  next : ∀ code register info, ∃ after frame,
    node.raiseEmergency code register info = pure (after, frame) ∧
      after.od.read ⟨0x1003, 0⟩ = .ok (.unsigned8 1) ∧
      after.od.read ⟨0x1003, 1⟩ = .ok (.unsigned32 code.toUInt32)

theorem OpEffect.sameShape {node after : Node N} {op : NodeOp N} {frames : List TxFrame}
    (effect : OpEffect node op after frames) (keeps : KeepsObjects ⟨node, op, frames, after⟩) :
    SameShape node.od after.od := by
  cases effect with
  | enabled | unconfigured | renumbered | booted => exact .refl node.od
  | adopted id _ applied =>
      rcases Node.applyLssNodeId_eq_some_iff.mp applied with ⟨slave, -, -, -, rfl⟩
      exact .refl node.od
  | borrowed od => exact keeps od rfl
  | raised | cleared => exact sameShape_mirrorErrorObjects rfl
  | received cobId data _ tx taken => exact (Node.onFrame_served taken).masterChange.sameShape
  | internal _ _ _ _ _ _ _ _ _ sameOd =>
      rw [sameOd]
      exact .refl node.od

theorem Node.Served.errorHistory {node : Node N} {cobId : UInt16} {data : List UInt8}
    {out : Node N × Option TxFrame} (served : Node.Served node cobId data out) :
    out.1.errorHistory = node.errorHistory := by
  cases served <;> rfl

theorem Node.raiseEmergency_reads {node : Node N} (has : HasCount node.od) (code : UInt16)
    (register : ErrorRegister) (info : Vector UInt8 5) :
    ∃ after frame, node.raiseEmergency code register info = pure (after, frame) ∧
      after.od.read ⟨0x1003, 0⟩ =
        .ok (.unsigned8 (UInt8.ofNat (min 8 (node.errorHistory.len + 1)))) ∧
      (TakesCode node.od 1 →
        after.od.read ⟨0x1003, 1⟩ = .ok (.unsigned32 code.toUInt32)) := by
  rcases node.raiseEmergency_returns code register info with ⟨after, frame, raises, -, -⟩
  have performed : (NodeOp.raiseEmergency code register info).perform node =
      pure (after, [frame]) := by
    rw [NodeOp.perform, raises, pure_bind]
  refine ⟨after, frame, raises, ?_⟩
  cases NodeOp.effect performed with
  | raised _ _ _ recorded _ content =>
      have length : recorded.len = min 8 (node.errorHistory.len + 1) := by
        rw [BoundedVec.len, content, List.length_cons, List.length_take, BoundedVec.len]
        omega
      have first : recorded.toList[0]? = some code.toUInt32 := by rw [content]; rfl
      constructor
      · rw [← length]
        exact Node.read_mirror_count has
      · exact (@Node.read_mirror_code_iff N { node with
          errorRegister := node.errorRegister ||| (register.bits ||| ErrorRegister.generic)
          errorHistory := recorded } 0 _ first).mpr
  | internal _ _ _ isInternal => exact isInternal.elim

/-- A master that clears the count of the error field clears the errors exactly if there are
none. The next emergency counts on from those that were there. -/
theorem count_cleared_iff {base populated : ObjectDictionary N} {standard : StandardObjects}
    (some_ : 0 < standard.errorHistoryLen)
    (inserts : standard.insertInto base = (.ok (), populated)) (nodeId : NodeId)
    (ops : List (NodeOp N)) :
    ∃ events node,
      Trace.run NodeOp.perform (Node.new nodeId populated) ops = pure (events, node) ∧
        ((∀ event ∈ events, KeepsObjects event) →
          ∀ cobId data after tx, ClearsCount node after cobId data tx →
            (ErrorsCleared after ↔ node.errorHistory.toList = []) ∧
            ∀ code register info, ∃ raised frame,
              after.raiseEmergency code register info = pure (raised, frame) ∧
                raised.od.read ⟨0x1003, 0⟩ =
                  .ok (.unsigned8 (UInt8.ofNat (min 8 (node.errorHistory.len + 1))))) := by
  rcases Node.new_runs nodeId populated ops with ⟨events, node, ran⟩
  refine ⟨events, node, ran, fun keeps cobId data after tx clears => ?_⟩
  have shape : SameShape populated node.od := by
    have history := Trace.run_while KeepsObjects
      (fun _ (state : Node N) => SameShape populated state.od) (.refl populated)
      (fun past event same taken keeps => same.trans ((NodeOp.effect taken).sameShape keeps)) ran
    exact history.1 keeps
  have served := Node.onFrame_served clears.taken
  have shapeAfter : SameShape populated after.od := shape.trans served.masterChange.sameShape
  have sameHistory : after.errorHistory = node.errorHistory := served.errorHistory
  have has : HasCount after.od := HasCount.of_sameShape shapeAfter
    ⟨_, StandardObjects.entry_errorCount inserts some_, rfl, rfl⟩
  have takes : TakesCode after.od 1 := by
    apply takesCode_of_sameShape shapeAfter
    exact ⟨_, StandardObjects.entry_errorCode inserts some_ (Nat.le_refl 1)
      (UInt8.lt_iff_toNat_lt.mp some_), rfl, rfl⟩
  rw [← sameHistory]
  refine ⟨⟨ErrorsCleared.history, fun empty => ⟨empty, ?_⟩⟩, ?_⟩
  · intro code register info
    rcases Node.raiseEmergency_reads has code register info with
      ⟨raised, frame, raises, count, first⟩
    have one : node.errorHistory.len = 0 := by
      rw [← sameHistory, BoundedVec.len, empty]
      rfl
    rw [sameHistory, one] at count
    exact ⟨raised, frame, raises, count, first takes⟩
  · intro code register info
    rcases Node.raiseEmergency_reads has code register info with ⟨raised, frame, raises, count, -⟩
    exact ⟨raised, frame, raises, count⟩

/-- One error is recorded when the count is cleared. -/
theorem count_cleared_iff_one :
    let standard := (StandardObjects.new 0x192 ⟨1, 2, 3, 4⟩).withErrorHistory 1
    let populated : ObjectDictionary 10 := (standard.insertInto .new).2
    ∃ events node,
      Trace.run NodeOp.perform (Node.new ⟨5, by decide⟩ populated)
          [.boot, .raiseEmergency 0x1000 ⟨1⟩ (Vector.replicate 5 0)] = pure (events, node) ∧
        ((∀ event ∈ events, KeepsObjects event) →
          ∀ cobId data after tx, ClearsCount node after cobId data tx →
            (ErrorsCleared after ↔ node.errorHistory.toList = []) ∧
            ∀ code register info, ∃ raised frame,
              after.raiseEmergency code register info = pure (raised, frame) ∧
                raised.od.read ⟨0x1003, 0⟩ =
                  .ok (.unsigned8 (UInt8.ofNat (min 8 (node.errorHistory.len + 1))))) :=
  @count_cleared_iff 10 .new _ ((StandardObjects.new 0x192 ⟨1, 2, 3, 4⟩).withErrorHistory 1)
    (by decide) (by rfl) _ _

/-- A master clears the count after an emergency. The error stays in the history, and the next
emergency counts two. -/
theorem count_cleared_keeps_errors :
    let standard := (StandardObjects.new 0x192 ⟨1, 2, 3, 4⟩).withErrorHistory 1
    ∃ (populated : ObjectDictionary 10) (events : List (NodeEvent 10)) (node after : Node 10)
        (tx : TxFrame),
      standard.insertInto .new = (.ok (), populated) ∧
      Trace.run NodeOp.perform (Node.new ⟨5, by decide⟩ populated)
        [.boot, .raiseEmergency 0x1000 ⟨1⟩ (Vector.replicate 5 0)] = pure (events, node) ∧
      node.Serving ∧
      ClearsCount node after 0x605 [0x2F, 0x03, 0x10, 0x00, 0x00, 0x00, 0x00, 0x00] tx ∧
      after.errorHistory.toList = [0x1000] ∧ ¬ ErrorsCleared after := by
  refine ⟨_, _, _, _, _, rfl, rfl, .inl rfl, ⟨rfl, ⟨_, rfl, .inl ?_⟩, rfl, ?_, rfl, rfl⟩, rfl,
    fun cleared => ?_⟩
  · decide
  · decide
  · exact absurd cleared.history (by decide)

end CanOpen
