import CanOpen.Node.ErrorField

/-! # The history of errors

What a node remembers of its emergencies, announces of them and mirrors to its dictionary: the
latest eight of those since the errors were last cleared.
-/

namespace CanOpen

open ObjectDictionary (SameShape)
open StandardObjects (subindex_inj)

variable {N : Nat}

/-! ## The log of errors -/

/-- A call of the application that signals an error, or the end of all errors. -/
inductive ErrorSignal where
  | raise (code : UInt16) (register : ErrorRegister) (info : Vector UInt8 5)
  | clear

def ErrorSignal.perform (node : Node N) : ErrorSignal → Exec (Node N × TxFrame)
  | raise code register info => node.raiseEmergency code register info
  | clear => node.clearErrors

abbrev ErrorLog := List (UInt16 × ErrorRegister)

namespace ErrorLog

def sinceClear (signals : List ErrorSignal) : ErrorLog :=
  signals.foldl (fun log signal =>
    match signal with
    | .raise code register _ => (code, register) :: log
    | .clear => []) []

def history (log : ErrorLog) : List UInt32 :=
  (log.map fun error => error.1.toUInt32).take maxErrorHistory

def register (log : ErrorLog) : UInt8 :=
  log.foldr (fun error bits => error.2.bits ||| bits)
    (if log.isEmpty then 0 else ErrorRegister.generic)

theorem sinceClear_append (signals : List ErrorSignal) (signal : ErrorSignal) :
    sinceClear (signals ++ [signal]) =
      match signal with
      | .raise code register _ => (code, register) :: sinceClear signals
      | .clear => [] := by
  rw [sinceClear, List.foldl_append]
  rfl

theorem history_cons (code : UInt16) (bits : ErrorRegister) (log : ErrorLog) :
    history ((code, bits) :: log) = code.toUInt32 :: log.history.take 7 := by
  rw [history, history, List.map_cons, maxErrorHistory, List.take_succ_cons, List.take_take]
  rfl

theorem foldr_or (bits start : UInt8) (log : ErrorLog) :
    log.foldr (fun error bits => error.2.bits ||| bits) (start ||| bits) =
      log.foldr (fun error bits => error.2.bits ||| bits) start ||| bits := by
  induction log with
  | nil => rfl
  | cons error log induction => rw [List.foldr_cons, induction, List.foldr_cons, UInt8.or_assoc]

theorem register_or_generic (log : ErrorLog) :
    log.register ||| ErrorRegister.generic =
      log.foldr (fun error bits => error.2.bits ||| bits) ErrorRegister.generic := by
  rw [register, ← foldr_or]
  cases log with
  | nil => rfl
  | cons error log =>
      congr 1
      exact UInt8.or_self

theorem register_cons (code : UInt16) (bits : ErrorRegister) (log : ErrorLog) :
    register ((code, bits) :: log) =
      log.register ||| (bits.bits ||| ErrorRegister.generic) := by
  calc register ((code, bits) :: log)
      = bits.bits ||| log.foldr (fun error bits => error.2.bits ||| bits)
          ErrorRegister.generic := rfl
    _ = bits.bits ||| (log.register ||| ErrorRegister.generic) := by rw [register_or_generic]
    _ = (bits.bits ||| log.register) ||| ErrorRegister.generic := by rw [UInt8.or_assoc]
    _ = (log.register ||| bits.bits) ||| ErrorRegister.generic := by
        rw [UInt8.or_comm bits.bits]
    _ = log.register ||| (bits.bits ||| ErrorRegister.generic) := by rw [UInt8.or_assoc]

end ErrorLog

/-! ## The mirror -/

def HasObject (od : ObjectDictionary N) (addr : Address) (type : DataType) : Prop :=
  ∃ entry, od.entry addr = some entry ∧ entry.value.dataType = type

/-- The error register and an error field for eight codes are there, with any access. -/
structure HasErrorObjects (od : ObjectDictionary N) : Prop where
  register : HasObject od ⟨0x1001, 0⟩ .unsigned8
  count : HasObject od ⟨0x1003, 0⟩ .unsigned8
  codes : ∀ sub : Nat, 1 ≤ sub → sub ≤ 8 →
    HasObject od ⟨0x1003, UInt8.ofNat sub⟩ .unsigned32

/-- The value of an object, whoever may read it. -/
def valueAt (od : ObjectDictionary N) (addr : Address) : Option Value :=
  (od.entry addr).map Entry.value

structure ShowsErrors (node : Node N) : Prop where
  register : valueAt node.od ⟨0x1001, 0⟩ = some (.unsigned8 node.errorRegister)
  count : valueAt node.od ⟨0x1003, 0⟩ =
    some (.unsigned8 (UInt8.ofNat node.errorHistory.len))
  codes : ∀ position code, node.errorHistory.toList[position]? = some code →
    valueAt node.od ⟨0x1003, UInt8.ofNat (position + 1)⟩ = some (.unsigned32 code)

def IsErrorObject (addr : Address) : Prop :=
  addr = ⟨0x1001, 0⟩ ∨ addr.index = 0x1003 ∧ addr.subindex ≤ 8

theorem HasObject.of_sameShape {left right : ObjectDictionary N} (same : SameShape left right)
    {addr : Address} {type : DataType} (has : HasObject left addr type) :
    HasObject right addr type := by
  rcases has with ⟨entry, present, isType⟩
  rcases same.entry_eq_some present with ⟨other, otherPresent, -, sameType⟩
  exact ⟨other, otherPresent, sameType.trans isType⟩

theorem HasErrorObjects.of_sameShape {left right : ObjectDictionary N}
    (same : SameShape left right) (has : HasErrorObjects left) : HasErrorObjects right :=
  ⟨has.register.of_sameShape same, has.count.of_sameShape same, fun sub positive within =>
    (has.codes sub positive within).of_sameShape same⟩

theorem HasObject.value_of_put {od after : ObjectDictionary N} {addr : Address} {value : Value}
    (has : HasObject od addr value.dataType)
    (put : after.entry addr = (od.entry addr).map fun entry => entry.put value) :
    valueAt after addr = some value := by
  rcases has with ⟨entry, present, isType⟩
  rw [valueAt, put, present, Option.map_some, Option.map_some, Entry.put, if_pos isType]

namespace Node

theorem entry_mirror_register (node : Node N) :
    node.mirrorErrorObjects.od.entry ⟨0x1001, 0⟩ =
      (node.od.entry ⟨0x1001, 0⟩).map fun entry =>
        entry.put (.unsigned8 node.errorRegister) := by
  rw [mirrorErrorObjects_od, entry_setCodes_of_ne, entry_setQuietly, if_neg (by decide),
    entry_setQuietly, if_pos rfl]
  intro position _ same
  have index : (0x1001 : UInt16) = 0x1003 := congrArg Address.index same
  exact absurd index (by decide)

theorem entry_mirror_of_ne (node : Node N) {addr : Address} (other : ¬ IsErrorObject addr) :
    node.mirrorErrorObjects.od.entry addr = node.od.entry addr := by
  have bound := node.errorHistory_length_le
  rw [mirrorErrorObjects_od, entry_setCodes_of_ne, entry_setQuietly, if_neg, entry_setQuietly,
    if_neg]
  · rintro rfl
    exact other (.inl rfl)
  · rintro rfl
    exact other (.inr ⟨rfl, by decide⟩)
  · rintro position within rfl
    refine other (.inr ⟨rfl, ?_⟩)
    rw [UInt8.le_iff_toNat_le, UInt8.toNat_ofNat']
    have small : (0 + position + 1) % 256 ≤ 8 := by omega
    exact small

theorem showsErrors_mirror {node : Node N} (has : HasErrorObjects node.od) :
    ShowsErrors node.mirrorErrorObjects := by
  have bound := node.errorHistory_length_le
  refine ⟨HasObject.value_of_put has.register node.entry_mirror_register,
    HasObject.value_of_put has.count node.entry_mirror_count, fun position code found => ?_⟩
  have within := (List.getElem?_eq_some_iff.mp found).1
  have code_ : HasObject node.od ⟨0x1003, UInt8.ofNat (position + 1)⟩
      (Value.unsigned32 code).dataType := by
    apply has.codes (position + 1) (Nat.le_add_left 1 position)
    exact Nat.le_trans within bound
  exact code_.value_of_put (node.entry_mirror_code found)

/-! ## One call -/

/-- The frame announces an error of a node. -/
structure Announces (nodeId : NodeId) (code : UInt16) (register : UInt8)
    (info : Vector UInt8 5) (frame : TxFrame) : Prop where
  cobId : frame.cobId = 0x080 + nodeId.raw.toUInt16
  message : ∃ bytes, frame.payload = pure bytes ∧
    EmergencyMessage.decode bytes = .ok ⟨code, ⟨register⟩, info⟩

theorem announces_of_new {nodeId : NodeId} {message : EmergencyMessage} :
    ∃ frame, TxFrame.new (emcyCobId nodeId) message.encode.toList = pure frame ∧
      Announces nodeId message.errorCode message.errorRegister.bits message.vendorSpecific
        frame := by
  rcases TxFrame.new_of_response (emcyCobId nodeId) message.encode with
    ⟨frame, built, sameId, length, content⟩
  refine ⟨frame, built, sameId, message.encode.toList, ?_, message.decode_encode⟩
  rw [frame.payload_eq, content, length]
  exact congrArg pure (List.take_of_length_le (by simp))

theorem raiseEmergency_announces (node : Node N) (code : UInt16) (register : ErrorRegister)
    (info : Vector UInt8 5) :
    ∃ recorded frame,
      recorded.toList = code.toUInt32 :: node.errorHistory.toList.take 7 ∧
      node.raiseEmergency code register info = pure ({ node with
        errorRegister := node.errorRegister ||| (register.bits ||| ErrorRegister.generic)
        errorHistory := recorded }.mirrorErrorObjects, frame) ∧
      Announces node.nodeId code
        (node.errorRegister ||| (register.bits ||| ErrorRegister.generic)) info frame := by
  rcases recordError_returns node.errorHistory code.toUInt32 with ⟨recorded, records, content⟩
  rcases @announces_of_new node.nodeId ⟨code,
    ⟨node.errorRegister ||| (register.bits ||| ErrorRegister.generic)⟩, info⟩ with
    ⟨frame, built, announces⟩
  refine ⟨recorded, frame, content, ?_, announces⟩
  rw [raiseEmergency, records, pure_bind]
  simp only [mirrorErrorObjects] at built ⊢
  rw [built]
  rfl

theorem clearErrors_clears (node : Node N) :
    ∃ frame, node.clearErrors =
      pure ({ node with errorRegister := 0, errorHistory := .new }.mirrorErrorObjects, frame) := by
  rcases @announces_of_new node.nodeId .errorReset with ⟨frame, built, -⟩
  refine ⟨frame, ?_⟩
  simp only [clearErrors, mirrorErrorObjects, built, pure_bind]

end Node

/-! ## Calls one after the other -/

abbrev ErrorEvent (N : Nat) := Trace.Event (Node N) ErrorSignal TxFrame

abbrev signalsOf (events : List (ErrorEvent N)) : List ErrorSignal :=
  events.map Trace.Event.input

structure Remembers (start : Node N) (log : ErrorLog) (node : Node N) : Prop where
  sameNode : node.nodeId = start.nodeId
  history : node.errorHistory.toList = log.history
  register : node.errorRegister = log.register
  shape : SameShape start.od node.od
  others : ∀ addr, ¬ IsErrorObject addr → node.od.entry addr = start.od.entry addr

theorem Remembers.mirror {start node recorded : Node N} {log next : ErrorLog}
    (remembers : Remembers start log node) (sameNode : recorded.nodeId = node.nodeId)
    (sameOd : recorded.od = node.od) (history : recorded.errorHistory.toList = next.history)
    (register : recorded.errorRegister = next.register) :
    Remembers start next recorded.mirrorErrorObjects where
  sameNode := sameNode.trans remembers.sameNode
  history := history
  register := register
  shape := remembers.shape.trans (sameShape_mirrorErrorObjects sameOd)
  others addr other := by
    rw [recorded.entry_mirror_of_ne other, sameOd]
    exact remembers.others addr other

theorem ErrorSignal.perform_remembers {start node : Node N} {signals : List ErrorSignal}
    (remembers : Remembers start (.sinceClear signals) node) (signal : ErrorSignal) :
    ∃ after frame, signal.perform node = pure (after, frame) ∧
      Remembers start (.sinceClear (signals ++ [signal])) after ∧
      (HasErrorObjects start.od → ShowsErrors after) ∧
      (∀ code register info, signal = .raise code register info →
        Node.Announces start.nodeId code after.errorRegister info frame) := by
  have hasObjects : HasErrorObjects start.od → HasErrorObjects node.od :=
    HasErrorObjects.of_sameShape remembers.shape
  rw [ErrorLog.sinceClear_append]
  cases signal with
  | raise code register info =>
      rcases node.raiseEmergency_announces code register info with
        ⟨recorded, frame, content, raises, announces⟩
      refine ⟨_, frame, raises, remembers.mirror rfl rfl ?_ ?_, ?_, ?_⟩
      · rw [ErrorLog.history_cons, ← remembers.history]
        exact content
      · rw [ErrorLog.register_cons, ← remembers.register]
      · intro has
        exact Node.showsErrors_mirror (hasObjects has)
      · rintro _ _ _ ⟨⟩
        rw [remembers.sameNode] at announces
        exact announces
  | clear =>
      rcases node.clearErrors_clears with ⟨frame, clears⟩
      refine ⟨_, frame, clears, remembers.mirror rfl rfl rfl rfl, ?_, ?_⟩
      · intro has
        exact Node.showsErrors_mirror (hasObjects has)
      · rintro _ _ _ ⟨⟩

theorem remembers_new (nodeId : NodeId) (od : ObjectDictionary N) :
    Remembers (Node.new nodeId od) (.sinceClear []) (Node.new nodeId od) :=
  ⟨rfl, rfl, rfl, .refl od, fun _ _ => rfl⟩

/-- After any calls the history has the latest eight codes since the errors were last cleared,
the newest first, and the register the bits of all of them. Every error was announced with the
register after it. The dictionary shows the errors as far as it has the objects for them, and
is otherwise as before. -/
theorem error_history_is_recent (nodeId : NodeId) (od : ObjectDictionary N)
    (signals : List ErrorSignal) :
    ∃ events final,
      Trace.run ErrorSignal.perform (Node.new nodeId od) signals = pure (events, final) ∧
      final.errorHistory.toList = (ErrorLog.sinceClear signals).history ∧
      final.errorRegister = (ErrorLog.sinceClear signals).register ∧
      (∀ event ∈ events, ∀ code register info, event.input = .raise code register info →
        Node.Announces nodeId code event.after.errorRegister info event.output) ∧
      (HasErrorObjects od → signals ≠ [] → ShowsErrors final) ∧
      ∀ addr, ¬ IsErrorObject addr → final.od.entry addr = od.entry addr := by
  let start := Node.new nodeId od
  have returns : ∃ events final,
      Trace.run ErrorSignal.perform start signals = pure (events, final) ∧
        ∃ past, Remembers start (.sinceClear past) final := by
    apply Trace.run_total (fun node => ∃ past, Remembers start (.sinceClear past) node) signals
      ⟨[], remembers_new nodeId od⟩
    rintro node signal - ⟨past, remembers⟩
    rcases signal.perform_remembers remembers with ⟨after, frame, performed, next, -⟩
    exact ⟨after, frame, performed, past ++ [signal], next⟩
  rcases returns with ⟨events, final, ran, -⟩
  have history := Trace.run_history
    (fun past node => Remembers start (.sinceClear (signalsOf past)) node ∧
      (HasErrorObjects od → past ≠ [] → ShowsErrors node))
    (fun _ event => ∀ code register info, event.input = .raise code register info →
      Node.Announces nodeId code event.after.errorRegister info event.output)
    ⟨remembers_new nodeId od, fun _ some_ => absurd rfl some_⟩
    (fun past node signal after frame holds taken => by
      rcases signal.perform_remembers holds.1 with ⟨_, _, performed, next, shows_, announces⟩
      cases taken.symm.trans performed
      rw [signalsOf, List.map_append, List.map_singleton]
      exact ⟨⟨next, fun has _ => shows_ has⟩, announces⟩) ran
  rw [signalsOf, Trace.run_inputs ran] at history
  rcases history with ⟨⟨remembers, shows_⟩, announced⟩
  refine ⟨events, final, ran, remembers.history, remembers.register, ?_, ?_, remembers.others⟩
  · intro event member
    rcases List.append_of_mem member with ⟨past, future, split⟩
    exact announced past event future split
  · intro has some_
    apply shows_ has
    rintro rfl
    exact some_ (Trace.run_inputs ran).symm

end CanOpen
