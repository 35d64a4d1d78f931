import CanOpen.Node.ErrorHistory
import CanOpen.Node.Transmission

/-! # Following the PDO parameters

An application polls for the written object after each frame, and rebuilds the PDOs when it is
a PDO parameter. As long as the parameters are written by a master only, the PDOs are the ones
that the dictionary describes.
-/

namespace CanOpen

variable {N : Nat}

/-! ## The loop of an application -/

def isPdoParameter (index : UInt16) : Bool := decide (0x1400 ≤ index ∧ index ≤ 0x1BFF)

/-- Poll for the written object, and rebuild the PDOs if it is a PDO parameter. -/
def Node.pollWritten (node : Node N) : Node N :=
  match node.takeWrittenObject with
  | (node, some addr) => if isPdoParameter addr.index then node.configurePdosFromOd else node
  | (node, none) => node

def NodeOp.afterwards (node : Node N) : NodeOp N → Node N
  | .onFrame _ _ => node.pollWritten
  | _ => node

def NodeOp.turn (node : Node N) (op : NodeOp N) : Exec (Node N × List BusFrame) := do
  let (node, sent) ← op.step node
  pure (op.afterwards node, sent)

/-- The operation adds a PDO by hand, or changes PDO parameters without a report: from the
device side, or through a receive PDO that maps them. -/
def Node.Bypasses (node : Node N) : NodeOp N → Prop
  | .addRpdo _ _ | .addTpdo _ _ _ => True
  | .odMut od => ∃ addr, isPdoParameter addr.index = true ∧ od.read addr ≠ node.od.read addr
  | .onFrame cobId _ => ∃ slot ∈ node.rpdos.toList, slot.cobId = cobId ∧
      ∃ entry ∈ slot.mapping.entries.toList, isPdoParameter entry.address.index = true
  | _ => False

/-! ## The parameters in the dictionary -/

def indicesElsewhere : List UInt16 :=
  ((List.range 65536).map UInt16.ofNat).filter fun index => !isPdoParameter index

theorem mem_indicesElsewhere {index : UInt16} :
    index ∈ indicesElsewhere ↔ isPdoParameter index = false := by
  rw [indicesElsewhere, List.mem_filter, Bool.not_eq_true']
  constructor
  · exact And.right
  · intro elsewhere
    exact ⟨List.mem_map.mpr ⟨index.toNat, List.mem_range.mpr index.toNat_lt,
      UInt16.ofNat_toNat⟩, elsewhere⟩

theorem isPdoParameter_iff {index : UInt16} :
    isPdoParameter index = true ↔ 0x1400 ≤ index.toNat ∧ index.toNat ≤ 0x1BFF := by
  rw [isPdoParameter, decide_eq_true_iff, UInt16.le_iff_toNat_le, UInt16.le_iff_toNat_le]
  rfl

abbrev SameParameters (left right : ObjectDictionary N) : Prop :=
  SameOutside indicesElsewhere left right

theorem sameParameters_iff {left right : ObjectDictionary N} :
    SameParameters left right ↔
      ∀ addr, isPdoParameter addr.index = true → left.read addr = right.read addr := by
  simp only [SameParameters, SameOutside, mem_indicesElsewhere, Bool.not_eq_false]

theorem SameParameters.refl (od : ObjectDictionary N) : SameParameters od od := fun _ _ => rfl

theorem SameParameters.of_entry {left right : ObjectDictionary N}
    (same : ∀ addr, isPdoParameter addr.index = true → left.entry addr = right.entry addr) :
    SameParameters left right := by
  rw [sameParameters_iff]
  intro addr isParameter
  rw [ObjectDictionary.read, ObjectDictionary.read, same addr isParameter]

theorem rpdoRecords_parameters {n index : UInt16} (small : n.toNat < maxPdos)
    (record : index ∈ rpdoRecords n) : index ∉ indicesElsewhere := by
  have bound : n.toNat < 4 := small
  rw [mem_indicesElsewhere, Bool.not_eq_false, isPdoParameter_iff]
  rcases (mem_rpdoRecords_iff small).mp record with comm | map <;> omega

theorem tpdoRecords_parameters {n index : UInt16} (small : n.toNat < maxPdos)
    (record : index ∈ tpdoRecords n) : index ∉ indicesElsewhere := by
  have bound : n.toNat < 4 := small
  rw [mem_indicesElsewhere, Bool.not_eq_false, isPdoParameter_iff]
  rcases (mem_tpdoRecords_iff small).mp record with comm | map <;> omega

/-! ## The PDOs that a dictionary describes -/

structure PdosConfigured (node : Node N) : Prop where
  rpdos : node.rpdos.toList = pdoNumbers.filterMap (buildRpdo node.od)
  tpdos : node.tpdos.toList = pdoNumbers.filterMap (buildTpdo node.od)

theorem pdosConfigured_configure (node : Node N) : PdosConfigured node.configurePdosFromOd := by
  rcases node.configurePdosFromOd_slots with ⟨rpdos, tpdos, configured, isRpdos, isTpdos⟩
  rw [configured]
  exact ⟨isRpdos, isTpdos⟩

theorem PdosConfigured.of_sameParameters {node after : Node N} (configured : PdosConfigured node)
    (rpdos : after.rpdos = node.rpdos) (tpdos : after.tpdos = node.tpdos)
    (same : SameParameters node.od after.od) : PdosConfigured after := by
  constructor
  · rw [rpdos, configured.rpdos]
    apply List.filterMap_congr
    intro n member
    exact same.buildRpdo fun _ => rpdoRecords_parameters (toNat_lt_of_mem_pdoNumbers member)
  · rw [tpdos, configured.tpdos]
    apply List.filterMap_congr
    intro n member
    exact same.buildTpdo fun _ => tpdoRecords_parameters (toNat_lt_of_mem_pdoNumbers member)

/-! ## One operation -/

/-- The PDOs and their parameters are as before, and no write is reported that was not. -/
structure KeepsPdos (node after : Node N) : Prop where
  rpdos : after.rpdos = node.rpdos
  tpdos : after.tpdos = node.tpdos
  parameters : SameParameters node.od after.od
  lastWrite : node.sdo.lastWrite = none → after.sdo.lastWrite = none

theorem KeepsPdos.refl (node : Node N) : KeepsPdos node node :=
  ⟨rfl, rfl, .refl node.od, id⟩

theorem KeepsPdos.mirror {node recorded : Node N} (keeps : KeepsPdos node recorded) :
    KeepsPdos node recorded.mirrorErrorObjects := by
  refine ⟨keeps.rpdos, keeps.tpdos, ?_, keeps.lastWrite⟩
  rw [sameParameters_iff]
  intro addr isParameter
  rw [sameParameters_iff.mp keeps.parameters addr isParameter, ObjectDictionary.read,
    ObjectDictionary.read, recorded.entry_mirror_of_ne]
  rintro (rfl | ⟨index, -⟩)
  · exact absurd isParameter (by decide)
  · rw [index] at isParameter
    exact absurd isParameter (by decide)

/-- What a frame does to the PDOs, their parameters and the report: nothing, or a master writes
one object, which is reported. -/
inductive FrameChange (node : Node N) (cobId : UInt16) (after : Node N) : Prop
  | kept (keeps : KeepsPdos node after)
  | written (addr : Address) (entry : Entry) (request : cobId = node.sdo.requestCobId)
      (rpdos : after.rpdos = node.rpdos) (tpdos : after.tpdos = node.tpdos)
      (replaced : after.od = node.od.replace addr entry)
      (reported : after.sdo.lastWrite = some addr)

theorem Node.Served.frameChange {node : Node N} {cobId : UInt16} {data : List UInt8}
    {out : Node N × Option TxFrame} (served : Served node cobId data out)
    (announced : ¬ node.Bypasses (.onFrame cobId data)) : FrameChange node cobId out.1 := by
  cases served with
  | ignored => exact .kept (.refl node)
  | lss | nmt => exact .kept ⟨rfl, rfl, .refl node.od, id⟩
  | sdo payload handled tx request _ _ _ handles =>
      rcases (Sdo.SdoServer.handle_effect handles).reports with
        ⟨same, sameOd⟩ | ⟨addr, entry, reported, replaced⟩
      · refine .kept ⟨rfl, rfl, ?_, fun none_ => same.trans none_⟩
        rw [show handled.od = node.od from sameOd]
        exact .refl node.od
      · exact .written addr entry request rfl rfl replaced reported
  | rpdo slot result od _ _ _ member listens unpacks =>
      refine .kept ⟨rfl, rfl, .of_entry ?_, id⟩
      intro addr isParameter
      refine (unpack_leaves unpacks fun entry mapped here => announced ?_).symm
      exact ⟨slot, member, listens, entry, mapped, here ▸ isParameter⟩

theorem NodeOp.keepsPdos {node after : Node N} {op : NodeOp N} {frames : List TxFrame}
    (performed : op.perform node = pure (after, frames)) (announced : ¬ node.Bypasses op)
    (noFrame : ∀ cobId data, op ≠ .onFrame cobId data) :
    KeepsPdos node after ∨ after = node.configurePdosFromOd := by
  cases op with
  | onFrame cobId data => exact absurd rfl (noFrame cobId data)
  | addRpdo | addTpdo => exact absurd trivial announced
  | configurePdosFromOd =>
      cases performed
      exact .inr rfl
  | enableLss | enableLssUnconfigured =>
      cases performed
      exact .inl ⟨rfl, rfl, .refl node.od, id⟩
  | setNodeId | takeWrittenObject =>
      cases performed
      exact .inl ⟨rfl, rfl, .refl node.od, fun _ => rfl⟩
  | odMut od =>
      cases performed
      refine .inl ⟨rfl, rfl, sameParameters_iff.mpr fun addr isParameter => ?_, id⟩
      by_contra different
      exact announced ⟨addr, isParameter, Ne.symm different⟩
  | applyLssNodeId =>
      cases performed
      refine .inl ?_
      cases applied : node.applyLssNodeId with
      | mk next result =>
          cases result with
          | none =>
              rw [Node.eq_of_applyLssNodeId_none applied]
              exact .refl node
          | some id =>
              rcases Node.applyLssNodeId_eq_some_iff.mp applied with ⟨slave, -, -, -, rfl⟩
              exact ⟨rfl, rfl, .refl node.od, fun _ => rfl⟩
  | boot =>
      rw [(NodeOp.effect performed).eq_boot]
      exact .inl ⟨rfl, rfl, .refl node.od, id⟩
  | raiseEmergency code register info =>
      simp only [perform, Node.raiseEmergency, Exec.bind_eq_pure_iff] at performed
      rcases performed with ⟨_, ⟨recorded, -, frame, -, ⟨⟩⟩, ⟨⟩⟩
      exact .inl (KeepsPdos.mirror ⟨rfl, rfl, .refl node.od, id⟩)
  | clearErrors =>
      simp only [perform, Node.clearErrors, Exec.bind_eq_pure_iff] at performed
      rcases performed with ⟨_, ⟨frame, -, ⟨⟩⟩, ⟨⟩⟩
      exact .inl (KeepsPdos.mirror ⟨rfl, rfl, .refl node.od, id⟩)
  | enableSyncProducer counterOverflow =>
      cases performed
      unfold Node.enableSyncProducer
      cases SyncCounter.new counterOverflow <;> exact .inl ⟨rfl, rfl, .refl node.od, id⟩
  | nodeGuardResponse =>
      simp only [perform, Node.nodeGuardResponse, Exec.bind_eq_pure_iff] at performed
      rcases performed with ⟨_, ⟨frame, -, ⟨⟩⟩, ⟨⟩⟩
      exact .inl ⟨rfl, rfl, .refl node.od, id⟩
  | heartbeat | syncTpdos | tpdo =>
      simp only [perform, Exec.bind_eq_pure_iff] at performed
      rcases performed with ⟨_, -, ⟨⟩⟩
      exact .inl (.refl node)
  | produceSync =>
      simp only [perform, Exec.bind_eq_pure_iff] at performed
      rcases performed with ⟨⟨next, frame⟩, produced, ⟨⟩⟩
      unfold Node.produceSync at produced
      split at produced
      · cases produced
        exact .inl (.refl node)
      · simp only [Exec.bind_eq_pure_iff] at produced
        rcases produced with ⟨_, _, _, _, ⟨⟩⟩
        exact .inl ⟨rfl, rfl, .refl node.od, id⟩

/-! ## The turns of the loop -/

/-- The PDOs are those that the dictionary describes, and no write is left to be reported. -/
structure FollowsParameters (node : Node N) : Prop where
  configured : PdosConfigured node
  polled : node.sdo.lastWrite = none

theorem FollowsParameters.keep {node after : Node N} (follows : FollowsParameters node)
    (keeps : KeepsPdos node after) : FollowsParameters after :=
  ⟨follows.configured.of_sameParameters keeps.rpdos keeps.tpdos keeps.parameters,
    keeps.lastWrite follows.polled⟩

theorem Node.pollWritten_of_none {node : Node N} (polled : node.sdo.lastWrite = none) :
    node.pollWritten = node := by
  rcases node with ⟨nodeId, od, ⟨server, transfer, lastWrite⟩⟩
  cases polled
  rfl

theorem Node.pollWritten_of_some {node : Node N} {addr : Address}
    (reported : node.sdo.lastWrite = some addr) :
    node.pollWritten = if isPdoParameter addr.index = true then
      node.takeWrittenObject.1.configurePdosFromOd else node.takeWrittenObject.1 := by
  have taken : node.takeWrittenObject = (node.takeWrittenObject.1, some addr) :=
    Prod.ext rfl reported
  rw [pollWritten, taken]

/-- What one turn does: it keeps the PDOs, or a master writes a parameter and the PDOs are
rebuilt. -/
inductive TurnChange (node : Node N) (op : NodeOp N) (after : Node N) : Prop
  | kept (keeps : KeepsPdos node after)
  | rebuilt (data : List UInt8) (addr : Address) (entry : Entry)
      (request : op = .onFrame node.sdo.requestCobId data)
      (parameter : isPdoParameter addr.index = true)
      (written : after.od = node.od.replace addr entry)

theorem NodeOp.turn_eq_pure_iff {node after : Node N} {op : NodeOp N} {sent : List BusFrame} :
    op.turn node = pure (after, sent) ↔
      ∃ served, op.step node = pure (served, sent) ∧ op.afterwards served = after := by
  rw [turn, Exec.bind_eq_pure_iff]
  constructor
  · rintro ⟨⟨served, out⟩, taken, polled⟩
    cases polled
    exact ⟨served, taken, rfl⟩
  · rintro ⟨served, taken, rfl⟩
    exact ⟨⟨served, sent⟩, taken, rfl⟩

theorem FollowsParameters.turn {node after : Node N} {op : NodeOp N} {sent : List BusFrame}
    (follows : FollowsParameters node) (announced : ¬ node.Bypasses op)
    (taken : op.turn node = pure (after, sent)) :
    FollowsParameters after ∧ TurnChange node op after := by
  rcases NodeOp.turn_eq_pure_iff.mp taken with ⟨served, step, rfl⟩
  rcases NodeOp.step_eq_pure_iff.mp step with ⟨frames, performed, -⟩
  by_cases isFrame : ∃ cobId data, op = .onFrame cobId data
  · rcases isFrame with ⟨cobId, data, rfl⟩
    simp only [NodeOp.perform, Exec.bind_eq_pure_iff] at performed
    rcases performed with ⟨⟨next, tx⟩, received, ⟨⟩⟩
    cases (Node.onFrame_served received).frameChange announced with
    | kept keeps =>
        have same : next.pollWritten = next :=
          Node.pollWritten_of_none (keeps.lastWrite follows.polled)
        rw [NodeOp.afterwards, same]
        exact ⟨follows.keep keeps, .kept keeps⟩
    | written addr entry request rpdos tpdos replaced reported =>
        rw [NodeOp.afterwards, Node.pollWritten_of_some reported]
        split
        · next parameter =>
            exact ⟨⟨pdosConfigured_configure _, rfl⟩,
              .rebuilt data addr entry (by rw [request]) parameter replaced⟩
        · next other =>
            have keeps : KeepsPdos node next.takeWrittenObject.1 := by
              refine ⟨rpdos, tpdos, .of_entry fun here isParameter => ?_, fun _ => rfl⟩
              change _ = next.od.entry here
              rw [replaced, ObjectDictionary.entry_replace_of_ne]
              rintro rfl
              exact other isParameter
            exact ⟨follows.keep keeps, .kept keeps⟩
  · have afterwards : op.afterwards served = served := by
      cases op with
      | onFrame cobId data => exact absurd ⟨cobId, data, rfl⟩ isFrame
      | _ => rfl
    rw [afterwards]
    have noFrame : ∀ cobId data, op ≠ .onFrame cobId data :=
      fun cobId data same => isFrame ⟨cobId, data, same⟩
    rcases NodeOp.keepsPdos performed announced noFrame with keeps | rfl
    · exact ⟨follows.keep keeps, .kept keeps⟩
    · have keeps : KeepsPdos node node.configurePdosFromOd := by
        have again := pdosConfigured_configure node
        refine ⟨BoundedVec.ext ?_, BoundedVec.ext ?_, .refl node.od, id⟩
        · rw [again.rpdos, follows.configured.rpdos]
          rfl
        · rw [again.tpdos, follows.configured.tpdos]
          rfl
      exact ⟨follows.keep keeps, .kept keeps⟩

theorem NodeOp.valid_afterwards {served : Node N} (valid : served.sdo.Valid) (op : NodeOp N) :
    (op.afterwards served).sdo.Valid := by
  cases op with
  | onFrame cobId data =>
      rw [afterwards, Node.pollWritten]
      split
      · next node addr taken =>
          have same : node = served.takeWrittenObject.1 := (congrArg Prod.fst taken).symm
          subst same
          split <;> exact valid
      · next node taken =>
          have same : node = served.takeWrittenObject.1 := (congrArg Prod.fst taken).symm
          subst same
          exact valid
  | _ => exact valid

theorem NodeOp.turn_returns {node : Node N} (valid : node.sdo.Valid) (op : NodeOp N) :
    ∃ after sent, op.turn node = pure (after, sent) ∧ after.sdo.Valid := by
  rcases op.step_returns valid with ⟨served, sent, taken, validServed⟩
  exact ⟨_, sent, turn_eq_pure_iff.mpr ⟨served, taken, rfl⟩, op.valid_afterwards validServed⟩

/-- In every run of an application that configures the PDOs from the dictionary and then polls
for written objects, the PDOs are those that the dictionary describes, until PDOs are added by hand
or parameters are changed behind the back of a master. Till then nothing changes the PDOs but a
request of a master that writes a parameter. -/
theorem pdos_follow_the_parameters (nodeId : NodeId) (od : ObjectDictionary N)
    (ops : List (NodeOp N)) :
    ∃ events final,
      Trace.run NodeOp.turn (Node.new nodeId od).configurePdosFromOd ops = pure (events, final) ∧
      ∀ past event future, events = past ++ event :: future →
        (∀ turn ∈ past ++ [event], ¬ turn.before.Bypasses turn.input) →
        PdosConfigured event.after ∧ event.after.takeWrittenObject = (event.after, none) ∧
        ((event.after.rpdos ≠ event.before.rpdos ∨ event.after.tpdos ≠ event.before.tpdos) →
          ∃ data addr entry, event.input = .onFrame event.before.sdo.requestCobId data ∧
            isPdoParameter addr.index = true ∧
            event.after.od = event.before.od.replace addr entry) := by
  have valid : (Node.new nodeId od).configurePdosFromOd.sdo.Valid :=
    Sdo.SdoServer.valid_new nodeId
  rcases Trace.run_total (fun node : Node N => node.sdo.Valid) ops valid
    (fun node op _ valid => NodeOp.turn_returns valid op) with ⟨events, final, ran, -⟩
  refine ⟨events, final, ran, ?_⟩
  have atStart : FollowsParameters (Node.new nodeId od).configurePdosFromOd :=
    ⟨pdosConfigured_configure _, rfl⟩
  have before := (Trace.run_while
    (fun turn : BusEvent N => ¬ turn.before.Bypasses turn.input)
    (fun _ node => FollowsParameters node) atStart
    (fun _ event follows taken announced => (follows.turn announced taken).1) ran).2
  intro past event future split announced
  rw [List.forall_mem_append, List.forall_mem_singleton] at announced
  have follows := before past event future split announced.1
  have taken := (Trace.run_split (split ▸ ran)).1
  rcases follows.turn announced.2 taken with ⟨followsAfter, change⟩
  refine ⟨followsAfter.configured, Prod.ext ?_ followsAfter.polled, ?_⟩
  · rcases event with ⟨_, _, _, nodeId, od, ⟨server, transfer, lastWrite⟩⟩
    cases followsAfter.polled
    rfl
  · intro changed
    cases change with
    | kept keeps =>
        rcases changed with rpdos | tpdos
        · exact absurd keeps.rpdos rpdos
        · exact absurd keeps.tpdos tpdos
    | rebuilt data addr entry request parameter written =>
        exact ⟨data, addr, entry, request, parameter, written⟩

end CanOpen
