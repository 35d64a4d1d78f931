import CanOpen.Lss.Scan
import Mathlib.Data.List.Sort

/-! # Commissioning a bus

Round after round a fresh master discovers one unconfigured slave and assigns it
the next node-id.
-/

namespace CanOpen.Lss

/-! ## The rounds -/

def deliver (req : LssFrame) (slaves : List LssSlave) : Exec (List LssSlave) := do
  let handled ← Scan.broadcast req slaves
  pure (handled.map Prod.fst)

structure Round where
  before : List LssSlave
  master : FastscanMaster
  after : List LssSlave

/-- Scan, configure the discovered slave, switch every slave back to waiting and
let each adopt its pending node-id. The scan is given `fuel`. -/
def commissionRound (fuel : Nat) (id : UInt8) (slaves : List LssSlave) :
    Exec (Option Round) := do
  match ← Loop.run Scan.step fuel ⟨.new, slaves⟩ with
  | none => pure none
  | some (_, ended) => do
      let configured ← deliver (encodeConfigureNodeId id) ended.slaves
      let waiting ← deliver (encodeSwitchGlobal false) configured
      pure (some ⟨slaves, ended.master, waiting.map LssSlave.adoptPending⟩)

def commission (fuel : Nat) : List UInt8 → List LssSlave → Exec (Option (List Round))
  | [], _ => pure (some [])
  | id :: ids, slaves => do
      match ← commissionRound fuel id slaves with
      | none => pure none
      | some first => do
          let rest ← commission fuel ids first.after
          pure (rest.map fun rounds => first :: rounds)

/-! ## What a round does to a slave -/

theorem deliver_map {req : LssFrame} {slaves : List LssSlave}
    {before after : LssSlave → LssSlave} {answer : LssSlave → Option LssFrame}
    (handled : ∀ slave ∈ slaves,
      (before slave).handle req = pure (after slave, answer slave)) :
    deliver req (slaves.map before) = pure (slaves.map after) := by
  have all : Scan.broadcast req (slaves.map before) =
      pure (slaves.map fun slave => (after slave, answer slave)) := by
    rw [Scan.broadcast, List.mapM_map]
    exact Exec.mapM_eq_pure handled
  rw [deliver, all, pure_bind, List.map_map]
  rfl

namespace LssSlave

def configure (id : UInt8) (slave : LssSlave) : LssSlave :=
  if slave.state = .configuration then { slave with pendingNodeId := id } else slave

def wait (slave : LssSlave) : LssSlave := { slave with selective := 0, state := .waiting }

theorem handle_configure (slave : LssSlave) {id : UInt8} (valid : 1 ≤ id ∧ id ≤ 127) :
    slave.handle (encodeConfigureNodeId id) = pure (slave.configure id,
      if slave.state = .configuration then some (frameByte csConfigureNodeId 0)
      else none) := by
  have command : (encodeConfigureNodeId id).get 0 = csConfigureNodeId := rfl
  have carried : (encodeConfigureNodeId id).get 1 = id := rfl
  simp only [handle, command, carried, configure]
  by_cases configuring : slave.state = .configuration
  · simp only [configuring, valid, and_self, true_or, if_true]
    rfl
  · simp only [configuring, and_false, if_false]
    rfl

theorem handle_switch_waiting (slave : LssSlave) :
    slave.handle (encodeSwitchGlobal false) = pure (slave.wait, none) := by
  have command : (encodeSwitchGlobal false).get 0 = csSwitchGlobal := rfl
  have mode : (encodeSwitchGlobal false).get 1 = modeWaiting := rfl
  simp only [handle, command, mode, if_true]
  rfl

def afterRound (found : LssAddress) (id : UInt8) (slave : LssSlave) : LssSlave :=
  (((slave.settle found).configure id).wait).adoptPending

/-- A slave between rounds: it waits and has adopted what was pending. -/
structure Settled (slave : LssSlave) : Prop where
  state : slave.state = .waiting
  pending : slave.pendingNodeId = slave.nodeId

theorem afterRound_fields {slave : LssSlave} (settled : slave.Settled)
    (found : LssAddress) (id : UInt8) :
    (slave.afterRound found id).address = slave.address ∧
      (slave.afterRound found id).Settled ∧
      (slave.afterRound found id).nodeId =
        if slave.nodeId = unconfiguredNodeId ∧ slave.address = found then id
        else slave.nodeId := by
  have scanned := slave.afterScan_settle found
  have participates : slave.Participates ↔ slave.nodeId = unconfiguredNodeId := by
    rw [Participates, settled.state]
    simp
  have state := scanned.state
  simp only [participates] at state
  by_cases discovered : slave.nodeId = unconfiguredNodeId ∧ slave.address = found
  · rw [if_pos discovered] at state
    rw [if_pos discovered]
    simp only [afterRound, configure, state, if_true, wait, adoptPending]
    exact ⟨scanned.address, ⟨rfl, rfl⟩, trivial⟩
  · rw [if_neg discovered, settled.state] at state
    rw [if_neg discovered]
    simp only [afterRound, configure, state, reduceCtorEq, if_false, wait, adoptPending]
    exact ⟨scanned.address, ⟨rfl, rfl⟩, scanned.pendingNodeId.trans settled.pending⟩

end LssSlave

theorem commissionRound_eq {fuel : Nat} (enough : 133 < fuel) {id : UInt8}
    (valid : 1 ≤ id ∧ id ≤ 127) {slaves : List LssSlave} {target : LssAddress}
    (least : Least slaves target) :
    commissionRound fuel id slaves = pure (some
      ⟨slaves, (Scan.discovered slaves target).master,
        slaves.map (LssSlave.afterRound target id)⟩) := by
  have scanned := Scan.ends_discovered least fuel enough
  have configured : deliver (encodeConfigureNodeId id) (Scan.discovered slaves target).slaves =
      pure (slaves.map fun slave => (slave.settle target).configure id) :=
    deliver_map fun slave _ => (slave.settle target).handle_configure valid
  have waiting : deliver (encodeSwitchGlobal false)
      (slaves.map fun slave => (slave.settle target).configure id) =
      pure (slaves.map fun slave => ((slave.settle target).configure id).wait) :=
    deliver_map fun slave _ => ((slave.settle target).configure id).handle_switch_waiting
  rw [commissionRound, scanned, pure_bind]
  simp only [configured, pure_bind, waiting, List.map_map]
  rfl

/-! ## All rounds -/

structure Assigns (found : LssAddress) (id : UInt8) (before after : LssSlave) : Prop where
  address : after.address = before.address
  nodeId : after.nodeId = if before.address = found then id else before.nodeId
  free : before.address = found → before.nodeId = unconfiguredNodeId

inductive Commissioned :
    List LssAddress → List UInt8 → List LssSlave → List Round → List LssSlave → Prop
  | done (slaves) : Commissioned [] [] slaves [] slaves
  | round {address addresses id ids slaves round rounds last} :
      round.before = slaves → round.master.found = true →
      round.master.isComplete = true → round.master.address = address →
      (∃ slave ∈ slaves, slave.address = address) →
      List.Forall₂ (Assigns address id) slaves round.after →
      Commissioned addresses ids round.after rounds last →
      Commissioned (address :: addresses) (id :: ids) slaves (round :: rounds) last

/-- The slaves between two rounds: `addresses` are those still unconfigured. -/
structure Ready (slaves : List LssSlave) (addresses : List LssAddress) : Prop where
  settled : ∀ slave ∈ slaves, slave.Settled
  distinct : (slaves.map LssSlave.address).Nodup
  sorted : addresses.Pairwise (· < ·)
  unconfigured : ∀ address, address ∈ addresses ↔
    ∃ slave ∈ slaves, slave.nodeId = unconfiguredNodeId ∧ slave.address = address

theorem eq_of_address_eq {slaves : List LssSlave}
    (distinct : (slaves.map LssSlave.address).Nodup) {left right : LssSlave}
    (leftMember : left ∈ slaves) (rightMember : right ∈ slaves)
    (equal : left.address = right.address) : left = right :=
  List.inj_on_of_nodup_map distinct leftMember rightMember equal

theorem Ready.least {slaves : List LssSlave} {address : LssAddress}
    {addresses : List LssAddress} (ready : Ready slaves (address :: addresses)) :
    Least slaves address := by
  constructor
  · rcases (ready.unconfigured address).mp List.mem_cons_self with
      ⟨slave, member, unconfigured, equal⟩
    exact ⟨slave, member, ⟨unconfigured, (ready.settled slave member).state⟩, equal⟩
  · intro slave member participates
    have remaining := (ready.unconfigured slave.address).mpr
      ⟨slave, member, participates.1, rfl⟩
    rcases List.mem_cons.mp remaining with equal | later
    · exact le_of_eq equal.symm
    · exact le_of_lt ((List.pairwise_cons.mp ready.sorted).1 _ later)

theorem Ready.next {slaves : List LssSlave} {address : LssAddress}
    {addresses : List LssAddress} (ready : Ready slaves (address :: addresses))
    {id : UInt8} (valid : 1 ≤ id ∧ id ≤ 127) :
    Ready (slaves.map (LssSlave.afterRound address id)) addresses ∧
      List.Forall₂ (Assigns address id) slaves
        (slaves.map (LssSlave.afterRound address id)) := by
  have configured : id ≠ unconfiguredNodeId := by
    rintro rfl
    exact absurd valid.2 (by decide)
  have fields := fun slave member =>
    LssSlave.afterRound_fields (ready.settled slave member) address id
  have fresh : address ∉ addresses := fun later =>
    lt_irrefl address ((List.pairwise_cons.mp ready.sorted).1 _ later)
  refine ⟨⟨?_, ?_, (List.pairwise_cons.mp ready.sorted).2, ?_⟩, ?_⟩
  · intro slave member
    rcases List.mem_map.mp member with ⟨before, beforeMember, rfl⟩
    exact (fields before beforeMember).2.1
  · have same : (slaves.map (LssSlave.afterRound address id)).map LssSlave.address =
        slaves.map LssSlave.address := by
      rw [List.map_map]
      exact List.map_congr_left fun slave member => (fields slave member).1
    rw [same]
    exact ready.distinct
  · intro other
    constructor
    · intro later
      rcases (ready.unconfigured other).mp (List.mem_cons_of_mem _ later) with
        ⟨slave, member, unconfigured, rfl⟩
      have different : slave.address ≠ address := fun equal => fresh (equal ▸ later)
      refine ⟨_, List.mem_map_of_mem member, ?_, (fields slave member).1⟩
      rw [(fields slave member).2.2, if_neg fun both => different both.2]
      exact unconfigured
    · rintro ⟨after, member, unconfigured, rfl⟩
      rcases List.mem_map.mp member with ⟨slave, slaveMember, rfl⟩
      rw [(fields slave slaveMember).2.2] at unconfigured
      rw [(fields slave slaveMember).1]
      split at unconfigured
      · exact absurd unconfigured configured
      · next notFound =>
          have present := (ready.unconfigured slave.address).mpr
            ⟨slave, slaveMember, unconfigured, rfl⟩
          rcases List.mem_cons.mp present with equal | later
          · exact absurd ⟨unconfigured, equal⟩ notFound
          · exact later
  · refine List.forall₂_map_right_iff.mpr (List.forall₂_same.mpr fun slave member => ?_)
    have free : slave.address = address → slave.nodeId = unconfiguredNodeId := by
      intro equal
      rcases (ready.unconfigured address).mp List.mem_cons_self with
        ⟨found, foundMember, unconfigured, foundEqual⟩
      have same := eq_of_address_eq ready.distinct member foundMember
        (equal.trans foundEqual.symm)
      exact same ▸ unconfigured
    refine ⟨(fields slave member).1, ?_, free⟩
    rw [(fields slave member).2.2]
    by_cases equal : slave.address = address
    · rw [if_pos ⟨free equal, equal⟩, if_pos equal]
    · rw [if_neg fun both => equal both.2, if_neg equal]

theorem Ready.commissioned {fuel : Nat} (enough : 133 < fuel) {ids : List UInt8}
    {addresses : List LssAddress} {slaves : List LssSlave}
    (ready : Ready slaves addresses) (count : addresses.length = ids.length)
    (valid : ∀ id ∈ ids, 1 ≤ id ∧ id ≤ 127) :
    ∃ rounds last, commission fuel ids slaves = pure (some rounds) ∧
      Commissioned addresses ids slaves rounds last ∧ Ready last [] := by
  induction ids generalizing addresses slaves with
  | nil =>
      rw [List.length_nil, List.length_eq_zero_iff] at count
      subst count
      exact ⟨[], slaves, rfl, .done slaves, ready⟩
  | cons id ids induction =>
      cases addresses with
      | nil => cases count
      | cons address addresses =>
          have validId := valid id List.mem_cons_self
          rcases ready.next validId with ⟨readyNext, assigns⟩
          rcases induction readyNext (by simpa using count)
            (fun item member => valid item (List.mem_cons_of_mem _ member)) with
            ⟨rounds, last, commissions, commissioned, readyLast⟩
          let first : Round := ⟨slaves, (Scan.discovered slaves address).master,
            slaves.map (LssSlave.afterRound address id)⟩
          have here : ∃ slave ∈ slaves, slave.address = address := by
            rcases (ready.unconfigured address).mp List.mem_cons_self with
              ⟨slave, member, -, equal⟩
            exact ⟨slave, member, equal⟩
          refine ⟨first :: rounds, last, ?_, ?_, readyLast⟩
          · rw [commission, commissionRound_eq enough validId ready.least, pure_bind]
            simp only [commissions, pure_bind, Option.map_some]
            rfl
          · exact .round rfl rfl rfl (Scan.discovered_address slaves address) here assigns
              commissioned

/-! ## Ids once assigned -/

def KeepsId (before after : LssSlave) : Prop :=
  before.nodeId ≠ unconfiguredNodeId → after.nodeId = before.nodeId

theorem Assigns.keepsId {found : LssAddress} {id : UInt8} {before after : LssSlave}
    (assigns : Assigns found id before after) : KeepsId before after := by
  intro assigned
  rw [assigns.nodeId, if_neg fun equal => assigned (assigns.free equal)]

theorem KeepsId.trans {first second third : LssSlave} (left : KeepsId first second)
    (right : KeepsId second third) : KeepsId first third := by
  intro assigned
  have kept := left assigned
  rw [right (kept ▸ assigned), kept]

theorem forall₂_keepsId_trans {first second third : List LssSlave}
    (left : List.Forall₂ KeepsId first second) (right : List.Forall₂ KeepsId second third) :
    List.Forall₂ KeepsId first third := by
  induction left generalizing third with
  | nil => exact right
  | cons head tail induction =>
      cases right with
      | cons headNext tailNext => exact .cons (head.trans headNext) (induction tailNext)

theorem Commissioned.keeps {addresses : List LssAddress} {ids : List UInt8}
    {slaves last : List LssSlave} {rounds : List Round}
    (commissioned : Commissioned addresses ids slaves rounds last) :
    ∀ round ∈ rounds, List.Forall₂ KeepsId slaves round.after := by
  induction commissioned with
  | done slaves => intro round member; cases member
  | round before found complete discovers here assigns commissioned induction =>
      have kept := assigns.imp fun _ _ assigns => assigns.keepsId
      intro round member
      rcases List.mem_cons.mp member with rfl | later
      · exact kept
      · exact forall₂_keepsId_trans kept (induction round later)

theorem Commissioned.pairwise_keeps {addresses : List LssAddress} {ids : List UInt8}
    {slaves last : List LssSlave} {rounds : List Round}
    (commissioned : Commissioned addresses ids slaves rounds last) :
    rounds.Pairwise fun earlier later => List.Forall₂ KeepsId earlier.after later.after := by
  induction commissioned with
  | done slaves => exact .nil
  | round before found complete discovers here assigns commissioned induction =>
      exact .cons commissioned.keeps induction

/-! ## Commissioning an unconfigured bus -/

theorem exists_ready {slaves : List LssSlave}
    (unconfigured : ∀ slave ∈ slaves, slave.nodeId = unconfiguredNodeId ∧
      slave.pendingNodeId = unconfiguredNodeId ∧ slave.state = .waiting)
    (distinct : (slaves.map LssSlave.address).Nodup) :
    ∃ addresses, addresses.Perm (slaves.map LssSlave.address) ∧ Ready slaves addresses := by
  let addresses := (slaves.map LssSlave.address).mergeSort
  have permuted : addresses.Perm (slaves.map LssSlave.address) := List.mergeSort_perm _ _
  refine ⟨addresses, permuted, ?_, distinct, ?_, ?_⟩
  · intro slave member
    rcases unconfigured slave member with ⟨active, pending, state⟩
    exact ⟨state, pending.trans active.symm⟩
  · have sorted : addresses.Pairwise (· ≤ ·) := List.pairwise_mergeSort' (· ≤ ·) _
    have different : addresses.Pairwise (· ≠ ·) := permuted.nodup_iff.mpr distinct
    exact (sorted.and different).imp fun both => lt_of_le_of_ne both.1 both.2
  · intro address
    rw [permuted.mem_iff, List.mem_map]
    constructor
    · rintro ⟨slave, member, equal⟩
      exact ⟨slave, member, (unconfigured slave member).1, equal⟩
    · rintro ⟨slave, member, -, equal⟩
      exact ⟨slave, member, equal⟩

/-- Commissioning gives the ids to the slaves in the order of their addresses, never
changes an id it has given, and leaves nobody for a further scan. -/
theorem commissioning_assigns {fuel : Nat} (enough : 133 < fuel) {slaves : List LssSlave}
    {ids : List UInt8} (count : slaves.length = ids.length)
    (unconfigured : ∀ slave ∈ slaves, slave.nodeId = unconfiguredNodeId ∧
      slave.pendingNodeId = unconfiguredNodeId ∧ slave.state = .waiting)
    (distinct : (slaves.map LssSlave.address).Nodup)
    (valid : ∀ id ∈ ids, 1 ≤ id ∧ id ≤ 127) :
    ∃ addresses rounds last,
      addresses.Perm (slaves.map LssSlave.address) ∧ addresses.Pairwise (· < ·) ∧
        commission fuel ids slaves = pure (some rounds) ∧
        Commissioned addresses ids slaves rounds last ∧
        rounds.Pairwise (fun earlier later =>
          List.Forall₂ KeepsId earlier.after later.after) ∧
        ∃ scanned, Loop.Ends Scan.step ⟨.new, last⟩ 1 scanned ∧
          scanned.master.found = false := by
  rcases exists_ready unconfigured distinct with ⟨addresses, permuted, ready⟩
  have length : addresses.length = ids.length := by
    rw [permuted.length_eq, List.length_map, count]
  rcases ready.commissioned enough length valid with
    ⟨rounds, last, commissions, commissioned, configured⟩
  have nobody : ∀ slave ∈ last, ¬ slave.Participates := by
    intro slave member participates
    exact List.not_mem_nil
      ((configured.unconfigured slave.address).mpr ⟨slave, member, participates.1, rfl⟩)
  exact ⟨addresses, rounds, last, permuted, ready.sorted, commissions, commissioned,
    commissioned.pairwise_keeps, _, Scan.ends_of_none nobody, rfl⟩

/-- Two slaves, the one with the greater address listed first. -/
theorem commissioning_assigns_two :
    let slave (vendor : UInt32) : LssSlave := .new ⟨vendor, 2, 3, 4⟩ unconfiguredNodeId
    ∃ addresses rounds last,
      addresses.Perm (List.map LssSlave.address [slave 9, slave 1]) ∧
        addresses.Pairwise (· < ·) ∧
        commission 134 [5, 6] [slave 9, slave 1] = pure (some rounds) ∧
        Commissioned addresses [5, 6] [slave 9, slave 1] rounds last ∧
        rounds.Pairwise (fun earlier later =>
          List.Forall₂ KeepsId earlier.after later.after) ∧
        ∃ scanned, Loop.Ends Scan.step ⟨.new, last⟩ 1 scanned ∧
          scanned.master.found = false :=
  commissioning_assigns (by decide) rfl (by decide) (by decide) (by simp)

end CanOpen.Lss
