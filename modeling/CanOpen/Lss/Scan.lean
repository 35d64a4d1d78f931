import CanOpen.Lss.Fastscan
import Mathlib.Data.Finset.Max
import Mathlib.Tactic.IntervalCases

/-! # What a Fastscan discovers

The slaves that take part are narrowed down to those with the least address. The
state of every slave during the scan is computed from its state at the start.
-/

namespace CanOpen.Lss

/-! ## Addresses that agree -/

namespace LssAddress

def matched (target address : LssAddress) : Nat :=
  if address.vendorId ≠ target.vendorId then 0
  else if address.productCode ≠ target.productCode then 1
  else if address.revisionNumber ≠ target.revisionNumber then 2
  else if address.serialNumber ≠ target.serialNumber then 3
  else 4

theorem matched_le (target address : LssAddress) : matched target address ≤ 4 := by
  unfold matched
  split_ifs <;> decide

theorem matched_eq_four_iff {target address : LssAddress} :
    matched target address = 4 ↔ address = target := by
  rcases target with ⟨vendor, product, revision, serial⟩
  rcases address with ⟨vendor', product', revision', serial'⟩
  simp only [matched, LssAddress.mk.injEq]
  split_ifs <;> simp_all

theorem succ_le_matched_iff {target address : LssAddress} {sub : Nat} (subLt : sub < 4) :
    sub + 1 ≤ matched target address ↔
      sub ≤ matched target address ∧ address.identity sub = target.identity sub := by
  unfold matched identity
  interval_cases sub <;> split_ifs <;> simp_all

theorem identity_le {target address : LssAddress} {sub : Nat} (subLt : sub < 4)
    (least : target ≤ address) (agrees : sub ≤ matched target address) :
    (target.identity sub).toNat ≤ (address.identity sub).toNat := by
  simp only [le_iff, ← UInt32.toNat_inj] at least
  simp only [matched, ne_eq, ← UInt32.toNat_inj] at agrees
  unfold identity
  interval_cases sub <;> split_ifs at agrees <;> simp <;> omega

end LssAddress

/-! ## Slaves during a scan -/

namespace LssSlave

def Participates (slave : LssSlave) : Prop :=
  slave.nodeId = unconfiguredNodeId ∧ slave.state = .waiting

instance (slave : LssSlave) : Decidable slave.Participates := by
  unfold Participates
  infer_instance

def progress (target : LssAddress) (sub : Nat) (slave : LssSlave) : LssSlave :=
  if slave.Participates then
    { slave with fsSub := UInt8.ofNat (min (target.matched slave.address) sub) }
  else slave

def settle (target : LssAddress) (slave : LssSlave) : LssSlave :=
  if slave.Participates ∧ slave.address = target then
    { slave with state := .configuration, fsSub := 3 }
  else slave.progress target 3

def identifyIf (condition : Prop) [Decidable condition] : Option LssFrame :=
  if condition then some (frame csIdentifySlave) else none

theorem isSome_identifyIf (condition : Prop) [Decidable condition] :
    (identifyIf condition).isSome = decide condition := by
  unfold identifyIf
  split <;> simp_all

private theorem handle_fastscan_eq (slave : LssSlave) (idNumber : UInt32)
    (bitCheck lssSub lssNext : UInt8) :
    slave.handle (encodeFastscan idNumber bitCheck lssSub lssNext) =
      slave.handleFastscan (encodeFastscan idNumber bitCheck lssSub lssNext) :=
  slave.handle_of_fastscan (encodeFastscan_fields idNumber bitCheck lssSub lssNext).1

theorem progress_of_not (target : LssAddress) (sub : Nat) {slave : LssSlave}
    (absent : ¬ slave.Participates) : slave.progress target sub = slave := by
  rw [progress, if_neg absent]

private theorem handleFastscan_of_not {slave : LssSlave} (absent : ¬ slave.Participates)
    (req : LssFrame) : slave.handleFastscan req = pure (slave, none) := by
  rw [handleFastscan, if_pos]
  rwa [Participates, not_and_or] at absent

theorem handle_init (target : LssAddress) (slave : LssSlave) :
    slave.handle (encodeFastscan 0 fastscanInit 0 0) =
      pure (slave.progress target 0, identifyIf slave.Participates) := by
  rw [handle_fastscan_eq]
  rcases encodeFastscan_fields 0 fastscanInit 0 0 with ⟨_, _, bitCheck, _⟩
  by_cases participates : slave.Participates
  · have quiet : ¬ (slave.nodeId ≠ unconfiguredNodeId ∨ slave.state ≠ .waiting) := by
      rw [Participates] at participates
      simp [participates]
    rw [handleFastscan, if_neg quiet]
    simp only [bitCheck]
    rw [if_pos (by decide)]
    simp [progress, participates, identifyIf]
  · rw [handleFastscan_of_not participates, progress_of_not _ _ participates]
    simp [identifyIf, participates]

private theorem bitCheck_fields : ∀ left : Fin 32,
    ¬ fastscanInit ≤ UInt8.ofNat left ∧ (UInt8.ofNat left).toNat = left := by
  decide

def advance (slave : LssSlave) (bitCheck lssSub lssNext : UInt8) : LssSlave :=
  if bitCheck = 0 ∧ lssNext ≠ lssSub then
    if 3 ≤ lssSub then { slave with state := .configuration }
    else { slave with fsSub := lssNext }
  else slave

/-- A slave under scan answers exactly when it is asked about the value it has
reached and agrees with the candidate in every bit that is checked. -/
private theorem handleFastscan_eq {slave : LssSlave} (participates : slave.Participates)
    (idNumber : UInt32) {left : Nat} (leftLt : left < 32) (lssSub lssNext : UInt8) :
    slave.handleFastscan (encodeFastscan idNumber (UInt8.ofNat left) lssSub lssNext) =
      pure (if slave.fsSub = lssSub ∧
          idNumber.toNat / 2 ^ left = (slave.identity lssSub).toNat / 2 ^ left then
        (slave.advance (UInt8.ofNat left) lssSub lssNext, some (frame csIdentifySlave))
      else (slave, none)) := by
  rcases encodeFastscan_fields idNumber (UInt8.ofNat left) lssSub lssNext with
    ⟨_, word, bitCheck, sub, next⟩
  rcases bitCheck_fields ⟨left, leftLt⟩ with ⟨notInit, amount⟩
  have quiet : ¬ (slave.nodeId ≠ unconfiguredNodeId ∨ slave.state ≠ .waiting) := by
    rw [Participates] at participates
    simp [participates]
  have checked := BitSearch.masked_eq_zero_iff idNumber (slave.identity lssSub) leftLt
  rw [handleFastscan, if_neg quiet]
  simp only [word, bitCheck, sub, next]
  rw [if_neg notInit]
  by_cases reached : slave.fsSub = lssSub
  · rw [if_neg (not_not_intro reached.symm), amount, Exec.shiftLeft_of_lt _ leftLt,
      pure_bind]
    by_cases agrees : idNumber.toNat / 2 ^ left = (slave.identity lssSub).toNat / 2 ^ left
    · refine Eq.trans ?_ (congrArg pure (if_pos ⟨reached, agrees⟩).symm)
      rw [if_neg (not_not_intro (checked.mpr agrees)), advance]
      split
      · split <;> rfl
      · rfl
    · rw [if_pos (fun zero => agrees (checked.mp zero)),
        if_neg (fun both => agrees both.2)]
  · rw [if_pos (fun equal => reached equal.symm), if_neg (fun both => reached both.1)]

private theorem ofNat_eq_iff : ∀ reached sub : Fin 5,
    UInt8.ofNat (min reached sub) = UInt8.ofNat sub ↔ sub ≤ reached := by
  decide

private theorem progress_fields (target : LssAddress) {slave : LssSlave}
    (participates : slave.Participates) {sub : Nat} (subLt : sub < 4) :
    (slave.progress target sub).Participates ∧
      ((slave.progress target sub).fsSub = UInt8.ofNat sub ↔
        sub ≤ target.matched slave.address) ∧
      (slave.progress target sub).identity (UInt8.ofNat sub) =
        slave.address.identity sub := by
  have subNat : (UInt8.ofNat sub).toNat = sub := by
    simp
    omega
  rw [progress, if_pos participates]
  refine ⟨participates, ?_, by rw [LssSlave.identity, subNat]⟩
  exact ofNat_eq_iff ⟨target.matched slave.address,
    Nat.lt_succ_of_le (LssAddress.matched_le _ _)⟩ ⟨sub, by omega⟩

/-- Probing a bit changes no slave, and draws an answer from those whose earlier
values agree with `target` and whose next one agrees with the candidate. -/
theorem handle_probe (target : LssAddress) (slave : LssSlave) (idNumber : UInt32)
    {sub left : Nat} (subLt : sub < 4) (leftLt : left < 32) :
    (slave.progress target sub).handle
        (encodeFastscan idNumber (UInt8.ofNat left) (UInt8.ofNat sub) (UInt8.ofNat sub)) =
      pure (slave.progress target sub, identifyIf (slave.Participates ∧
        sub ≤ target.matched slave.address ∧
        idNumber.toNat / 2 ^ left = (slave.address.identity sub).toNat / 2 ^ left)) := by
  rw [handle_fastscan_eq]
  by_cases participates : slave.Participates
  · rcases progress_fields target participates subLt with ⟨takesPart, reached, identity⟩
    have still : (slave.progress target sub).advance (UInt8.ofNat left) (UInt8.ofNat sub)
        (UInt8.ofNat sub) = slave.progress target sub := by
      simp [advance]
    rw [handleFastscan_eq takesPart idNumber leftLt, identity, still]
    simp only [reached, identifyIf, participates, true_and]
    split <;> rfl
  · rw [progress_of_not _ _ participates, handleFastscan_of_not participates]
    simp [identifyIf, participates]

private theorem next_fields : ∀ sub : Fin 4,
    (UInt8.ofNat sub + 1) &&& 3 ≠ UInt8.ofNat sub ∧
      (3 ≤ UInt8.ofNat sub ↔ (sub : Nat) = 3) ∧
      ((sub : Nat) ≠ 3 → (UInt8.ofNat sub + 1) &&& 3 = UInt8.ofNat (sub + 1)) := by
  decide

def confirmed (target : LssAddress) (sub : Nat) (slave : LssSlave) : LssSlave :=
  if sub = 3 then slave.settle target else slave.progress target (sub + 1)

private theorem confirmed_of_agrees (target : LssAddress) {slave : LssSlave}
    (participates : slave.Participates) {sub : Nat} (subLt : sub < 4)
    (agrees : sub + 1 ≤ target.matched slave.address) :
    slave.confirmed target sub =
      (slave.progress target sub).advance 0 (UInt8.ofNat sub)
        ((UInt8.ofNat sub + 1) &&& 3) := by
  rcases next_fields ⟨sub, subLt⟩ with ⟨changes, lastIff, nextEq⟩
  have bound := LssAddress.matched_le target slave.address
  have minBefore : min (target.matched slave.address) sub = sub := by omega
  have minAfter : min (target.matched slave.address) (sub + 1) = sub + 1 := by omega
  rw [advance, if_pos ⟨rfl, changes⟩, confirmed]
  by_cases last : sub = 3
  · have same : slave.address = target := LssAddress.matched_eq_four_iff.mp (by omega)
    rw [if_pos last, if_pos (lastIff.mpr last), settle, if_pos ⟨participates, same⟩,
      progress, if_pos participates, minBefore, last]
    rfl
  · rw [if_neg last, if_neg (fun three => last (lastIff.mp three)), nextEq last, progress,
      if_pos participates, progress, if_pos participates, minAfter]

private theorem confirmed_of_differs (target : LssAddress) {slave : LssSlave}
    (participates : slave.Participates) {sub : Nat}
    (differs : target.matched slave.address ≤ sub) :
    slave.confirmed target sub = slave.progress target sub := by
  have minBefore : min (target.matched slave.address) sub =
      min (target.matched slave.address) (sub + 1) := by
    omega
  rw [confirmed]
  split
  · next last =>
      have different : slave.address ≠ target := fun same => by
        have four := LssAddress.matched_eq_four_iff.mpr same
        omega
      rw [settle, if_neg (fun both => different both.2), last]
  · rw [progress, progress, if_pos participates, minBefore, if_pos participates]

theorem handle_confirm (target : LssAddress) (slave : LssSlave) {sub : Nat}
    (subLt : sub < 4) :
    (slave.progress target sub).handle
        (encodeFastscan (target.identity sub) 0 (UInt8.ofNat sub)
          ((UInt8.ofNat sub + 1) &&& 3)) =
      pure (slave.confirmed target sub, identifyIf (slave.Participates ∧
        sub + 1 ≤ target.matched slave.address)) := by
  rw [handle_fastscan_eq]
  by_cases participates : slave.Participates
  · rcases progress_fields target participates subLt with ⟨takesPart, reached, identity⟩
    have closed := handleFastscan_eq takesPart (target.identity sub)
      (show 0 < 32 by decide) (UInt8.ofNat sub) ((UInt8.ofNat sub + 1) &&& 3)
    simp only [identity, reached] at closed
    have agreeIff : sub ≤ target.matched slave.address ∧
        (target.identity sub).toNat / 2 ^ 0 = (slave.address.identity sub).toNat / 2 ^ 0 ↔
        sub + 1 ≤ target.matched slave.address := by
      rw [LssAddress.succ_le_matched_iff subLt, Nat.pow_zero, Nat.div_one, Nat.div_one,
        UInt32.toNat_inj, @eq_comm _ (target.identity sub)]
    have zero : UInt8.ofNat 0 = 0 := rfl
    simp only [agreeIff, zero] at closed
    rw [closed]
    by_cases agrees : sub + 1 ≤ target.matched slave.address
    · simp only [agrees, if_true, identifyIf, participates, and_self,
        confirmed_of_agrees target participates subLt agrees]
    · simp only [agrees, if_false, identifyIf, and_false,
        confirmed_of_differs target participates (Nat.lt_succ_iff.mp (Nat.not_le.mp agrees))]
  · rw [progress_of_not _ _ participates, handleFastscan_of_not participates]
    simp [confirmed, settle, participates, progress_of_not, identifyIf]

end LssSlave

/-! ## The stages of a scan -/

structure Least (slaves : List LssSlave) (target : LssAddress) : Prop where
  attained : ∃ slave ∈ slaves, slave.Participates ∧ slave.address = target
  le : ∀ slave ∈ slaves, slave.Participates → target ≤ slave.address

theorem exists_least {slaves : List LssSlave}
    (participant : ∃ slave ∈ slaves, slave.Participates) : ∃ target, Least slaves target := by
  let present := (slaves.filter fun slave => slave.Participates).map LssSlave.address
  have nonempty : present.toFinset.Nonempty := by
    rcases participant with ⟨slave, member, participates⟩
    refine ⟨slave.address, ?_⟩
    simp only [present, List.mem_toFinset, List.mem_map, List.mem_filter]
    exact ⟨slave, ⟨member, by simpa using participates⟩, rfl⟩
  rcases Finset.exists_min_image present.toFinset id nonempty with ⟨target, attained, least⟩
  simp only [present, List.mem_toFinset, List.mem_map, List.mem_filter] at attained least
  rcases attained with ⟨slave, ⟨member, participates⟩, rfl⟩
  refine ⟨slave.address, ⟨slave, member, by simpa using participates, rfl⟩, ?_⟩
  intro other otherMember otherParticipates
  exact least _ ⟨other, ⟨otherMember, by simpa using otherParticipates⟩, rfl⟩

/-- The identity values when `sub` of them are confirmed and `left` bits of the
next one are not yet known. -/
def ids (target : LssAddress) (sub left : Nat) : Vector UInt32 4 :=
  Vector.ofFn fun position =>
    if position.val < sub then target.identity position
    else if position.val = sub then
      UInt32.ofNat (BitSearch.truncate (target.identity position).toNat left)
    else 0

theorem ids_getElem (target : LssAddress) {sub : Nat} (subLt : sub < 4) (left : Nat) :
    (ids target sub left)[sub] =
      UInt32.ofNat (BitSearch.truncate (target.identity sub).toNat left) := by
  simp [ids]

theorem ids_init (target : LssAddress) : ids target 0 32 = Vector.replicate 4 0 := by
  apply Vector.ext
  intro position within
  have none_ := BitSearch.truncate_of_lt (target.identity position).toNat_lt
  simp only [ids, Vector.getElem_ofFn, Vector.getElem_replicate, Nat.not_lt_zero, if_false]
  split
  · rw [none_]
    rfl
  · rfl

theorem ids_succ (target : LssAddress) (sub : Nat) :
    ids target sub 0 = ids target (sub + 1) 32 := by
  apply Vector.ext
  intro position within
  have none_ := BitSearch.truncate_of_lt (target.identity position).toNat_lt
  simp only [ids, Vector.getElem_ofFn, BitSearch.truncate_zero, none_]
  by_cases before : position < sub
  · simp [before, Nat.lt_succ_of_lt before]
  · by_cases here : position = sub
    · simp [here]
    · have after : ¬ position < sub + 1 := by omega
      simp [before, here, after]

theorem ids_set (target : LssAddress) {sub left : Nat} (subLt : sub < 4) {value : UInt32}
    (next : value = UInt32.ofNat (BitSearch.truncate (target.identity sub).toNat left)) :
    (ids target sub (left + 1)).set sub value = ids target sub left := by
  apply Vector.ext
  intro position within
  rw [Vector.getElem_set]
  by_cases here : sub = position
  · subst here
    rw [if_pos rfl, ids_getElem target within, next]
  · have different : ¬ position = sub := fun equal => here equal.symm
    simp [here, ids, different]

namespace Scan

/-- The scan of `slaves` when `sub` values of `target` are confirmed and `left`
bits of the next one are not yet known. -/
def stage (slaves : List LssSlave) (target : LssAddress) (sub left : Nat) : Scan :=
  ⟨⟨ids target sub left, UInt8.ofNat sub, FastscanMaster.bitAt left, true⟩,
    slaves.map (LssSlave.progress target sub)⟩

def discovered (slaves : List LssSlave) (target : LssAddress) : Scan :=
  ⟨⟨ids target 4 32, 4, 31, true⟩, slaves.map (LssSlave.settle target)⟩

def candidates (slaves : List LssSlave) (target : LssAddress) (sub : Nat) : Set Nat :=
  { number | ∃ slave ∈ slaves, slave.Participates ∧ sub ≤ target.matched slave.address ∧
    (slave.address.identity sub).toNat = number }

theorem isLeast_candidates {slaves : List LssSlave} {target : LssAddress}
    (least : Least slaves target) {sub : Nat} (subLt : sub < 4) :
    IsLeast (candidates slaves target sub) (target.identity sub).toNat := by
  constructor
  · rcases least.attained with ⟨slave, member, participates, rfl⟩
    have four := LssAddress.matched_eq_four_iff.mpr (rfl : slave.address = slave.address)
    exact ⟨slave, member, participates, by omega, rfl⟩
  · rintro number ⟨slave, member, participates, agrees, rfl⟩
    exact LssAddress.identity_le subLt (least.le slave member participates) agrees

theorem step_init {slaves : List LssSlave} {target : LssAddress}
    (least : Least slaves target) :
    step ⟨.new, slaves⟩ = pure (some (stage slaves target 0 32)) := by
  have answered : (slaves.any fun slave =>
      (LssSlave.identifyIf slave.Participates).isSome) = true := by
    rcases least.attained with ⟨slave, member, participates, _⟩
    rw [List.any_eq_true]
    exact ⟨slave, member, by rw [LssSlave.isSome_identifyIf]; simpa using participates⟩
  have advanced : FastscanMaster.onResponse .new true =
      pure ⟨ids target 0 32, UInt8.ofNat 0, FastscanMaster.bitAt 32, true⟩ := by
    rw [ids_init]
    rfl
  have stepped := step_of_next slaves id (show FastscanMaster.nextRequest .new = _ from rfl)
    (fun slave _ => LssSlave.handle_init target slave) (by rw [answered]; exact advanced)
  rwa [List.map_id] at stepped

theorem step_init_of_none {slaves : List LssSlave}
    (absent : ∀ slave ∈ slaves, ¬ slave.Participates) :
    step ⟨.new, slaves⟩ = pure (some ⟨{ FastscanMaster.new with sub := 4 }, slaves⟩) := by
  have silent : (slaves.any fun slave =>
      (LssSlave.identifyIf slave.Participates).isSome) = false := by
    rw [List.any_eq_false]
    intro slave member
    rw [LssSlave.isSome_identifyIf]
    simpa using absent slave member
  have advanced : FastscanMaster.onResponse .new false =
      pure { FastscanMaster.new with sub := 4 } := rfl
  have handled : ∀ slave ∈ slaves, (id slave).handle (encodeFastscan 0 fastscanInit 0 0) =
      pure (id slave, LssSlave.identifyIf slave.Participates) := by
    intro slave member
    have init := LssSlave.handle_init slave.address slave
    rwa [LssSlave.progress_of_not _ _ (absent slave member)] at init
  have stepped := step_of_next slaves id (show FastscanMaster.nextRequest .new = _ from rfl)
    handled (by rw [silent]; exact advanced)
  rwa [List.map_id] at stepped

theorem step_probe {slaves : List LssSlave} {target : LssAddress}
    (least : Least slaves target) {sub left : Nat} (subLt : sub < 4) (leftLt : left < 32) :
    step (stage slaves target sub (left + 1)) = pure (some (stage slaves target sub left)) := by
  let found := BitSearch.truncate (target.identity sub).toNat (left + 1)
  let master := (stage slaves target sub (left + 1)).master
  have idAt : master.id[sub] = UInt32.ofNat found := ids_getElem target subLt (left + 1)
  have foundNat : (UInt32.ofNat found).toNat = found := by
    have bound := lt_of_le_of_lt (BitSearch.truncate_le _ (left + 1))
      (target.identity sub).toNat_lt
    simpa using bound
  have requests : master.nextRequest = pure (some (encodeFastscan (UInt32.ofNat found)
      (UInt8.ofNat left) (UInt8.ofNat sub) (UInt8.ofNat sub))) := by
    rw [← idAt]
    exact FastscanMaster.nextRequest_probe rfl subLt rfl leftLt
  let answers (slave : LssSlave) : Prop := slave.Participates ∧
    sub ≤ target.matched slave.address ∧
    (UInt32.ofNat found).toNat / 2 ^ left = (slave.address.identity sub).toNat / 2 ^ left
  let responded := slaves.any fun slave => (LssSlave.identifyIf (answers slave)).isSome
  have respondedIff : responded = true ↔
      BitSearch.truncate (target.identity sub).toNat left = found := by
    rw [← BitSearch.answered_iff (isLeast_candidates least subLt) rfl]
    simp only [responded, answers, List.any_eq_true, LssSlave.isSome_identifyIf,
      decide_eq_true_eq, foundNat, candidates, Set.mem_ofPred_eq]
    constructor
    · rintro ⟨slave, member, participates, agrees, equal⟩
      exact ⟨_, ⟨slave, member, participates, agrees, rfl⟩, equal.symm⟩
    · rintro ⟨_, ⟨slave, member, participates, agrees, rfl⟩, equal⟩
      exact ⟨slave, member, participates, agrees, equal.symm⟩
  refine step_of_next slaves _ requests
    (fun slave _ => LssSlave.handle_probe target slave (UInt32.ofNat found) subLt leftLt) ?_
  show master.onResponse responded = _
  rw [FastscanMaster.onResponse_probe responded rfl subLt rfl leftLt, idAt]
  have next : (if responded = true then master.id
      else master.id.set sub (UInt32.ofNat found ||| (1 <<< UInt32.ofNat left))) =
      ids target sub left := by
    by_cases answered : responded = true
    · have same := respondedIff.mp answered
      have unchanged : master.id.set sub master.id[sub] = master.id := Vector.set_getElem_self subLt
      rw [if_pos answered, ← unchanged, idAt]
      exact ids_set target subLt (by rw [same])
    · have different := fun same => answered (respondedIff.mpr same)
      rw [if_neg answered, BitSearch.ofNat_or_bit leftLt]
      exact ids_set target subLt (by rw [BitSearch.truncate_eq_or rfl different])
  rw [next]
  rfl

theorem steps_probe {slaves : List LssSlave} {target : LssAddress}
    (least : Least slaves target) {sub : Nat} (subLt : sub < 4) (left : Nat)
    (leftLe : left ≤ 32) :
    Loop.Steps step (stage slaves target sub left) left (stage slaves target sub 0) := by
  induction left with
  | zero => exact .refl _
  | succ left induction =>
      exact .next (step_probe least subLt (by omega)) (induction (by omega))

private theorem nextRequest_stage_confirm (slaves : List LssSlave) (target : LssAddress)
    {sub : Nat} (subLt : sub < 4) :
    (stage slaves target sub 0).master.nextRequest =
      pure (some (encodeFastscan (target.identity sub) 0 (UInt8.ofNat sub)
        ((UInt8.ofNat sub + 1) &&& 3))) := by
  have idAt : (stage slaves target sub 0).master.id[sub] = target.identity sub := by
    have whole := ids_getElem target subLt 0
    rw [BitSearch.truncate_zero, UInt32.ofNat_toNat] at whole
    exact whole
  rw [← idAt]
  exact FastscanMaster.nextRequest_confirm rfl subLt rfl

theorem step_confirm (slaves : List LssSlave) (target : LssAddress) {sub : Nat}
    (subLt : sub < 3) :
    step (stage slaves target sub 0) = pure (some (stage slaves target (sub + 1) 32)) := by
  have notLast : ¬ sub = 3 := by omega
  have handled : ∀ slave ∈ slaves, (slave.progress target sub).handle _ =
      pure (slave.progress target (sub + 1), _) := fun slave _ => by
    have confirm := LssSlave.handle_confirm target slave (show sub < 4 by omega)
    rwa [LssSlave.confirmed, if_neg notLast] at confirm
  refine step_of_next slaves _ (nextRequest_stage_confirm slaves target (by omega)) handled ?_
  rw [FastscanMaster.onResponse_confirm _ rfl (show sub < 4 by omega) rfl, ← ids_succ]

theorem step_confirm_last (slaves : List LssSlave) (target : LssAddress) :
    step (stage slaves target 3 0) = pure (some (discovered slaves target)) := by
  refine step_of_next slaves _ (nextRequest_stage_confirm slaves target (by decide))
    (fun slave _ => LssSlave.handle_confirm target slave (by decide)) ?_
  rw [FastscanMaster.onResponse_confirm _ rfl (show 3 < 4 by decide) rfl, ← ids_succ]
  rfl

theorem ends_discovered {slaves : List LssSlave} {target : LssAddress}
    (least : Least slaves target) :
    Loop.Ends step ⟨.new, slaves⟩ 133 (discovered slaves target) := by
  have value : ∀ sub, sub < 3 → Loop.Steps step (stage slaves target sub 32) 33
      (stage slaves target (sub + 1) 32) := fun sub subLt =>
    (steps_probe least (by omega) 32 (Nat.le_refl _)).trans
      (.one (step_confirm slaves target subLt))
  have last : Loop.Steps step (stage slaves target 3 32) 33 (discovered slaves target) :=
    (steps_probe least (by decide) 32 (Nat.le_refl _)).trans
      (.one (step_confirm_last slaves target))
  have all := (Loop.Steps.one (step_init least)).trans
    ((value 0 (by decide)).trans ((value 1 (by decide)).trans
      ((value 2 (by decide)).trans last)))
  exact all.ends (Loop.ends_of_done (step_of_complete rfl))

theorem ends_of_none {slaves : List LssSlave}
    (absent : ∀ slave ∈ slaves, ¬ slave.Participates) :
    Loop.Ends step ⟨.new, slaves⟩ 1 ⟨{ FastscanMaster.new with sub := 4 }, slaves⟩ :=
  (Loop.Steps.one (step_init_of_none absent)).ends
    (Loop.ends_of_done (step_of_complete rfl))

theorem discovered_address (slaves : List LssSlave) (target : LssAddress) :
    (discovered slaves target).master.address = target := by
  simp [discovered, FastscanMaster.address, ids, LssAddress.identity]

end Scan

/-! ## The whole scan -/

/-- What a scan leaves of a slave: all but its state, which changes exactly when
it takes part and its address is the one discovered. -/
structure AfterScan (found : LssAddress) (before after : LssSlave) : Prop where
  address : after.address = before.address
  nodeId : after.nodeId = before.nodeId
  pendingNodeId : after.pendingNodeId = before.pendingNodeId
  state : after.state =
    if before.Participates ∧ before.address = found then .configuration else before.state

theorem LssSlave.afterScan_settle (target : LssAddress) (slave : LssSlave) :
    AfterScan target slave (slave.settle target) := by
  by_cases found : slave.Participates ∧ slave.address = target
  · rw [LssSlave.settle, if_pos found]
    exact ⟨rfl, rfl, rfl, by rw [if_pos found]⟩
  · rw [LssSlave.settle, if_neg found, LssSlave.progress]
    split <;> exact ⟨rfl, rfl, rfl, by rw [if_neg found]⟩

/-- Every scan ends. If no slave takes part it ends after one request with
nothing found; otherwise it finds the least address of the slaves that take
part, and switches exactly the slaves of that address to configuration. -/
theorem fastscan_converges (slaves : List LssSlave) :
    ∃ requests final, Loop.Ends Scan.step ⟨.new, slaves⟩ requests final ∧
      ((∀ slave ∈ slaves, ¬ slave.Participates) →
        requests = 1 ∧ final.master.found = false ∧ final.slaves = slaves) ∧
      ((∃ slave ∈ slaves, slave.Participates) →
        final.master.found = true ∧ final.master.isComplete = true ∧
        (∃ slave ∈ slaves, slave.Participates ∧ slave.address = final.master.address) ∧
        (∀ slave ∈ slaves, slave.Participates → final.master.address ≤ slave.address) ∧
        List.Forall₂ (AfterScan final.master.address) slaves final.slaves) := by
  by_cases participant : ∃ slave ∈ slaves, slave.Participates
  · rcases exists_least participant with ⟨target, least⟩
    refine ⟨133, _, Scan.ends_discovered least, ?_, fun _ => ?_⟩
    · rintro absent
      rcases participant with ⟨slave, member, participates⟩
      exact absurd participates (absent slave member)
    · rw [Scan.discovered_address]
      refine ⟨rfl, rfl, least.attained, least.le, ?_⟩
      exact List.forall₂_map_right_iff.mpr
        (List.forall₂_same.mpr fun slave _ => slave.afterScan_settle target)
  · push Not at participant
    refine ⟨1, _, Scan.ends_of_none participant, fun _ => ⟨rfl, rfl, rfl⟩, ?_⟩
    rintro ⟨slave, member, participates⟩
    exact absurd participates (participant slave member)

end CanOpen.Lss
