import CanOpen.Node.PdoParameters
import CanOpen.Node.Receive
import CanOpen.Pdo.Acceptance

/-! # What a node transmits of its PDOs

A node keeps its transmit PDOs in a list, and transmits each by its place there and, if it is a
synchronous one, after every SYNC.
-/

namespace CanOpen

variable {N : Nat}

/-! ## The frame of a transmit PDO -/

/-- Objects are mapped, and all of them can be read as they are mapped. -/
structure Packs (od : ObjectDictionary N) (mapping : PdoMapping maxPdoMapping) : Prop where
  mapped : mapping.isEmpty = false
  readable : ∀ entry ∈ mapping.entries.toList, Transferable AccessType.isReadable od entry

namespace Node

theorem buildTpdo_outcome (node : Node N) (slot : TpdoSlot) :
    ∃ result, node.buildTpdo slot = pure result ∧
      (result.isSome = true ↔ Packs node.od slot.mapping) ∧
      ∀ frame, result = some frame → frame.cobId = slot.cobId := by
  unfold buildTpdo
  split
  · next empty =>
      refine ⟨none, rfl, ?_, by simp⟩
      constructor
      · intro some_
        cases some_
      · rintro ⟨mapped, -⟩
        exact absurd empty (Bool.eq_false_iff.mp mapped)
  · next mapped =>
      rcases (pack_unpack_accept slot.mapping node.od (Vector.replicate 8 0) []).1 with
        ⟨result, packed, packs, accepts, -⟩
      rcases pack_returns slot.mapping node.od (Vector.replicate 8 0) with
        ⟨_, _, returns, within⟩
      cases packs.symm.trans returns
      have packable : (∃ len, result = .ok len) ↔ Packs node.od slot.mapping := by
        rw [accepts]
        exact ⟨fun accepted => ⟨Bool.eq_false_iff.mpr mapped, accepted.2⟩,
          fun packs => ⟨slot.mapping.totalBytes_le, packs.readable⟩⟩
      rw [packs, pure_bind, ← packable]
      cases result with
      | error error => exact ⟨none, rfl, by simp, by simp⟩
      | ok len =>
          have slice := Exec.slice_of_le packed.toList (Nat.zero_le len)
            (by simpa using within len rfl)
          rcases TxFrame.new_returns slot.cobId ((packed.toList.take len).drop 0) with
            ⟨frame, built, sameId, -⟩
          refine ⟨some frame, by simp only [slice, pure_bind, built], by simp, ?_⟩
          rintro _ ⟨⟩
          exact sameId

/-! ## The number of a transmit PDO -/

/-- The records of TPDO `n` are valid. -/
def IsDescribed (od : ObjectDictionary N) (n : UInt16) : Prop := ∃ slot, DescribesTpdo od n slot

instance (od : ObjectDictionary N) : DecidablePred (IsDescribed od) := fun n =>
  decidable_of_iff ((CanOpen.buildTpdo od n).isSome = true) (by
    simp only [IsDescribed, Option.isSome_iff_exists, buildTpdo_eq_some_iff])

/-- The number of transmit PDOs that the records in front of those of TPDO `n` describe. -/
def describedBefore (od : ObjectDictionary N) (n : UInt16) : Nat :=
  (pdoNumbers.take n.toNat).countP fun m => IsDescribed od m

theorem getElem?_pdoNumbers_iff {place : Nat} {n : UInt16} :
    pdoNumbers[place]? = some n ↔ n ∈ pdoNumbers ∧ place = n.toNat := by
  rw [pdoNumbers, List.getElem?_map, Option.map_eq_some_iff]
  constructor
  · rintro ⟨number, isNumber, rfl⟩
    rcases List.getElem?_eq_some_iff.mp isNumber with ⟨within, same⟩
    rw [List.length_range] at within
    rw [List.getElem_range] at same
    subst same
    have small : place < 4 := within
    refine ⟨List.mem_map.mpr ⟨place, List.mem_range.mpr within, rfl⟩, ?_⟩
    rw [UInt16.toNat_ofNat', Nat.mod_eq_of_lt (by omega)]
  · rintro ⟨member, rfl⟩
    have small := toNat_lt_of_mem_pdoNumbers member
    refine ⟨n.toNat, ?_, UInt16.ofNat_toNat⟩
    rw [List.getElem?_eq_getElem (by simpa using small), List.getElem_range]

theorem describedBefore_eq (od : ObjectDictionary N) (n : UInt16) :
    describedBefore od n =
      (pdoNumbers.take n.toNat).countP fun m => (CanOpen.buildTpdo od m).isSome := by
  refine List.countP_congr fun m _ => ?_
  rw [decide_eq_true_iff, Option.isSome_iff_exists]
  exact exists_congr fun _ => buildTpdo_eq_some_iff.symm

/-- Place `position` of the configured transmit PDOs is taken by the one that as many described
ones precede. -/
theorem getElem?_configured_tpdos_iff {node : Node N} {position : Nat} {slot : TpdoSlot} :
    node.configurePdosFromOd.tpdos.toList[position]? = some slot ↔
      ∃ m ∈ pdoNumbers, DescribesTpdo node.od m slot ∧ describedBefore node.od m = position := by
  rcases node.configurePdosFromOd_slots with ⟨rpdos, tpdos, configured, -, isTpdos⟩
  rw [configured, isTpdos, getElem?_filterMap_eq_some_iff]
  constructor
  · rintro ⟨place, m, isNumber, built, count⟩
    rcases getElem?_pdoNumbers_iff.mp isNumber with ⟨member, rfl⟩
    exact ⟨m, member, buildTpdo_eq_some_iff.mp built, (describedBefore_eq ..).trans count⟩
  · rintro ⟨m, member, describes, count⟩
    exact ⟨m.toNat, m, getElem?_pdoNumbers_iff.mpr ⟨member, rfl⟩,
      buildTpdo_eq_some_iff.mpr describes, (describedBefore_eq ..).symm.trans count⟩

theorem describedBefore_le (od : ObjectDictionary N) (n : UInt16) :
    describedBefore od n ≤ n.toNat :=
  List.countP_le_length.trans (List.length_take_le _ _)

/-- One more is described up to TPDO `n` than in front of it, if that is described. -/
theorem countP_through {od : ObjectDictionary N} {n : UInt16} (member : n ∈ pdoNumbers)
    (described : IsDescribed od n) :
    (pdoNumbers.take (n.toNat + 1)).countP (fun m => IsDescribed od m) =
      describedBefore od n + 1 := by
  have here : pdoNumbers[n.toNat]? = some n := getElem?_pdoNumbers_iff.mpr ⟨member, rfl⟩
  rw [List.take_add_one, here, List.countP_append, describedBefore]
  simp [described]

theorem describedBefore_of_all {od : ObjectDictionary N} {n : UInt16} (member : n ∈ pdoNumbers)
    (all : ∀ m ∈ pdoNumbers, m ≤ n → IsDescribed od m) :
    describedBefore od n = n.toNat := by
  have small := toNat_lt_of_mem_pdoNumbers member
  have whole : (pdoNumbers.take n.toNat).length = n.toNat := by
    rw [List.length_take]
    exact min_eq_left small.le
  rw [describedBefore, List.countP_eq_length.mpr, whole]
  intro m isEarlier
  rcases List.mem_iff_getElem?.mp isEarlier with ⟨place, isM⟩
  rw [List.getElem?_take, Option.ite_none_right_eq_some, getElem?_pdoNumbers_iff] at isM
  rcases isM with ⟨earlier, isNumber, rfl⟩
  rw [decide_eq_true_iff]
  exact all m isNumber (UInt16.le_iff_toNat_le.mpr earlier.le)

/-- Where the records up to those of TPDO `n` are all valid, or no more than `n` records are, only
TPDO `n` itself can be preceded by `n` described ones. -/
theorem eq_of_numbered {od : ObjectDictionary N} {n m : UInt16}
    (numbered : (∀ m ∈ pdoNumbers, m ≤ n → IsDescribed od m) ∨
      pdoNumbers.countP (fun m => IsDescribed od m) ≤ n.toNat)
    (member : m ∈ pdoNumbers) (described : IsDescribed od m)
    (count : describedBefore od m = n.toNat) : m = n := by
  have through := countP_through member described
  rcases numbered with all | few
  · have small := toNat_lt_of_mem_pdoNumbers member
    have fewer := describedBefore_le od m
    by_contra other
    have behind : n.toNat < m.toNat :=
      lt_of_le_of_ne (count ▸ fewer) fun same => other (UInt16.toNat_inj.mp same.symm)
    have isNumber : n ∈ pdoNumbers :=
      List.mem_map.mpr ⟨n.toNat, List.mem_range.mpr (behind.trans small), UInt16.ofNat_toNat⟩
    have before := countP_through isNumber (all n isNumber (UInt16.le_refl n))
    rw [describedBefore_of_all isNumber all] at before
    have most : (pdoNumbers.take (n.toNat + 1)).countP (fun m => IsDescribed od m) ≤
        (pdoNumbers.take m.toNat).countP fun m => IsDescribed od m :=
      (List.take_sublist_take_left behind).countP_le
    rw [describedBefore] at count
    omega
  · have most : (pdoNumbers.take (m.toNat + 1)).countP (fun m => IsDescribed od m) ≤
        pdoNumbers.countP fun m => IsDescribed od m :=
      (List.take_sublist (m.toNat + 1) pdoNumbers).countP_le
    omega

/-- What is transmitted as TPDO `n`, after configuring the PDOs from the dictionary, is
described by the records of TPDO `n`, and has their COB-ID. -/
def TransmitsOwn (node : Node N) (n : UInt16) : Prop :=
  ∀ frame, node.configurePdosFromOd.tpdo n.toNat = pure (some frame) →
    ∃ own, DescribesTpdo node.od n own ∧ frame.cobId = own.cobId

theorem transmitsOwn_of_alone {node : Node N} {n : UInt16}
    (alone : ∀ m ∈ pdoNumbers, ∀ slot, DescribesTpdo node.od m slot →
      describedBefore node.od m = n.toNat → Packs node.od slot.mapping →
        m = n ∨ ∃ own, DescribesTpdo node.od n own ∧ slot.cobId = own.cobId) :
    node.TransmitsOwn n := by
  intro frame transmitted
  rcases node.configurePdosFromOd_slots with ⟨rpdos, tpdos, configured, -, -⟩
  rw [tpdo] at transmitted
  split at transmitted
  · cases transmitted
  · split at transmitted
    · cases transmitted
    · next slot found =>
        rcases getElem?_configured_tpdos_iff.mp found with ⟨m, member, describes, count⟩
        rcases node.configurePdosFromOd.buildTpdo_outcome slot with
          ⟨result, built, some_, sameId⟩
        cases transmitted.symm.trans built
        rw [show node.configurePdosFromOd.od = node.od by rw [configured]] at some_
        rw [sameId frame rfl]
        rcases alone m member slot describes count (some_.mp rfl) with rfl | own
        · exact ⟨slot, describes, rfl⟩
        · exact own

/-- An operational node transmits as TPDO `n` what the records of TPDO `n` describe exactly if
every packable TPDO that `n` described ones precede is that one, or has its COB-ID. This is so
where the records up to those of TPDO `n` are all valid, or no more than `n` records are. -/
theorem tpdo_transmits_own_iff {node : Node N} (operational : node.state = .operational)
    (n : UInt16) :
    (node.TransmitsOwn n ↔
      ∀ m ∈ pdoNumbers, ∀ slot, DescribesTpdo node.od m slot →
        describedBefore node.od m = n.toNat → Packs node.od slot.mapping →
          m = n ∨ ∃ own, DescribesTpdo node.od n own ∧ slot.cobId = own.cobId) ∧
    ((∀ m ∈ pdoNumbers, m ≤ n → IsDescribed node.od m) ∨
        pdoNumbers.countP (fun m => IsDescribed node.od m) ≤ n.toNat →
      node.TransmitsOwn n) := by
  refine ⟨⟨?_, transmitsOwn_of_alone⟩, fun numbered =>
    transmitsOwn_of_alone fun m member slot describes count _ =>
      .inl (eq_of_numbered numbered member ⟨slot, describes⟩ count)⟩
  rcases node.configurePdosFromOd_slots with ⟨rpdos, tpdos, configured, -, -⟩
  have active : ¬ node.configurePdosFromOd.state ≠ .operational := by
    rw [configured]
    exact not_not.mpr operational
  have sameOd : node.configurePdosFromOd.od = node.od := by rw [configured]
  intro own m member slot describes count packs
  have found := getElem?_configured_tpdos_iff.mpr ⟨m, member, describes, count⟩
  rcases node.configurePdosFromOd.buildTpdo_outcome slot with ⟨result, built, some_, sameId⟩
  rw [sameOd] at some_
  rcases Option.isSome_iff_exists.mp (some_.mpr packs) with ⟨frame, rfl⟩
  have transmitted : node.configurePdosFromOd.tpdo n.toNat = pure (some frame) := by
    rw [tpdo, if_neg active, found]
    exact built
  rcases own frame transmitted with ⟨ownSlot, ownDescribed, ownId⟩
  exact .inr ⟨ownSlot, ownDescribed, (sameId frame rfl).symm.trans ownId⟩

/-- The records of TPDO 0 and of TPDO 1 describe one each. -/
theorem tpdo_transmits_own_iff_two :
    let od : ObjectDictionary 7 := ⟨[(⟨0x1800, 1⟩, ⟨.unsigned32 0x181, .rw⟩),
      (⟨0x1A00, 0⟩, ⟨.unsigned8 1, .rw⟩), (⟨0x1A00, 1⟩, ⟨.unsigned32 0x60000008, .rw⟩),
      (⟨0x1801, 1⟩, ⟨.unsigned32 0x281, .rw⟩), (⟨0x1A01, 0⟩, ⟨.unsigned8 1, .rw⟩),
      (⟨0x1A01, 1⟩, ⟨.unsigned32 0x60000008, .rw⟩), (⟨0x6000, 0⟩, ⟨.unsigned8 7, .ro⟩)],
      by decide, by decide⟩
    let node : Node 7 := { Node.new ⟨1, by decide⟩ od with nmt := ⟨.operational⟩ }
    node.TransmitsOwn 1 ∧
      ∀ m ∈ pdoNumbers, ∀ slot, DescribesTpdo od m slot →
        describedBefore od m = 1 → Packs od slot.mapping →
          m = 1 ∨ ∃ own, DescribesTpdo od 1 own ∧ slot.cobId = own.cobId := by
  intro od node
  have outcome := tpdo_transmits_own_iff (rfl : node.state = .operational) 1
  have described : ∀ m ∈ pdoNumbers, m ≤ 1 → IsDescribed od m := by
    intro m member low
    have numbers : m ∈ ([0, 1, 2, 3] : List UInt16) := member
    simp only [List.mem_cons, List.not_mem_nil, or_false] at numbers
    rcases numbers with rfl | rfl | rfl | rfl
    · decide
    · decide
    · exact absurd low (by decide)
    · exact absurd low (by decide)
  have own : node.TransmitsOwn 1 := outcome.2 (.inl described)
  exact ⟨own, outcome.1.mp own⟩

/-- The record of TPDO 0 has its COB-ID disabled. What the records of TPDO 1 describe is
transmitted as TPDO 0. -/
theorem tpdo_transmits_another :
    let od : ObjectDictionary 7 := ⟨[(⟨0x1800, 1⟩, ⟨.unsigned32 0x80000181, .rw⟩),
      (⟨0x1A00, 0⟩, ⟨.unsigned8 1, .rw⟩), (⟨0x1A00, 1⟩, ⟨.unsigned32 0x60000008, .rw⟩),
      (⟨0x1801, 1⟩, ⟨.unsigned32 0x281, .rw⟩), (⟨0x1A01, 0⟩, ⟨.unsigned8 1, .rw⟩),
      (⟨0x1A01, 1⟩, ⟨.unsigned32 0x60000008, .rw⟩), (⟨0x6000, 0⟩, ⟨.unsigned8 7, .ro⟩)],
      by decide, by decide⟩
    let node : Node 7 := { Node.new ⟨1, by decide⟩ od with nmt := ⟨.operational⟩ }
    node.configurePdosFromOd.tpdo 0 =
        pure (some ⟨0x281, #v[7, 0, 0, 0, 0, 0, 0, 0], 1, by decide⟩) ∧
      ¬ ∃ own, DescribesTpdo od 0 own := by
  refine ⟨by decide, ?_⟩
  rintro ⟨own, describes⟩
  cases (buildTpdo_eq_some_iff.mpr describes).symm.trans
    (rfl : CanOpen.buildTpdo _ 0 = none)

/-! ## Synchronous transmit PDOs -/

theorem foldlM_syncTpdos (node : Node N) (slots : List TpdoSlot)
    {frames : BoundedVec TxFrame maxPdos} (room : frames.toList.length + slots.length ≤ maxPdos) :
    ∃ collected, slots.foldlM (fun frames slot =>
        if isSynchronous slot.transmission then do
          let frame ← node.buildTpdo slot
          pure (pushSlot frames frame)
        else pure frames) frames = pure collected ∧
      ∀ frame, frame ∈ collected.toList ↔ frame ∈ frames.toList ∨
        ∃ slot ∈ slots, isSynchronous slot.transmission = true ∧
          node.buildTpdo slot = pure (some frame) := by
  induction slots generalizing frames with
  | nil => exact ⟨frames, rfl, by simp⟩
  | cons slot slots induction =>
      rw [List.length_cons] at room
      rw [List.foldlM_cons]
      by_cases synchronous : isSynchronous slot.transmission = true
      · rcases node.buildTpdo_outcome slot with ⟨result, built, -⟩
        have pushed := toList_pushSlot result (show frames.toList.length < maxPdos by omega)
        have one := result.length_toList_le
        rcases @induction (pushSlot frames result) (by
          rw [pushed, List.length_append]
          omega) with ⟨collected, folds, members⟩
        refine ⟨collected, ?_, fun frame => ?_⟩
        · rw [if_pos synchronous, built, pure_bind, pure_bind]
          exact folds
        · rw [members, pushed, List.mem_append, Option.mem_toList, List.exists_mem_cons_iff, built,
            Exec.pure_inj, or_assoc]
          simp only [synchronous, true_and]
      · rcases @induction frames (by omega) with ⟨collected, folds, members⟩
        refine ⟨collected, ?_, fun frame => ?_⟩
        · rw [if_neg synchronous, pure_bind]
          exact folds
        · rw [members, List.exists_mem_cons_iff]
          simp [synchronous]

theorem syncTpdos_collects {node : Node N} (operational : node.state = .operational) :
    ∃ frames, node.syncTpdos = pure frames ∧
      ∀ frame, frame ∈ frames.toList ↔
        ∃ slot ∈ node.tpdos.toList, isSynchronous slot.transmission = true ∧
          node.buildTpdo slot = pure (some frame) := by
  have room : (BoundedVec.new : BoundedVec TxFrame maxPdos).toList.length +
      node.tpdos.toList.length ≤ maxPdos := by
    rw [BoundedVec.toList_new, List.length_nil, Nat.zero_add]
    exact node.tpdos.length_le
  rcases node.foldlM_syncTpdos node.tpdos.toList room with ⟨frames, folds, members⟩
  refine ⟨frames, ?_, fun frame => ?_⟩
  · rw [syncTpdos, if_neg (not_not.mpr operational)]
    exact folds
  · rw [members, BoundedVec.toList_new]
    simp

def syncs (node : Node N) (count : Nat) : Exec (List (BoundedVec TxFrame maxPdos)) :=
  (List.range count).mapM fun _ => node.syncTpdos

/-- A cyclic transmit PDO that packs is transmitted after every SYNC, and so after every `n`-th
only if `n` is one or there is no SYNC. -/
theorem cyclic_tpdo_count_iff {node : Node N} (operational : node.state = .operational)
    {slot : TpdoSlot} (configured : slot ∈ node.tpdos.toList) {n : UInt8}
    (cyclic : slot.transmission = .synchronousCyclic n) (positive : 1 ≤ n)
    (packs : Packs node.od slot.mapping) (count : Nat) :
    ∃ frame answers, node.buildTpdo slot = pure (some frame) ∧
      node.syncs count = pure answers ∧ answers.length = count ∧
      (answers.countP (fun frames => frame ∈ frames.toList) = count / n.toNat ↔
        n = 1 ∨ count = 0) := by
  rcases node.buildTpdo_outcome slot with ⟨result, built, some_, -⟩
  rcases Option.isSome_iff_exists.mp (some_.mpr packs) with ⟨frame, rfl⟩
  rcases syncTpdos_collects operational with ⟨frames, returns, members⟩
  have synchronous : isSynchronous slot.transmission = true := by rw [cyclic]; rfl
  have always : frame ∈ frames.toList :=
    (members frame).mpr ⟨slot, configured, synchronous, built⟩
  have answered : node.syncs count = pure ((List.range count).map fun _ => frames) :=
    Exec.mapM_eq_pure fun _ _ => returns
  refine ⟨frame, _, built, answered, by simp, ?_⟩
  have all : ((List.range count).map fun _ => frames).countP
      (fun frames => frame ∈ frames.toList) = count := by
    rw [List.countP_map, List.countP_eq_length.mpr, List.length_range]
    intro _ _
    simpa using always
  have natPositive : 1 ≤ n.toNat := positive
  rw [all]
  constructor
  · intro divides
    by_cases one : n.toNat = 1
    · exact .inl (UInt8.toNat_inj.mp one)
    · by_cases none_ : count = 0
      · exact .inr none_
      · have fewer := Nat.div_lt_self (Nat.pos_of_ne_zero none_)
          (show 1 < n.toNat by omega)
        omega
  · rintro (rfl | rfl)
    · exact (Nat.div_one count).symm
    · exact (Nat.zero_div _).symm

/-- Five SYNCs, and a transmit PDO for every second of them. -/
theorem cyclic_tpdo_count_iff_second :
    let od : ObjectDictionary 1 := ⟨[(⟨0x6000, 0⟩, ⟨.unsigned8 7, .ro⟩)], by decide, by decide⟩
    let slot : TpdoSlot := ⟨0x181, ⟨⟨[⟨⟨0x6000, 0⟩, 8⟩], by decide⟩, by decide⟩,
      .synchronousCyclic 2⟩
    let node : Node 1 := { Node.new ⟨1, by decide⟩ od with
      nmt := ⟨.operational⟩, tpdos := ⟨[slot], by decide⟩ }
    ∃ frame answers, node.buildTpdo slot = pure (some frame) ∧
      node.syncs 5 = pure answers ∧ answers.length = 5 ∧
      (answers.countP (fun frames => frame ∈ frames.toList) = 5 / (2 : UInt8).toNat ↔
        (2 : UInt8) = 1 ∨ 5 = 0) := by
  intro od slot node
  apply cyclic_tpdo_count_iff (rfl : node.state = .operational) (List.mem_singleton_self slot) rfl
    (by decide)
  refine ⟨rfl, ?_⟩
  intro entry member
  rw [List.mem_singleton.mp member]
  exact ⟨1, ⟨.unsigned8 7, .ro⟩, by decide, by decide, rfl, rfl, rfl⟩

/-- A transmit PDO for every second SYNC is transmitted after the first one. -/
theorem cyclic_tpdo_too_early :
    let od : ObjectDictionary 1 := ⟨[(⟨0x6000, 0⟩, ⟨.unsigned8 7, .ro⟩)], by decide, by decide⟩
    let slot : TpdoSlot := ⟨0x181, ⟨⟨[⟨⟨0x6000, 0⟩, 8⟩], by decide⟩, by decide⟩,
      .synchronousCyclic 2⟩
    let node : Node 1 := { Node.new ⟨1, by decide⟩ od with
      nmt := ⟨.operational⟩, tpdos := ⟨[slot], by decide⟩ }
    ∃ frame answers, node.buildTpdo slot = pure (some frame) ∧ node.syncs 1 = pure answers ∧
      answers.countP (fun frames => frame ∈ frames.toList) ≠ 1 / (2 : UInt8).toNat := by
  refine ⟨⟨0x181, #v[7, 0, 0, 0, 0, 0, 0, 0], 1, by decide⟩,
    [⟨[⟨0x181, #v[7, 0, 0, 0, 0, 0, 0, 0], 1, by decide⟩], by decide⟩], ?_, ?_, ?_⟩ <;> decide

end Node

end CanOpen
