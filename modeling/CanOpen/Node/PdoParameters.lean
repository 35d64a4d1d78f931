import CanOpen.Foundation.Listing
import CanOpen.Node.Node

/-! # PDO configuration from the object dictionary

What the parameter records say of each PDO, apart from how a node reads them.
Configuring the PDOs from the dictionary adds what the records say, PDO by PDO.
-/

namespace CanOpen

variable {N : Nat}

/-! ## Parameter records -/

/-- The record at `commIndex` is in use and has `canId` in the low 11 bits of its
COB-ID, at sub 1. -/
def HasCanId (od : ObjectDictionary N) (commIndex canId : UInt16) : Prop :=
  ∃ cobId : UInt32, od.read ⟨commIndex, 1⟩ = .ok (.unsigned32 cobId) ∧
    cobId.toNat.testBit 31 = false ∧ canId.toNat = cobId.toNat % 2 ^ 11

def NamesTransmission (od : ObjectDictionary N) (commIndex : UInt16)
    (transmission : TransmissionType) : Prop :=
  ∃ byte, od.read ⟨commIndex, 2⟩ = .ok (.unsigned8 byte) ∧
    TransmissionType.fromByte byte = .ok transmission

/-- The transmission type that the record at `commIndex` names, with the one of the
device profile where it names none. -/
def HasTransmission (od : ObjectDictionary N) (commIndex : UInt16)
    (transmission : TransmissionType) : Prop :=
  NamesTransmission od commIndex transmission ∨
    (∀ named, ¬ NamesTransmission od commIndex named) ∧ transmission = .eventDrivenProfile

/-- The record at `mapIndex` stores the number of `values` at sub 0 and the values
behind it. -/
structure StoresValues (od : ObjectDictionary N) (mapIndex : UInt16) (values : List UInt32) :
    Prop where
  count : ∃ count : UInt8, od.read ⟨mapIndex, 0⟩ = .ok (.unsigned8 count) ∧
    count.toNat = values.length
  value : ∀ position value, values[position]? = some value →
    od.read ⟨mapIndex, UInt8.ofNat (position + 1)⟩ = .ok (.unsigned32 value)

/-- The record at `mapIndex` decodes to `mapping`, which has no more than eight entries
and 64 bits. -/
def HasMapping (od : ObjectDictionary N) (mapIndex : UInt16)
    (mapping : PdoMapping maxPdoMapping) : Prop :=
  ∃ values, StoresValues od mapIndex values ∧
    mapping.entries.toList = values.map MappingEntry.fromU32

structure DescribesRpdo (od : ObjectDictionary N) (n : UInt16) (slot : RpdoSlot) : Prop where
  canId : HasCanId od (0x1400 + n) slot.cobId
  mapping : HasMapping od (0x1600 + n) slot.mapping

structure DescribesTpdo (od : ObjectDictionary N) (n : UInt16) (slot : TpdoSlot) : Prop where
  canId : HasCanId od (0x1800 + n) slot.cobId
  transmission : HasTransmission od (0x1800 + n) slot.transmission
  mapping : HasMapping od (0x1A00 + n) slot.mapping

def pdoNumbers : List UInt16 := (List.range maxPdos).map UInt16.ofNat

/-! ## Reading them -/

theorem odU32_eq_some_iff {od : ObjectDictionary N} {index : UInt16} {sub : UInt8}
    {value : UInt32} :
    odU32 od index sub = some value ↔ od.read ⟨index, sub⟩ = .ok (.unsigned32 value) := by
  unfold odU32
  split
  · next found reads => simp [reads]
  · next other =>
      constructor
      · intro impossible
        cases impossible
      · intro reads
        exact (other value reads).elim

theorem odU8_eq_some_iff {od : ObjectDictionary N} {index : UInt16} {sub value : UInt8} :
    odU8 od index sub = some value ↔ od.read ⟨index, sub⟩ = .ok (.unsigned8 value) := by
  unfold odU8
  split
  · next found reads => simp [reads]
  · next other =>
      constructor
      · intro impossible
        cases impossible
      · intro reads
        exact (other value reads).elim

def pushEntry (od : ObjectDictionary N) (mapIndex : UInt16)
    (mapping : PdoMapping maxPdoMapping) (sub : Nat) : Option (PdoMapping maxPdoMapping) := do
  let raw ← odU32 od mapIndex (UInt8.ofNat sub)
  (mapping.push (.fromU32 raw)).toOption

theorem pushEntry_eq_some_iff {od : ObjectDictionary N} {mapIndex : UInt16}
    {mapping pushed : PdoMapping maxPdoMapping} {sub : Nat} :
    pushEntry od mapIndex mapping sub = some pushed ↔
      ∃ value, od.read ⟨mapIndex, UInt8.ofNat sub⟩ = .ok (.unsigned32 value) ∧
        pushed.entries.toList = mapping.entries.toList ++ [.fromU32 value] := by
  have toOption (value : UInt32) : (mapping.push (.fromU32 value)).toOption = some pushed ↔
      mapping.push (.fromU32 value) = .ok pushed := by
    cases mapping.push (.fromU32 value) <;> simp [Except.toOption]
  simp only [pushEntry, Option.bind_eq_bind, Option.bind_eq_some_iff, odU32_eq_some_iff,
    toOption, PdoMapping.push_eq_ok_iff]

/-- Reading the `count` entries from subindex `first` on appends the entries of that many
values stored there. -/
theorem pushEntries_eq_some_iff {od : ObjectDictionary N} {mapIndex : UInt16}
    {mapping read : PdoMapping maxPdoMapping} {first count : Nat} :
    (List.range' first count).foldlM (pushEntry od mapIndex) mapping = some read ↔
      ∃ values : List UInt32, values.length = count ∧
        (∀ position value, values[position]? = some value →
          od.read ⟨mapIndex, UInt8.ofNat (position + first)⟩ = .ok (.unsigned32 value)) ∧
        read.entries.toList = mapping.entries.toList ++ values.map .fromU32 := by
  induction count generalizing first mapping with
  | zero =>
      simp only [List.range'_zero, List.foldlM_nil, List.length_eq_zero_iff]
      constructor
      · intro same
        cases same
        exact ⟨[], rfl, by simp, by simp⟩
      · rintro ⟨values, rfl, -, same⟩
        have same : mapping = read := PdoMapping.ext (by simpa using same.symm)
        exact congrArg some same
  | succ count induction =>
      rw [List.range'_succ, List.foldlM_cons, Option.bind_eq_bind, Option.bind_eq_some_iff]
      constructor
      · rintro ⟨pushed, pushes, reads⟩
        rcases pushEntry_eq_some_iff.mp pushes with ⟨value, stored, appended⟩
        rcases induction.mp reads with ⟨values, length, storedRest, entries⟩
        refine ⟨value :: values, by simp [length], ?_, by simp [entries, appended]⟩
        intro position other isOther
        cases position with
        | zero =>
            cases isOther
            simpa using stored
        | succ position =>
            have next := storedRest position other isOther
            rwa [show position + (first + 1) = position + 1 + first by omega] at next
      · rintro ⟨values, length, stored, entries⟩
        cases values with
        | nil => simp at length
        | cons value values =>
            have extended : read.entries.toList =
                mapping.entries.toList ++ [.fromU32 value] ++ values.map .fromU32 := by
              simp [entries]
            rcases PdoMapping.exists_front extended with ⟨pushed, appended⟩
            refine ⟨pushed, pushEntry_eq_some_iff.mpr ⟨value, ?_, appended⟩,
              induction.mpr ⟨values, by simpa using length, ?_, by rw [extended, appended]⟩⟩
            · simpa using stored 0 value rfl
            · intro position other isOther
              have next := stored (position + 1) other isOther
              rwa [show position + 1 + first = position + (first + 1) by omega] at next

/-- A record is read as the mapping it decodes to, and as none when it decodes to none. -/
theorem readPdoMapping_eq_some_iff {od : ObjectDictionary N} {mapIndex : UInt16}
    {mapping : PdoMapping maxPdoMapping} :
    readPdoMapping od mapIndex = some mapping ↔ HasMapping od mapIndex mapping := by
  have steps : readPdoMapping od mapIndex = (odU8 od mapIndex 0).bind fun count =>
      (List.range' 1 count.toNat).foldlM (pushEntry od mapIndex) .new := rfl
  rw [steps, Option.bind_eq_some_iff]
  simp only [odU8_eq_some_iff, pushEntries_eq_some_iff]
  constructor
  · rintro ⟨count, isCount, values, length, stored, entries⟩
    exact ⟨values, ⟨⟨count, isCount, length.symm⟩, stored⟩, entries⟩
  · rintro ⟨values, ⟨⟨count, isCount, length⟩, stored⟩, entries⟩
    exact ⟨count, isCount, values, length.symm, stored, entries⟩

/-! ## The slots -/

theorem hasCanId_iff {od : ObjectDictionary N} {commIndex canId : UInt16} :
    HasCanId od commIndex canId ↔ ∃ cobId, odU32 od commIndex 1 = some cobId ∧
      pdoIsValid cobId = true ∧ pdoCanId cobId = canId := by
  have same (cobId : UInt32) :
      canId.toNat = cobId.toNat % 2 ^ 11 ↔ pdoCanId cobId = canId := by
    rw [← toNat_pdoCanId, UInt16.toNat_inj]
    exact eq_comm
  simp only [HasCanId, odU32_eq_some_iff, pdoIsValid_iff, same]

theorem hasTransmission_iff {od : ObjectDictionary N} {commIndex : UInt16}
    {transmission : TransmissionType} :
    HasTransmission od commIndex transmission ↔
      ((odU8 od commIndex 2).bind fun byte =>
        (TransmissionType.fromByte byte).toOption).getD .eventDrivenProfile = transmission := by
  have named (named : TransmissionType) : NamesTransmission od commIndex named ↔
      ((odU8 od commIndex 2).bind fun byte =>
        (TransmissionType.fromByte byte).toOption) = some named := by
    have toOption (byte : UInt8) : (TransmissionType.fromByte byte).toOption = some named ↔
        TransmissionType.fromByte byte = .ok named := by
      cases TransmissionType.fromByte byte <;> simp [Except.toOption]
    simp only [NamesTransmission, Option.bind_eq_some_iff, odU8_eq_some_iff, toOption]
  simp only [HasTransmission, named]
  cases ((odU8 od commIndex 2).bind fun byte => (TransmissionType.fromByte byte).toOption) with
  | none => simp [eq_comm]
  | some found => simp

theorem buildRpdo_eq_some_iff {od : ObjectDictionary N} {n : UInt16} {slot : RpdoSlot} :
    buildRpdo od n = some slot ↔ DescribesRpdo od n slot := by
  rw [buildRpdo, Option.bind_eq_bind, Option.bind_eq_some_iff]
  constructor
  · rintro ⟨cobId, isCobId, built⟩
    split at built
    · cases built
    · next valid =>
        rw [Option.bind_eq_bind, Option.bind_eq_some_iff] at built
        rcases built with ⟨mapping, reads, isSlot⟩
        cases isSlot
        exact ⟨hasCanId_iff.mpr ⟨cobId, isCobId, by simpa using valid, rfl⟩,
          readPdoMapping_eq_some_iff.mp reads⟩
  · rintro ⟨canId, mapping⟩
    rcases hasCanId_iff.mp canId with ⟨cobId, isCobId, valid, same⟩
    refine ⟨cobId, isCobId, ?_⟩
    simp [valid, readPdoMapping_eq_some_iff.mpr mapping, same]

theorem buildTpdo_eq_some_iff {od : ObjectDictionary N} {n : UInt16} {slot : TpdoSlot} :
    buildTpdo od n = some slot ↔ DescribesTpdo od n slot := by
  rw [buildTpdo, Option.bind_eq_bind, Option.bind_eq_some_iff]
  constructor
  · rintro ⟨cobId, isCobId, built⟩
    split at built
    · cases built
    · next valid =>
        rw [Option.bind_eq_bind, Option.bind_eq_some_iff] at built
        rcases built with ⟨mapping, reads, isSlot⟩
        cases isSlot
        exact ⟨hasCanId_iff.mpr ⟨cobId, isCobId, by simpa using valid, rfl⟩,
          hasTransmission_iff.mpr rfl, readPdoMapping_eq_some_iff.mp reads⟩
  · rintro ⟨canId, transmission, mapping⟩
    rcases hasCanId_iff.mp canId with ⟨cobId, isCobId, valid, same⟩
    refine ⟨cobId, isCobId, ?_⟩
    simp [valid, readPdoMapping_eq_some_iff.mpr mapping, same,
      hasTransmission_iff.mp transmission]

/-! ## Configuring the PDOs -/

namespace Node

def withoutPdos (node : Node N) : Node N := { node with rpdos := .new, tpdos := .new }

def pushSlots (node : Node N) (n : UInt16) : Node N :=
  { node with
    rpdos := pushSlot node.rpdos (buildRpdo node.od n)
    tpdos := pushSlot node.tpdos (CanOpen.buildTpdo node.od n) }

theorem configurePdosFromOd_eq (node : Node N) :
    node.configurePdosFromOd = pdoNumbers.foldl pushSlots node.withoutPdos := by
  rw [pdoNumbers, List.foldl_map]
  rfl

theorem configurePdosFromOd_of_earlier (node : Node N) (rpdos : BoundedVec RpdoSlot maxPdos)
    (tpdos : BoundedVec TpdoSlot maxPdos) :
    { node with rpdos, tpdos : Node N }.configurePdosFromOd = node.configurePdosFromOd :=
  rfl

theorem toList_pushSlot {α : Type} {slots : BoundedVec α maxPdos} (slot : Option α)
    (room : slots.toList.length < maxPdos) :
    (pushSlot slots slot).toList = slots.toList ++ slot.toList := by
  cases slot with
  | none => simp [pushSlot]
  | some slot =>
      rcases BoundedVec.push_of_lt slot room with ⟨pushed, pushes, isPushed⟩
      simp [pushSlot, pushes, isPushed]

theorem toList_foldl_pushSlot {α : Type} (build : UInt16 → Option α)
    {slots : BoundedVec α maxPdos} {numbers : List UInt16}
    (room : slots.toList.length + numbers.length ≤ maxPdos) :
    (numbers.foldl (fun slots n => pushSlot slots (build n)) slots).toList =
      slots.toList ++ numbers.filterMap build := by
  induction numbers generalizing slots with
  | nil => simp
  | cons n numbers induction =>
      rw [List.length_cons] at room
      have pushed := toList_pushSlot (build n) (show slots.toList.length < maxPdos by omega)
      have one := (build n).length_toList_le
      have roomBehind :
          (pushSlot slots (build n)).toList.length + numbers.length ≤ maxPdos := by
        rw [pushed, List.length_append]
        omega
      rw [List.foldl_cons, induction roomBehind, pushed]
      cases found : build n with
      | none => simp [List.filterMap_cons_none found]
      | some slot => simp [List.filterMap_cons_some found]

/-- The two kinds of slots are handled apart, and the rest of the node stays as it is. -/
theorem foldl_pushSlots (node : Node N) (numbers : List UInt16) :
    numbers.foldl pushSlots node = { node with
      rpdos := numbers.foldl (fun slots n => pushSlot slots (buildRpdo node.od n)) node.rpdos
      tpdos := numbers.foldl (fun slots n => pushSlot slots (CanOpen.buildTpdo node.od n))
        node.tpdos } := by
  induction numbers generalizing node with
  | nil => rfl
  | cons n numbers induction => exact induction (node.pushSlots n)

/-- Configuring the PDOs gives the slots that the records describe, and leaves the rest of
the node as it is. -/
theorem configurePdosFromOd_slots (node : Node N) :
    ∃ rpdos tpdos, node.configurePdosFromOd = { node with rpdos, tpdos } ∧
      rpdos.toList = pdoNumbers.filterMap (buildRpdo node.od) ∧
      tpdos.toList = pdoNumbers.filterMap (CanOpen.buildTpdo node.od) := by
  have room : pdoNumbers.length ≤ maxPdos := by decide
  refine ⟨_, _, node.configurePdosFromOd_eq.trans (foldl_pushSlots _ _), ?_, ?_⟩
  · exact toList_foldl_pushSlot (buildRpdo node.od)
      (show ([] : List RpdoSlot).length + _ ≤ _ by simpa using room)
  · exact toList_foldl_pushSlot (CanOpen.buildTpdo node.od)
      (show ([] : List TpdoSlot).length + _ ≤ _ by simpa using room)

/-! ## Adding PDOs by hand -/

theorem addRpdo_eq_ok_iff {node added : Node N} {cobId : UInt16}
    {mapping : PdoMapping maxPdoMapping} :
    node.addRpdo cobId mapping = .ok added ↔
      ∃ rpdos, rpdos.toList = node.rpdos.toList ++ [⟨cobId, mapping⟩] ∧
        added = { node with rpdos } := by
  simp only [← BoundedVec.push_eq_some_iff, addRpdo]
  cases node.rpdos.push ⟨cobId, mapping⟩ with
  | none => simp
  | some rpdos => simp [eq_comm]

theorem addTpdo_eq_ok_iff {node added : Node N} {cobId : UInt16}
    {mapping : PdoMapping maxPdoMapping} {transmission : TransmissionType} :
    node.addTpdo cobId mapping transmission = .ok added ↔
      ∃ tpdos, tpdos.toList = node.tpdos.toList ++ [⟨cobId, mapping, transmission⟩] ∧
        added = { node with tpdos } := by
  simp only [← BoundedVec.push_eq_some_iff, addTpdo]
  cases node.tpdos.push ⟨cobId, mapping, transmission⟩ with
  | none => simp
  | some tpdos => simp [eq_comm]

def addRpdos (node : Node N) (slots : List RpdoSlot) : Except Error (Node N) :=
  slots.foldlM (fun node slot => node.addRpdo slot.cobId slot.mapping) node

def addTpdos (node : Node N) (slots : List TpdoSlot) : Except Error (Node N) :=
  slots.foldlM (fun node slot => node.addTpdo slot.cobId slot.mapping slot.transmission) node

/-- Additions that each append to one list of a state append all their items, if these
fit. -/
theorem foldlM_appends {σ α : Type} {capacity : Nat} (slots : σ → BoundedVec α capacity)
    (update : σ → BoundedVec α capacity → σ) (add : σ → α → Except Error σ)
    (adds : ∀ state item grown, grown.toList = (slots state).toList ++ [item] →
      add state item = .ok (update state grown))
    (slots_update : ∀ state grown, slots (update state grown) = grown)
    (update_update : ∀ state first second,
      update (update state first) second = update state second)
    (update_slots : ∀ state, update state (slots state) = state)
    {state : σ} {items : List α} {final : BoundedVec α capacity}
    (fits : final.toList = (slots state).toList ++ items) :
    items.foldlM add state = .ok (update state final) := by
  induction items generalizing state with
  | nil =>
      have same : final = slots state := BoundedVec.ext (by simpa using fits)
      rw [same, update_slots]
      rfl
  | cons item items induction =>
      have grows : final.toList = (slots state).toList ++ [item] ++ items := by simp [fits]
      rcases BoundedVec.exists_front grows with ⟨grown, isGrown⟩
      have rest : items.foldlM add (update state grown) = .ok (update state final) := by
        rw [← update_update state grown final]
        apply induction
        rw [slots_update, isGrown, grows]
      rw [List.foldlM_cons, adds state item grown isGrown]
      exact rest

theorem addRpdos_of_fits {node : Node N} {slots : List RpdoSlot}
    {rpdos : BoundedVec RpdoSlot maxPdos} (fits : rpdos.toList = node.rpdos.toList ++ slots) :
    node.addRpdos slots = .ok { node with rpdos } :=
  foldlM_appends Node.rpdos (fun node rpdos => { node with rpdos }) _
    (fun _ _ grown appended => addRpdo_eq_ok_iff.mpr ⟨grown, appended, rfl⟩)
    (fun _ _ => rfl) (fun _ _ _ => rfl) (fun _ => rfl) fits

theorem addTpdos_of_fits {node : Node N} {slots : List TpdoSlot}
    {tpdos : BoundedVec TpdoSlot maxPdos} (fits : tpdos.toList = node.tpdos.toList ++ slots) :
    node.addTpdos slots = .ok { node with tpdos } :=
  foldlM_appends Node.tpdos (fun node tpdos => { node with tpdos }) _
    (fun _ _ grown appended => addTpdo_eq_ok_iff.mpr ⟨grown, appended, rfl⟩)
    (fun _ _ => rfl) (fun _ _ _ => rfl) (fun _ => rfl) fits

theorem add_configured (node : Node N) :
    ((node.withoutPdos.addRpdos node.configurePdosFromOd.rpdos.toList).bind fun node' =>
      node'.addTpdos node.configurePdosFromOd.tpdos.toList) = .ok node.configurePdosFromOd := by
  rcases node.configurePdosFromOd_slots with ⟨rpdos, tpdos, configured, -, -⟩
  have addsRpdos : node.withoutPdos.addRpdos rpdos.toList =
      .ok { node.withoutPdos with rpdos } := addRpdos_of_fits rfl
  have addsTpdos : { node.withoutPdos with rpdos : Node N }.addTpdos tpdos.toList =
      .ok { node with rpdos, tpdos } := addTpdos_of_fits rfl
  rw [configured]
  exact (congrArg (Except.bind · _) addsRpdos).trans addsTpdos

end Node

/-! ## The records of one PDO -/

def SameOutside (indices : List UInt16) (left right : ObjectDictionary N) : Prop :=
  ∀ addr, addr.index ∉ indices → left.read addr = right.read addr

def rpdoRecords (n : UInt16) : List UInt16 := [0x1400 + n, 0x1600 + n]

def tpdoRecords (n : UInt16) : List UInt16 := [0x1800 + n, 0x1A00 + n]

theorem toNat_lt_of_mem_pdoNumbers {n : UInt16} (member : n ∈ pdoNumbers) :
    n.toNat < maxPdos := by
  rcases List.mem_map.mp member with ⟨position, inRange, rfl⟩
  rw [List.mem_range] at inRange
  rw [UInt16.toNat_ofNat']
  exact Nat.lt_of_le_of_lt (Nat.mod_le _ _) inRange

theorem mem_rpdoRecords_iff {n index : UInt16} (small : n.toNat < maxPdos) :
    index ∈ rpdoRecords n ↔
      index.toNat = 0x1400 + n.toNat ∨ index.toNat = 0x1600 + n.toNat := by
  have bound : n.toNat < 4 := small
  simp only [rpdoRecords, List.mem_cons, List.not_mem_nil, or_false, ← UInt16.toNat_inj,
    UInt16.toNat_add, UInt16.reduceToNat]
  omega

theorem mem_tpdoRecords_iff {n index : UInt16} (small : n.toNat < maxPdos) :
    index ∈ tpdoRecords n ↔
      index.toNat = 0x1800 + n.toNat ∨ index.toNat = 0x1A00 + n.toNat := by
  have bound : n.toNat < 4 := small
  simp only [tpdoRecords, List.mem_cons, List.not_mem_nil, or_false, ← UInt16.toNat_inj,
    UInt16.toNat_add, UInt16.reduceToNat]
  omega

section Apart

variable {m n : UInt16}

theorem rpdoRecords_apart (small : m.toNat < maxPdos) (other : n.toNat < maxPdos)
    (different : m ≠ n) : ∀ index ∈ rpdoRecords m, index ∉ rpdoRecords n := by
  intro index
  rw [mem_rpdoRecords_iff small, mem_rpdoRecords_iff other]
  have apart : m.toNat ≠ n.toNat := UInt16.toNat_inj.not.mpr different
  have bounds : m.toNat < 4 ∧ n.toNat < 4 := ⟨small, other⟩
  omega

theorem tpdoRecords_apart (small : m.toNat < maxPdos) (other : n.toNat < maxPdos)
    (different : m ≠ n) : ∀ index ∈ tpdoRecords m, index ∉ tpdoRecords n := by
  intro index
  rw [mem_tpdoRecords_iff small, mem_tpdoRecords_iff other]
  have apart : m.toNat ≠ n.toNat := UInt16.toNat_inj.not.mpr different
  have bounds : m.toNat < 4 ∧ n.toNat < 4 := ⟨small, other⟩
  omega

theorem rpdoRecords_apart_tpdoRecords (small : m.toNat < maxPdos) (other : n.toNat < maxPdos) :
    ∀ index ∈ rpdoRecords m, index ∉ tpdoRecords n := by
  intro index
  rw [mem_rpdoRecords_iff small, mem_tpdoRecords_iff other]
  have bounds : m.toNat < 4 ∧ n.toNat < 4 := ⟨small, other⟩
  omega

end Apart

section Same

variable {left right : ObjectDictionary N} {indices : List UInt16}

theorem SameOutside.odU32 (same : SameOutside indices left right) {index : UInt16}
    (outside : index ∉ indices) (sub : UInt8) :
    CanOpen.odU32 left index sub = CanOpen.odU32 right index sub := by
  simp only [CanOpen.odU32, same ⟨index, sub⟩ outside]

theorem SameOutside.odU8 (same : SameOutside indices left right) {index : UInt16}
    (outside : index ∉ indices) (sub : UInt8) :
    CanOpen.odU8 left index sub = CanOpen.odU8 right index sub := by
  simp only [CanOpen.odU8, same ⟨index, sub⟩ outside]

theorem SameOutside.readPdoMapping (same : SameOutside indices left right)
    {mapIndex : UInt16} (outside : mapIndex ∉ indices) :
    CanOpen.readPdoMapping left mapIndex = CanOpen.readPdoMapping right mapIndex := by
  simp only [CanOpen.readPdoMapping, same.odU8 outside, same.odU32 outside]

theorem SameOutside.buildRpdo (same : SameOutside indices left right) {n : UInt16}
    (outside : ∀ index ∈ rpdoRecords n, index ∉ indices) :
    CanOpen.buildRpdo left n = CanOpen.buildRpdo right n := by
  have comm := outside (0x1400 + n) (by simp [rpdoRecords])
  have map := outside (0x1600 + n) (by simp [rpdoRecords])
  simp only [CanOpen.buildRpdo, same.odU32 comm, same.readPdoMapping map]

theorem SameOutside.buildTpdo (same : SameOutside indices left right) {n : UInt16}
    (outside : ∀ index ∈ tpdoRecords n, index ∉ indices) :
    CanOpen.buildTpdo left n = CanOpen.buildTpdo right n := by
  have comm := outside (0x1800 + n) (by simp [tpdoRecords])
  have map := outside (0x1A00 + n) (by simp [tpdoRecords])
  simp only [CanOpen.buildTpdo, same.odU32 comm, same.odU8 comm, same.readPdoMapping map]

end Same

/-- Two configurations in which RPDO `n` has the slot that its records describe in either
dictionary, and everything else is the same. -/
def RpdoApart (n : UInt16) (left right : Node N) : Prop :=
  left.tpdos = right.tpdos ∧
    ∃ own changed, (∀ slot, own = some slot ↔ DescribesRpdo left.od n slot) ∧
      (∀ slot, changed = some slot ↔ DescribesRpdo right.od n slot) ∧
      EqualAround own changed left.rpdos.toList right.rpdos.toList

/-- Two configurations in which TPDO `n` has the slot that its records describe in either
dictionary, and everything else is the same. -/
def TpdoApart (n : UInt16) (left right : Node N) : Prop :=
  left.rpdos = right.rpdos ∧
    ∃ own changed, (∀ slot, own = some slot ↔ DescribesTpdo left.od n slot) ∧
      (∀ slot, changed = some slot ↔ DescribesTpdo right.od n slot) ∧
      EqualAround own changed left.tpdos.toList right.tpdos.toList

theorem rpdoApart_of_sameOutside {node other : Node N} {n : UInt16} (member : n ∈ pdoNumbers)
    (same : SameOutside (rpdoRecords n) node.od other.od) :
    RpdoApart n node.configurePdosFromOd other.configurePdosFromOd := by
  have small := toNat_lt_of_mem_pdoNumbers member
  rcases node.configurePdosFromOd_slots with ⟨rpdos, tpdos, configured, isRpdos, isTpdos⟩
  rcases other.configurePdosFromOd_slots with
    ⟨otherRpdos, otherTpdos, otherConfigured, isOtherRpdos, isOtherTpdos⟩
  rw [configured, otherConfigured]
  refine ⟨BoundedVec.ext ?_, buildRpdo node.od n, buildRpdo other.od n,
    fun slot => buildRpdo_eq_some_iff, fun slot => buildRpdo_eq_some_iff, ?_⟩
  · rw [isTpdos, isOtherTpdos]
    apply List.filterMap_congr
    intro m inRange
    apply same.buildTpdo
    intro index isTpdo isRpdo
    exact rpdoRecords_apart_tpdoRecords small (toNat_lt_of_mem_pdoNumbers inRange) index isRpdo
      isTpdo
  · rw [isRpdos, isOtherRpdos]
    apply equalAround_filterMap (by decide) member
    intro m inRange different
    exact same.buildRpdo
      (rpdoRecords_apart (toNat_lt_of_mem_pdoNumbers inRange) small different)

theorem tpdoApart_of_sameOutside {node other : Node N} {n : UInt16} (member : n ∈ pdoNumbers)
    (same : SameOutside (tpdoRecords n) node.od other.od) :
    TpdoApart n node.configurePdosFromOd other.configurePdosFromOd := by
  have small := toNat_lt_of_mem_pdoNumbers member
  rcases node.configurePdosFromOd_slots with ⟨rpdos, tpdos, configured, isRpdos, isTpdos⟩
  rcases other.configurePdosFromOd_slots with
    ⟨otherRpdos, otherTpdos, otherConfigured, isOtherRpdos, isOtherTpdos⟩
  rw [configured, otherConfigured]
  refine ⟨BoundedVec.ext ?_, buildTpdo node.od n, buildTpdo other.od n,
    fun slot => buildTpdo_eq_some_iff, fun slot => buildTpdo_eq_some_iff, ?_⟩
  · rw [isRpdos, isOtherRpdos]
    apply List.filterMap_congr
    intro m inRange
    exact same.buildRpdo
      (rpdoRecords_apart_tpdoRecords (toNat_lt_of_mem_pdoNumbers inRange) small)
  · rw [isTpdos, isOtherTpdos]
    apply equalAround_filterMap (by decide) member
    intro m inRange different
    exact same.buildTpdo
      (tpdoRecords_apart (toNat_lt_of_mem_pdoNumbers inRange) small different)

/-! ## Records that store a configuration -/

/-- The record at `commIndex` stores the 11-bit COB-ID `cobId`, and the one at `mapIndex`
the count and the mapping values of `mapping`. -/
structure StoresPdo (od : ObjectDictionary N) (commIndex mapIndex cobId : UInt16)
    (mapping : PdoMapping maxPdoMapping) : Prop where
  identifier : od.read ⟨commIndex, 1⟩ = .ok (.unsigned32 cobId.toUInt32)
  elevenBits : cobId ≤ 0x7FF
  values : StoresValues od mapIndex (mapping.entries.toList.map MappingEntry.toU32)

/-- The records of TPDO `n` store its COB-ID, its mapping and the byte of a transmission type
that some byte decodes to. -/
structure StoresTpdo (od : ObjectDictionary N) (n cobId : UInt16)
    (mapping : PdoMapping maxPdoMapping) (transmission : TransmissionType) : Prop where
  pdo : StoresPdo od (0x1800 + n) (0x1A00 + n) cobId mapping
  byte : od.read ⟨0x1800 + n, 2⟩ = .ok (.unsigned8 transmission.toByte)
  decodes : ∃ byte, TransmissionType.fromByte byte = .ok transmission

section Stored

variable {od : ObjectDictionary N} {commIndex mapIndex cobId : UInt16}
  {mapping : PdoMapping maxPdoMapping}

theorem StoresPdo.hasCanId_iff (stored : StoresPdo od commIndex mapIndex cobId mapping)
    (canId : UInt16) : HasCanId od commIndex canId ↔ canId = cobId := by
  have small : cobId.toNat ≤ 0x7FF := stored.elevenBits
  have low : cobId.toUInt32.toNat % 2 ^ 11 = cobId.toNat := by
    rw [UInt16.toNat_toUInt32]
    omega
  constructor
  · rintro ⟨found, reads, -, same⟩
    rw [stored.identifier] at reads
    cases reads
    exact UInt16.toNat_inj.mp (same.trans low)
  · rintro rfl
    refine ⟨canId.toUInt32, stored.identifier, Nat.testBit_lt_two_pow ?_, low.symm⟩
    rw [UInt16.toNat_toUInt32]
    omega

theorem StoresPdo.hasMapping_iff (stored : StoresPdo od commIndex mapIndex cobId mapping)
    (found : PdoMapping maxPdoMapping) : HasMapping od mapIndex found ↔ found = mapping := by
  have parsed : (mapping.entries.toList.map MappingEntry.toU32).map MappingEntry.fromU32 =
      mapping.entries.toList := by
    simp [Function.comp_def]
  have isMapping : HasMapping od mapIndex mapping := ⟨_, stored.values, parsed.symm⟩
  constructor
  · intro isFound
    have reads := readPdoMapping_eq_some_iff.mpr isFound
    rw [readPdoMapping_eq_some_iff.mpr isMapping] at reads
    exact (Option.some.inj reads).symm
  · rintro rfl
    exact isMapping

theorem StoresTpdo.hasTransmission_iff {n : UInt16} {transmission : TransmissionType}
    (stored : StoresTpdo od n cobId mapping transmission) (found : TransmissionType) :
    HasTransmission od (0x1800 + n) found ↔ found = transmission := by
  rcases stored.decodes with ⟨byte, decoded⟩
  have reads := stored.byte
  rw [TransmissionType.toByte_of_fromByte decoded] at reads
  rw [CanOpen.hasTransmission_iff, odU8_eq_some_iff.mpr reads, Option.bind_some, decoded]
  exact eq_comm

end Stored

theorem describesRpdo_iff_of_stores {od : ObjectDictionary N} {n cobId : UInt16}
    {mapping : PdoMapping maxPdoMapping}
    (stored : StoresPdo od (0x1400 + n) (0x1600 + n) cobId mapping) (slot : RpdoSlot) :
    DescribesRpdo od n slot ↔ slot = ⟨cobId, mapping⟩ := by
  rcases slot with ⟨canId, found⟩
  rw [RpdoSlot.mk.injEq, ← stored.hasCanId_iff, ← stored.hasMapping_iff]
  constructor
  · rintro ⟨isCanId, isMapping⟩
    exact ⟨isCanId, isMapping⟩
  · rintro ⟨isCanId, isMapping⟩
    exact ⟨isCanId, isMapping⟩

theorem describesTpdo_iff_of_stores {od : ObjectDictionary N} {n cobId : UInt16}
    {mapping : PdoMapping maxPdoMapping} {transmission : TransmissionType}
    (stored : StoresTpdo od n cobId mapping transmission) (slot : TpdoSlot) :
    DescribesTpdo od n slot ↔ slot = ⟨cobId, mapping, transmission⟩ := by
  rcases slot with ⟨canId, found, foundType⟩
  rw [TpdoSlot.mk.injEq, ← stored.pdo.hasCanId_iff, ← stored.pdo.hasMapping_iff,
    ← stored.hasTransmission_iff]
  constructor
  · rintro ⟨isCanId, isType, isMapping⟩
    exact ⟨isCanId, isMapping, isType⟩
  · rintro ⟨isCanId, isMapping, isType⟩
    exact ⟨isCanId, isType, isMapping⟩

namespace Node

theorem describesRpdo_iff_added {od : ObjectDictionary N} {n cobId : UInt16}
    {mapping : PdoMapping maxPdoMapping}
    (stored : StoresPdo od (0x1400 + n) (0x1600 + n) cobId mapping) {hand added : Node N}
    (adds : hand.addRpdo cobId mapping = .ok added) (slot : RpdoSlot) :
    DescribesRpdo od n slot ↔ added.rpdos.toList = hand.rpdos.toList ++ [slot] := by
  rcases addRpdo_eq_ok_iff.mp adds with ⟨rpdos, appended, rfl⟩
  rw [describesRpdo_iff_of_stores stored, appended]
  simp [eq_comm]

theorem describesTpdo_iff_added {od : ObjectDictionary N} {n cobId : UInt16}
    {mapping : PdoMapping maxPdoMapping} {transmission : TransmissionType}
    (stored : StoresTpdo od n cobId mapping transmission) {hand added : Node N}
    (adds : hand.addTpdo cobId mapping transmission = .ok added) (slot : TpdoSlot) :
    DescribesTpdo od n slot ↔ added.tpdos.toList = hand.tpdos.toList ++ [slot] := by
  rcases addTpdo_eq_ok_iff.mp adds with ⟨tpdos, appended, rfl⟩
  rw [describesTpdo_iff_of_stores stored, appended]
  simp [eq_comm]

/-- Configuring the PDOs from the dictionary is configuring by hand what the records
describe, from scratch. Each PDO has the slot of its own records, whatever the others hold. -/
theorem configured_as_by_hand (node : Node N) :
    Listed (DescribesRpdo node.od) pdoNumbers node.configurePdosFromOd.rpdos.toList ∧
    Listed (DescribesTpdo node.od) pdoNumbers node.configurePdosFromOd.tpdos.toList ∧
    ((node.withoutPdos.addRpdos node.configurePdosFromOd.rpdos.toList).bind fun node' =>
      node'.addTpdos node.configurePdosFromOd.tpdos.toList) = .ok node.configurePdosFromOd ∧
    node.configurePdosFromOd.configurePdosFromOd = node.configurePdosFromOd ∧
    (∀ n ∈ pdoNumbers, ∀ other : Node N,
      (SameOutside (rpdoRecords n) node.od other.od →
        RpdoApart n node.configurePdosFromOd other.configurePdosFromOd) ∧
      (SameOutside (tpdoRecords n) node.od other.od →
        TpdoApart n node.configurePdosFromOd other.configurePdosFromOd)) ∧
    (∀ n cobId mapping, StoresPdo node.od (0x1400 + n) (0x1600 + n) cobId mapping →
      ∀ hand added : Node N, hand.addRpdo cobId mapping = .ok added →
        ∀ slot, DescribesRpdo node.od n slot ↔
          added.rpdos.toList = hand.rpdos.toList ++ [slot]) ∧
    ∀ n cobId mapping transmission, StoresTpdo node.od n cobId mapping transmission →
      ∀ hand added : Node N, hand.addTpdo cobId mapping transmission = .ok added →
        ∀ slot, DescribesTpdo node.od n slot ↔
          added.tpdos.toList = hand.tpdos.toList ++ [slot] := by
  rcases node.configurePdosFromOd_slots with ⟨rpdos, tpdos, configured, isRpdos, isTpdos⟩
  refine ⟨?_, ?_, node.add_configured, ?_, ?_, ?_, ?_⟩
  · rw [configured, isRpdos]
    exact .filterMap (fun n slot => buildRpdo_eq_some_iff) pdoNumbers
  · rw [configured, isTpdos]
    exact .filterMap (fun n slot => buildTpdo_eq_some_iff) pdoNumbers
  · rw [configured]
    exact (node.configurePdosFromOd_of_earlier rpdos tpdos).trans configured
  · intro n member other
    exact ⟨rpdoApart_of_sameOutside member, tpdoApart_of_sameOutside member⟩
  · intro n cobId mapping stored hand added adds
    exact describesRpdo_iff_added stored adds
  · intro n cobId mapping transmission stored hand added adds
    exact describesTpdo_iff_added stored adds

/-- RPDO 0 counts an entry that is not there. RPDO 1 is configured all the same. -/
example :
    let od : ObjectDictionary 5 := ⟨[(⟨0x1400, 1⟩, ⟨.unsigned32 0x210, .rw⟩),
      (⟨0x1600, 0⟩, ⟨.unsigned8 1, .rw⟩), (⟨0x1401, 1⟩, ⟨.unsigned32 0x310, .rw⟩),
      (⟨0x1601, 0⟩, ⟨.unsigned8 1, .rw⟩), (⟨0x1601, 1⟩, ⟨.unsigned32 0x62000110, .rw⟩)],
      by decide, by decide⟩
    (Node.new ⟨5, by decide⟩ od).configurePdosFromOd.rpdos.toList =
      [⟨0x310, ⟨⟨[⟨⟨0x6200, 1⟩, 16⟩], by decide⟩, by decide⟩⟩] := by
  decide

end Node

end CanOpen
