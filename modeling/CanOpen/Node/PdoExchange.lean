import CanOpen.Node.Receive
import CanOpen.Pdo.Acceptance

/-! # Process data from one node to another

What a producer packs out of its dictionary, a consumer with the same mapping
unpacks into its own. The two walks meet at the bytes that lay the mapped values
out one behind the other.
-/

namespace CanOpen

variable {K P C : Nat}

/-! ## Unpacking what is laid out -/

def Accepting (source : ObjectDictionary P) (target : ObjectDictionary C)
    (entries : List MappingEntry) : Prop :=
  ∀ entry ∈ entries, ∀ value, source.read entry.address = .ok value →
    ∃ object, target.entry entry.address = some object ∧ object.access.isWritable = true ∧
      object.value.dataType = value.dataType

theorem Accepting.of_sameShape {source : ObjectDictionary P} {target other : ObjectDictionary C}
    {entries : List MappingEntry} (accepting : Accepting source target entries)
    (same : ObjectDictionary.SameShape target other) : Accepting source other entries := by
  intro entry member value reads
  rcases accepting entry member value reads with ⟨object, present, writable, sameType⟩
  rcases same.entry_eq_some present with ⟨counterpart, found, sameAccess, sameKind⟩
  exact ⟨counterpart, found, sameAccess ▸ writable, sameKind.trans sameType⟩

/-- After the transfer, the mapped objects hold the values of the source and no
other object has changed. -/
structure Copied (source : ObjectDictionary P) (entries : List MappingEntry)
    (before after : ObjectDictionary C) : Prop where
  mapped : ∀ entry ∈ entries, ∃ value, source.read entry.address = .ok value ∧
    (after.entry entry.address).map Entry.value = some value
  others : ∀ addr, (∀ entry ∈ entries, entry.address ≠ addr) →
    after.entry addr = before.entry addr

theorem unpackFrom_laid {source : ObjectDictionary P} {target : ObjectDictionary C}
    {data : List UInt8} {entries : List MappingEntry} {offset : Nat} {bytes rest : List UInt8}
    (laid : Laid source entries bytes) (accepting : Accepting source target entries)
    (content : data.drop offset = bytes ++ rest) :
    ∃ written, unpackFrom data entries offset target = pure (.ok (), written) ∧
      Copied source entries target written := by
  induction laid generalizing target offset with
  | nil => exact ⟨target, rfl, by simp, fun _ _ => rfl⟩
  | @cons entry entries value bytes reads isWidth fixed laid induction =>
      rcases accepting entry List.mem_cons_self value reads with
        ⟨object, present, writable, sameType⟩
      rcases byteWidth_eq_ok_iff.mp isWidth with ⟨positive, bits⟩
      have quotient : entry.bitLength.toNat / 8 = value.size := by omega
      have transferable : Transferable AccessType.isWritable target entry := by
        refine ⟨value.size, object, positive, bits, present, writable, ?_⟩
        rw [sameType]
        exact (Value.fixedSize_eq_some_iff positive).mpr ⟨fixed, rfl⟩
      have total := congrArg List.length content
      simp only [List.length_drop, List.length_append, Value.bytes_length] at total
      have field : fieldAt data offset entry = value.bytes := by
        rw [fieldAt, quotient, content, List.append_assoc, ← Value.bytes_length, List.take_left]
      rcases unpackFrom_cons transferable
        (show offset + entry.bitLength.toNat / 8 ≤ data.length by omega) with
        ⟨holder, decoded, written, found, decodes, writes, isWritten, unpacks⟩
      cases present.symm.trans found
      rw [field, sameType, Value.decodeLe_eq_ok_iff, Value.ofBytes_bytes] at decodes
      cases decodes.2
      subst isWritten
      have remaining : data.drop (offset + entry.bitLength.toNat / 8) = bytes ++ rest := by
        rw [quotient, ← List.drop_drop, content, List.append_assoc, ← Value.bytes_length,
          List.drop_left]
      have changed := ObjectDictionary.masterChange_write writes
      have acceptingRest : Accepting source (target.replace entry.address { object with value })
          entries :=
        Accepting.of_sameShape (fun item member => accepting item (List.mem_cons_of_mem _ member))
          changed.sameShape
      rcases induction acceptingRest remaining with ⟨written, unpacksRest, copied⟩
      refine ⟨written, ?_, ?_, ?_⟩
      · rw [unpacks, unpacksRest]
      · rw [List.forall_mem_cons]
        refine ⟨⟨value, reads, ?_⟩, copied.mapped⟩
        -- The entry may be mapped again, with the same value.
        by_cases repeated : ∃ item ∈ entries, item.address = entry.address
        · rcases repeated with ⟨item, member, sameAddress⟩
          rcases copied.mapped item member with ⟨again, readsAgain, stored⟩
          rw [sameAddress, reads, Except.ok.injEq] at readsAgain
          rw [← sameAddress, stored, readsAgain]
        · have unmapped : ∀ item ∈ entries, item.address ≠ entry.address := by
            intro item member sameAddress
            exact repeated ⟨item, member, sameAddress⟩
          rw [copied.others _ unmapped, ObjectDictionary.entry_replace_self present]
          rfl
      · intro addr unmapped
        rw [List.forall_mem_cons] at unmapped
        rw [copied.others addr unmapped.2,
          ObjectDictionary.entry_replace_of_ne (Ne.symm unmapped.1)]

/-! ## Two nodes -/

namespace Node

/-- The consumer exchanges PDOs, listens to what the producer's transmit PDO `index`
sends on `cobId`, and maps it in the same way onto writable objects of the same types. -/
structure Linked (producer : Node P) (index : Nat) (consumer : Node C) (cobId : UInt16) :
    Prop where
  operational : consumer.state = .operational
  configured : consumer.lssUnconfigured = false
  notNmt : cobId ≠ nmtCommandCobId
  notLss : cobId ≠ Lss.lssMasterCobId
  notRequest : cobId ≠ consumer.sdo.requestCobId
  slots : ∃ tpdo rpdo, producer.tpdos.toList[index]? = some tpdo ∧
    (consumer.rpdos.toList.find? fun slot => slot.cobId = cobId) = some rpdo ∧
    rpdo.mapping.entries.toList = tpdo.mapping.entries.toList
  objects : ∀ tpdo, producer.tpdos.toList[index]? = some tpdo →
    ∀ entry ∈ tpdo.mapping.entries.toList, ∃ source target,
      producer.od.entry entry.address = some source ∧
      consumer.od.entry entry.address = some target ∧ target.access.isWritable = true ∧
      target.value.dataType = source.value.dataType

theorem buildTpdo_laid {node : Node P} {slot : TpdoSlot} {frame : TxFrame}
    (built : node.buildTpdo slot = pure (some frame)) :
    ∃ bytes, Laid node.od slot.mapping.entries.toList bytes ∧ frame.payload = pure bytes := by
  unfold buildTpdo at built
  split at built
  · cases built
  · rw [Exec.bind_eq_pure_iff] at built
    rcases built with ⟨⟨result, packed⟩, packs, built⟩
    rcases pack_returns slot.mapping node.od (Vector.replicate 8 0) with
      ⟨_, _, returns, within⟩
    rw [packs, Exec.pure_inj, Prod.mk.injEq] at returns
    rcases returns with ⟨rfl, rfl⟩
    cases result with
    | error error => cases built
    | ok last =>
        have short : last ≤ 8 := within last rfl
        have room : ¬ 8 < slot.mapping.totalBytes := Nat.not_lt.mpr slot.mapping.totalBytes_le
        rw [pack, if_neg room] at packs
        have bits := slot.mapping.bits_le
        rcases packFrom_laid (by omega) packs with ⟨bytes, laid, isLast, content, -⟩
        rw [List.take_zero, List.nil_append] at content
        have slice := Exec.slice_of_le packed.toList (Nat.zero_le last) (by simpa using short)
        rw [List.drop_zero, content] at slice
        rcases TxFrame.new_returns slot.cobId bytes with ⟨made, makes, -, length, data⟩
        simp only [slice, pure_bind, makes, Exec.pure_inj, Option.some.injEq] at built
        subst built
        refine ⟨bytes, laid, ?_⟩
        rw [made.payload_eq, length, data, Nat.min_eq_left (by omega),
          List.take_of_length_le (show bytes.length ≤ 8 by omega), List.take_left]

theorem onFrame_rpdo {node : Node C} {cobId : UInt16} {slot : RpdoSlot}
    (operational : node.state = .operational) (configured : node.lssUnconfigured = false)
    (notNmt : cobId ≠ nmtCommandCobId) (notLss : cobId ≠ Lss.lssMasterCobId)
    (notRequest : cobId ≠ node.sdo.requestCobId)
    (first : (node.rpdos.toList.find? fun slot => slot.cobId = cobId) = some slot)
    {data : List UInt8} {result : Except Error Unit} {od : ObjectDictionary C}
    (unpacks : unpack slot.mapping node.od data = pure (result, od)) :
    node.onFrame cobId data = pure ({ node with od }, none) := by
  rcases List.find?_eq_some_iff_getElem.mp first with ⟨listens, position, within, here, earlier⟩
  have found : (node.rpdos.toList.findIdx? fun slot => slot.cobId = cobId) = some position :=
    List.findIdx?_eq_some_iff_getElem.mpr ⟨within, by rw [here]; exact listens,
      fun before isBefore => by simpa using earlier before isBefore⟩
  have chosen : node.rpdos.index position = pure slot := by
    rw [← here]
    exact Exec.index_of_lt within
  rw [onFrame, if_neg notLss, configured, if_neg (by simp), if_neg notNmt, if_neg notRequest,
    onRpdo, if_neg (not_not_intro operational), found]
  simp only [chosen, pure_bind, unpacks]

/-- What a producer sends reaches every mapped object of a linked consumer, changes
nothing else there and is not answered, whatever stands behind the data. -/
theorem process_data_arrives {producer : Node P} {consumer : Node C} {index : Nat}
    {tx : TxFrame} {data : List UInt8} (sent : producer.tpdo index = pure (some tx))
    (carries : tx.payload = pure data) (linked : Linked producer index consumer tx.cobId)
    (extra : List UInt8) :
    ∃ od tpdo, consumer.onFrame tx.cobId (data ++ extra) = pure ({ consumer with od }, none) ∧
      producer.tpdos.toList[index]? = some tpdo ∧
      (∀ entry ∈ tpdo.mapping.entries.toList, ∃ value,
        (producer.od.entry entry.address).map Entry.value = some value ∧
          (od.entry entry.address).map Entry.value = some value) ∧
      ∀ addr, (∀ entry ∈ tpdo.mapping.entries.toList, entry.address ≠ addr) →
        od.entry addr = consumer.od.entry addr := by
  rcases linked.slots with ⟨tpdo, rpdo, isTpdo, first, sameMapping⟩
  have built : producer.buildTpdo tpdo = pure (some tx) := by
    rw [Node.tpdo] at sent
    split at sent
    · cases sent
    · simpa only [isTpdo] using sent
  rcases buildTpdo_laid built with ⟨bytes, laid, payload⟩
  have sameData : bytes = data := by
    rw [payload, Exec.pure_inj] at carries
    exact carries
  subst sameData
  have stored : ∀ entry ∈ tpdo.mapping.entries.toList, ∀ value,
      producer.od.read entry.address = .ok value →
      (producer.od.entry entry.address).map Entry.value = some value := by
    intro entry _ value reads
    rcases ObjectDictionary.read_eq_ok_iff.mp reads with ⟨source, present, -, rfl⟩
    rw [present, Option.map_some]
  have accepting : Accepting producer.od consumer.od tpdo.mapping.entries.toList := by
    intro entry member value reads
    rcases linked.objects tpdo isTpdo entry member with
      ⟨source, target, sourcePresent, targetPresent, writable, sameType⟩
    have isStored := stored entry member value reads
    rw [sourcePresent, Option.map_some, Option.some.injEq] at isStored
    exact ⟨target, targetPresent, writable, isStored ▸ sameType⟩
  have content : (bytes ++ extra).drop 0 = bytes ++ extra := rfl
  rcases unpackFrom_laid laid accepting content with ⟨od, unpacks, copied⟩
  have long : ¬ (bytes ++ extra).length < rpdo.mapping.totalBytes := by
    have bits := laid.bits
    rw [PdoMapping.totalBytes, PdoMapping.totalBits, sameMapping, bits, List.length_append]
    omega
  have unpacked : unpack rpdo.mapping consumer.od (bytes ++ extra) = pure (.ok (), od) := by
    rw [unpack, if_neg long, sameMapping, unpacks]
  refine ⟨od, tpdo, onFrame_rpdo linked.operational linked.configured linked.notNmt
    linked.notLss linked.notRequest first unpacked, isTpdo, ?_, copied.others⟩
  intro entry member
  rcases copied.mapped entry member with ⟨value, reads, arrived⟩
  exact ⟨value, stored entry member value reads, arrived⟩

/-- A word mapped on both sides of a flag, between nodes of different capacity, with a
byte to spare. -/
theorem process_data_arrives_repeated_object :
    let level : Address := ⟨0x6000, 1⟩
    let alarm : Address := ⟨0x6000, 2⟩
    let mapping : PdoMapping maxPdoMapping :=
      ⟨⟨[⟨level, 16⟩, ⟨alarm, 8⟩, ⟨level, 16⟩], by decide⟩, by decide⟩
    let source : ObjectDictionary 2 :=
      ⟨[(level, ⟨.unsigned16 0x1234, .ro⟩), (alarm, ⟨.boolean true, .const⟩)],
        by simp [level, alarm], by simp⟩
    let target : ObjectDictionary 3 :=
      ⟨[(alarm, ⟨.boolean false, .rw⟩), (level, ⟨.unsigned16 0, .wo⟩),
        (⟨0x6001, 0⟩, ⟨.unsigned8 7, .rw⟩)], by simp [level, alarm], by simp⟩
    let producer : Node 2 := { Node.new ⟨1, by decide⟩ source with
      nmt := ⟨.operational⟩, tpdos := ⟨[⟨0x181, mapping, .eventDrivenProfile⟩], by decide⟩ }
    let consumer : Node 3 := { Node.new ⟨2, by decide⟩ target with
      nmt := ⟨.operational⟩, rpdos := ⟨[⟨0x181, mapping⟩], by decide⟩ }
    ∃ od tpdo, consumer.onFrame 0x181 ([0x34, 0x12, 1, 0x34, 0x12] ++ [0xFF]) =
        pure ({ consumer with od }, none) ∧
      producer.tpdos.toList[0]? = some tpdo ∧
      (∀ entry ∈ tpdo.mapping.entries.toList, ∃ value,
        (producer.od.entry entry.address).map Entry.value = some value ∧
          (od.entry entry.address).map Entry.value = some value) ∧
      ∀ addr, (∀ entry ∈ tpdo.mapping.entries.toList, entry.address ≠ addr) →
        od.entry addr = consumer.od.entry addr := by
  refine @process_data_arrives _ _ _ _ 0
    ⟨0x181, #v[0x34, 0x12, 1, 0x34, 0x12, 0, 0, 0], 5, by decide⟩ _ (by rfl) (by rfl) ?_ [0xFF]
  refine ⟨rfl, rfl, by decide, by decide, by decide, ⟨_, _, rfl, rfl, rfl⟩, ?_⟩
  intro tpdo isTpdo
  cases isTpdo
  intro entry member
  rw [List.mem_cons, List.mem_cons, List.mem_singleton] at member
  rcases member with rfl | rfl | rfl <;> exact ⟨_, _, rfl, rfl, rfl, rfl⟩

end Node

end CanOpen
