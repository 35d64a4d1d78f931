import CanOpen.Foundation.Listing
import CanOpen.Pdo

/-! # Which mappings are packed and unpacked

A mapped object is transferred when its entry has the width of a type of fixed length
and the access rights permit it. Packing needs this of every entry; unpacking writes the
objects of the entries before the first that lacks it.
-/

namespace CanOpen

variable {K : Nat}

/-! ## Objects that can be transferred -/

/-- The entry is a whole number of bytes wide, and its object is there, has the access
rights asked for and is of a type of just that size. -/
def Transferable (permits : AccessType → Bool) (od : ObjectDictionary K)
    (entry : MappingEntry) : Prop :=
  ∃ width object, 0 < width ∧ entry.bitLength.toNat = 8 * width ∧
    od.entry entry.address = some object ∧ permits object.access = true ∧
    object.value.dataType.fixedSize = some width

theorem DataType.size_eq_iff {dataType : DataType} {width : Nat} (positive : 0 < width) :
    dataType.size = width ↔ dataType.fixedSize = some width := by
  unfold DataType.size
  cases dataType.fixedSize with
  | none => simp [positive.ne]
  | some fixed => simp

theorem Value.size_of_fixed {value : Value} (fixed : value.dataType.isVariable = false) :
    value.size = value.dataType.size := by
  cases value <;> first | rfl | cases fixed

theorem Value.fixedSize_eq_some_iff {value : Value} {width : Nat} (positive : 0 < width) :
    value.dataType.fixedSize = some width ↔
      value.dataType.isVariable = false ∧ value.size = width := by
  constructor
  · intro isFixed
    have fixed : value.dataType.isVariable = false := by
      simp [DataType.isVariable, isFixed]
    exact ⟨fixed, by rw [value.size_of_fixed fixed, DataType.size_eq_iff positive, isFixed]⟩
  · rintro ⟨fixed, size⟩
    rwa [value.size_of_fixed fixed, DataType.size_eq_iff positive] at size

theorem Transferable.of_sameShape {permits : AccessType → Bool} {od other : ObjectDictionary K}
    {entry : MappingEntry} (transferable : Transferable permits od entry)
    (same : ObjectDictionary.SameShape od other) : Transferable permits other entry := by
  rcases transferable with ⟨width, object, positive, bits, present, permitted, fixed⟩
  rcases same.entry_eq_some present with ⟨counterpart, found, sameAccess, sameType⟩
  exact ⟨width, counterpart, positive, bits, found, sameAccess ▸ permitted, sameType ▸ fixed⟩

/-! ## Values laid out -/

/-- The bytes are the mapped values of the dictionary, one behind the other. -/
inductive Laid (od : ObjectDictionary K) : List MappingEntry → List UInt8 → Prop where
  | nil : Laid od [] []
  | cons {entry : MappingEntry} {entries : List MappingEntry} {value : Value}
      {bytes : List UInt8} :
      od.read entry.address = .ok value → byteWidth entry.bitLength = .ok value.size →
      value.dataType.isVariable = false → Laid od entries bytes →
      Laid od (entry :: entries) (value.bytes ++ bytes)

/-- Packing lays the mapped values out behind the front of the buffer and leaves the rest
of it alone. -/
theorem packFrom_laid {od : ObjectDictionary K} {length : Nat} {entries : List MappingEntry}
    {offset last : Nat} {buf packed : Vector UInt8 length}
    (fits : 8 * offset + bitsOf entries ≤ 8 * length)
    (packs : packFrom od entries offset buf = pure (.ok last, packed)) :
    ∃ bytes, Laid od entries bytes ∧ last = offset + bytes.length ∧
      packed.toList.take last = buf.toList.take offset ++ bytes ∧
      packed.toList.drop last = buf.toList.drop last := by
  induction entries generalizing offset buf with
  | nil =>
      simp only [packFrom, Exec.pure_inj, Prod.mk.injEq, Except.ok.injEq] at packs
      rcases packs with ⟨rfl, rfl⟩
      exact ⟨[], .nil, rfl, by simp, rfl⟩
  | cons entry entries induction =>
      cases isWidth : byteWidth entry.bitLength with
      | error error => simp [packFrom, isWidth] at packs
      | ok width =>
          cases reads : od.read entry.address with
          | error error => simp [packFrom, isWidth, reads] at packs
          | ok value =>
              by_cases mismatch : value.dataType.isVariable ∨ value.size ≠ width
              · simp only [packFrom, isWidth, reads, mismatch, if_true, Exec.pure_inj] at packs
                cases packs
              · rw [not_or, Bool.not_eq_true, not_not] at mismatch
                rcases mismatch with ⟨fixed, rfl⟩
                rcases bitsOf_cons_le isWidth fits with ⟨within, remaining⟩
                have encoded := value.encodeWindow_eq buf
                  (show offset + value.size = offset + value.size from rfl) within
                simp only [packFrom, isWidth, reads, fixed, ne_eq, not_true_eq_false,
                  Bool.false_eq_true, or_self, if_false, encoded, pure_bind] at packs
                rcases induction remaining packs with ⟨bytes, laid, rfl, content, untouched⟩
                have front : (buf.toList.take offset ++ value.bytes).length =
                    offset + value.size := by
                  simp
                  omega
                refine ⟨value.bytes ++ bytes, .cons reads isWidth fixed laid, ?_, ?_, ?_⟩
                · simp [Nat.add_assoc]
                · rw [content, Exec.toList_splice, ← List.append_assoc]
                  congr 1
                  rw [← front, List.take_left]
                · rw [untouched, Exec.toList_splice, ← front, ← List.drop_drop, List.drop_left,
                    List.drop_drop, List.length_append, List.length_take, Value.bytes_length]
                  congr 1
                  simp only [Vector.length_toList]
                  omega

theorem Laid.bits {od : ObjectDictionary K} {entries : List MappingEntry} {bytes : List UInt8}
    (laid : Laid od entries bytes) : bitsOf entries = 8 * bytes.length := by
  induction laid with
  | nil => rfl
  | cons _ isWidth _ _ induction =>
      have width := (byteWidth_eq_ok_iff.mp isWidth).2
      simp only [bitsOf, List.map_cons, List.sum_cons, List.length_append,
        Value.bytes_length] at induction ⊢
      omega

theorem Laid.reads {od : ObjectDictionary K} {entries : List MappingEntry} {bytes : List UInt8}
    (laid : Laid od entries bytes) :
    ∀ entry ∈ entries, ∃ value, od.read entry.address = .ok value := by
  induction laid with
  | nil => simp
  | cons reads _ _ _ induction => exact List.forall_mem_cons.mpr ⟨⟨_, reads⟩, induction⟩

def mappedBytes (od : ObjectDictionary K) (entries : List MappingEntry) : List UInt8 :=
  entries.flatMap fun entry =>
    match od.entry entry.address with
    | some object => object.value.bytes
    | none => []

theorem laid_mappedBytes {od : ObjectDictionary K} {entries : List MappingEntry}
    (readable : ∀ entry ∈ entries, Transferable AccessType.isReadable od entry) :
    Laid od entries (mappedBytes od entries) := by
  induction entries with
  | nil => exact .nil
  | cons entry entries induction =>
      rw [List.forall_mem_cons] at readable
      rcases readable with ⟨⟨width, object, positive, bits, present, permitted, isFixed⟩, rest⟩
      rcases (Value.fixedSize_eq_some_iff positive).mp isFixed with ⟨fixed, rfl⟩
      have reads : od.read entry.address = .ok object.value :=
        ObjectDictionary.read_eq_ok_iff.mpr ⟨object, present, permitted, rfl⟩
      have isWidth : byteWidth entry.bitLength = .ok object.value.size :=
        byteWidth_eq_ok_iff.mpr ⟨positive, bits⟩
      have front : mappedBytes od (entry :: entries) =
          object.value.bytes ++ mappedBytes od entries := by
        simp [mappedBytes, present]
      rw [front]
      exact .cons reads isWidth fixed (induction rest)

theorem Laid.transferable {od : ObjectDictionary K} {entries : List MappingEntry}
    {bytes : List UInt8} (laid : Laid od entries bytes) :
    (∀ entry ∈ entries, Transferable AccessType.isReadable od entry) ∧
      bytes = mappedBytes od entries := by
  induction laid with
  | nil => exact ⟨by simp, rfl⟩
  | @cons entry entries value bytes reads isWidth fixed _ induction =>
      rcases ObjectDictionary.read_eq_ok_iff.mp reads with ⟨object, present, permitted, rfl⟩
      rcases byteWidth_eq_ok_iff.mp isWidth with ⟨positive, bits⟩
      constructor
      · rw [List.forall_mem_cons]
        exact ⟨⟨object.value.size, object, positive, bits, present, permitted,
          (Value.fixedSize_eq_some_iff positive).mpr ⟨fixed, rfl⟩⟩, induction.1⟩
      · simp [mappedBytes, present, induction.2]

theorem packFrom_of_laid {od : ObjectDictionary K} {length : Nat} {entries : List MappingEntry}
    {bytes : List UInt8} (laid : Laid od entries bytes) {offset : Nat}
    {buf : Vector UInt8 length} (fits : 8 * offset + bitsOf entries ≤ 8 * length) :
    ∃ packed, packFrom od entries offset buf = pure (.ok (offset + bytes.length), packed) := by
  induction laid generalizing offset buf with
  | nil => exact ⟨buf, rfl⟩
  | @cons entry entries value bytes reads isWidth fixed laid induction =>
      rcases bitsOf_cons_le isWidth fits with ⟨within, remaining⟩
      have encoded := value.encodeWindow_eq buf
        (show offset + value.size = offset + value.size from rfl) within
      simp only [packFrom, isWidth, reads, fixed, ne_eq, not_true_eq_false,
        Bool.false_eq_true, or_self, if_false, encoded, pure_bind, List.length_append,
        Value.bytes_length, ← Nat.add_assoc]
      exact induction remaining

/-! ## Fields stored -/

def fieldAt (data : List UInt8) (offset : Nat) (entry : MappingEntry) : List UInt8 :=
  (data.drop offset).take (entry.bitLength.toNat / 8)

/-- Every mapped object holds what its field in the last entry that maps it decodes to,
and nothing else has changed. The first entry begins at `offset`. -/
structure Stored (data : List UInt8) (entries : List MappingEntry) (offset : Nat)
    (before after : ObjectDictionary K) : Prop where
  mapped : ∀ front entry back, entries = front ++ entry :: back →
    (∀ later ∈ back, later.address ≠ entry.address) →
    ∃ object value, before.entry entry.address = some object ∧
      Value.decodeLe object.value.dataType (fieldAt data (offset + bitsOf front / 8) entry) =
        pure (.ok value) ∧
      after.entry entry.address = some { object with value }
  others : ∀ addr, (∀ entry ∈ entries, entry.address ≠ addr) →
    after.entry addr = before.entry addr

theorem bitsOf_cons_div {entry : MappingEntry} (whole : 8 ∣ entry.bitLength.toNat)
    (entries : List MappingEntry) :
    bitsOf (entry :: entries) / 8 = entry.bitLength.toNat / 8 + bitsOf entries / 8 := by
  simp only [bitsOf, List.map_cons, List.sum_cons]
  omega

theorem Stored.nil {data : List UInt8} {offset : Nat} (od : ObjectDictionary K) :
    Stored data [] offset od od :=
  ⟨by simp, fun _ _ => rfl⟩

/-- What a field stored in an object does is undone by a later entry for it only. -/
theorem Stored.cons {data : List UInt8} {entry : MappingEntry} {entries : List MappingEntry}
    {offset : Nat} {before after : ObjectDictionary K} {object : Entry} {value : Value}
    (whole : 8 ∣ entry.bitLength.toNat) (present : before.entry entry.address = some object)
    (decodes : Value.decodeLe object.value.dataType (fieldAt data offset entry) =
      pure (.ok value))
    (stored : Stored data entries (offset + entry.bitLength.toNat / 8)
      (before.replace entry.address { object with value }) after) :
    Stored data (entry :: entries) offset before after := by
  have sameType : value.dataType = object.value.dataType := by
    rw [(Value.decodeLe_eq_ok_iff.mp decodes).2, Value.dataType_ofBytes]
  constructor
  · intro front item back split last
    cases front with
    | nil =>
        simp only [List.nil_append, List.cons.injEq] at split
        rcases split with ⟨rfl, rfl⟩
        refine ⟨object, value, present, by simpa [bitsOf] using decodes, ?_⟩
        rw [stored.others _ last, ObjectDictionary.entry_replace_self present]
    | cons first front =>
        simp only [List.cons_append, List.cons.injEq] at split
        rcases split with ⟨rfl, rfl⟩
        rcases stored.mapped front item back rfl last with
          ⟨target, found, targetPresent, decoded, holds⟩
        rw [bitsOf_cons_div whole, ← Nat.add_assoc]
        by_cases again : item.address = entry.address
        · rw [again, ObjectDictionary.entry_replace_self present, Option.some.injEq]
            at targetPresent
          subst targetPresent
          refine ⟨object, found, again ▸ present, ?_, holds⟩
          rw [← decoded, sameType]
        · rw [ObjectDictionary.entry_replace_of_ne again] at targetPresent
          exact ⟨target, found, targetPresent, decoded, holds⟩
  · intro addr unmapped
    rw [List.forall_mem_cons] at unmapped
    rw [stored.others addr unmapped.2, ObjectDictionary.entry_replace_of_ne unmapped.1.symm]

/-! ## Unpacking -/

theorem unpackFrom_cons {data : List UInt8} {entry : MappingEntry} {offset : Nat}
    {od : ObjectDictionary K} (writable : Transferable AccessType.isWritable od entry)
    (within : offset + entry.bitLength.toNat / 8 ≤ data.length) :
    ∃ object value written, od.entry entry.address = some object ∧
      Value.decodeLe object.value.dataType (fieldAt data offset entry) = pure (.ok value) ∧
      od.write entry.address value = .ok written ∧
      written = od.replace entry.address { object with value } ∧
      ∀ entries, unpackFrom data (entry :: entries) offset od =
        unpackFrom data entries (offset + entry.bitLength.toNat / 8) written := by
  rcases writable with ⟨width, object, positive, bits, present, permitted, isFixed⟩
  have isWidth : byteWidth entry.bitLength = .ok width :=
    byteWidth_eq_ok_iff.mpr ⟨positive, bits⟩
  have quotient : entry.bitLength.toNat / 8 = width := by omega
  rw [quotient] at within ⊢
  have window : (data.take (offset + width)).drop offset = fieldAt data offset entry := by
    rw [fieldAt, quotient, List.drop_take, Nat.add_sub_cancel_left]
  have length : (fieldAt data offset entry).length = width := by
    rw [fieldAt, quotient, List.length_take, List.length_drop]
    omega
  have accepts : object.value.dataType.Accepts (fieldAt data offset entry).length := by
    rw [DataType.Accepts, isFixed, length]
  have decodes := Value.decodeLe_eq_ok_iff.mpr ⟨accepts, rfl⟩
  have writes : od.write entry.address (Value.ofBytes object.value.dataType
      (fieldAt data offset entry)) = .ok _ :=
    ObjectDictionary.write_eq_ok_iff.mpr ⟨object, present, permitted, by simp, rfl⟩
  refine ⟨object, _, _, present, decodes, writes, rfl, ?_⟩
  intro entries
  have sameSize : object.value.dataType.size = width :=
    (DataType.size_eq_iff positive).mpr isFixed
  simp only [unpackFrom, isWidth, present, sameSize, ne_eq, not_true_eq_false, if_false,
    Exec.slice_of_le data (Nat.le_add_right offset width) within, window, pure_bind, decodes,
    writes]

/-- An entry whose object is not writable or not of the mapped size is rejected, with
nothing written. -/
theorem unpackFrom_rejects {data : List UInt8} {entry : MappingEntry}
    {entries : List MappingEntry} {offset : Nat} {od : ObjectDictionary K}
    (unwritable : ¬ Transferable AccessType.isWritable od entry)
    (fits : 8 * offset + bitsOf (entry :: entries) ≤ 8 * data.length) :
    ∃ error, unpackFrom data (entry :: entries) offset od = pure (.error error, od) := by
  cases isWidth : byteWidth entry.bitLength with
  | error error => exact ⟨error, by simp [unpackFrom, isWidth]⟩
  | ok width =>
      rcases byteWidth_eq_ok_iff.mp isWidth with ⟨positive, bits⟩
      have within := (bitsOf_cons_le isWidth fits).1
      cases present : od.entry entry.address with
      | none => exact ⟨.objectNotFound, by simp [unpackFrom, isWidth, present]⟩
      | some object =>
          by_cases sameSize : object.value.dataType.size = width
          · have isFixed := (DataType.size_eq_iff positive).mp sameSize
            have denied : object.access.isWritable = false := by
              by_contra permitted
              rw [Bool.not_eq_false] at permitted
              exact unwritable ⟨width, object, positive, bits, present, permitted, isFixed⟩
            have length : ((data.take (offset + width)).drop offset).length = width := by
              rw [List.length_drop, List.length_take]
              omega
            have accepts : object.value.dataType.Accepts
                ((data.take (offset + width)).drop offset).length := by
              rw [DataType.Accepts, isFixed, length]
            refine ⟨.readOnly, ?_⟩
            simp only [unpackFrom, isWidth, present, sameSize, ne_eq, not_true_eq_false,
              if_false, Exec.slice_of_le data (Nat.le_add_right offset width) within, pure_bind,
              Value.decodeLe_eq, if_pos accepts, ObjectDictionary.write, denied,
              Bool.false_eq_true, not_false_eq_true, if_true]
          · exact ⟨.typeMismatch, by simp [unpackFrom, isWidth, present, sameSize]⟩

theorem unpackFrom_stores {data : List UInt8} {entries : List MappingEntry} {offset : Nat}
    {od : ObjectDictionary K}
    (writable : ∀ entry ∈ entries, Transferable AccessType.isWritable od entry)
    (fits : 8 * offset + bitsOf entries ≤ 8 * data.length) :
    ∃ written, Stored data entries offset od written ∧
      ObjectDictionary.SameShape od written ∧
      written.entries.map Prod.fst = od.entries.map Prod.fst ∧
      ∀ rest, unpackFrom data (entries ++ rest) offset od =
        unpackFrom data rest (offset + bitsOf entries / 8) written := by
  induction entries generalizing offset od with
  | nil => exact ⟨od, .nil od, .refl od, rfl, fun rest => by simp [bitsOf]⟩
  | cons entry entries induction =>
      rw [List.forall_mem_cons] at writable
      rcases writable.1 with ⟨width, _, positive, bits, _⟩
      have whole : 8 ∣ entry.bitLength.toNat := ⟨width, bits⟩
      have isWidth : byteWidth entry.bitLength = .ok width :=
        byteWidth_eq_ok_iff.mpr ⟨positive, bits⟩
      have quotient : entry.bitLength.toNat / 8 = width := by omega
      rcases bitsOf_cons_le isWidth fits with ⟨within, remaining⟩
      rw [← quotient] at within remaining
      rcases unpackFrom_cons writable.1 within with
        ⟨object, value, first, present, decodes, writes, isFirst, unpacks⟩
      have change := ObjectDictionary.masterChange_write writes
      rcases induction (fun item member => (writable.2 item member).of_sameShape
        change.sameShape) remaining with ⟨written, stored, sameShape, addresses, later⟩
      refine ⟨written, .cons whole present decodes (isFirst ▸ stored),
        change.sameShape.trans sameShape, ?_, ?_⟩
      · rw [addresses, isFirst, ObjectDictionary.addresses_replace]
      · intro rest
        rw [List.cons_append, unpacks, later, bitsOf_cons_div whole, Nat.add_assoc]

/-- What unpacking leaves: all fields stored, if every object is writable and of the mapped
size, or the fields before the first object that is not. -/
theorem unpackFrom_outcome (od : ObjectDictionary K) {data : List UInt8}
    {entries : List MappingEntry} {offset : Nat}
    (fits : 8 * offset + bitsOf entries ≤ 8 * data.length) :
    ∃ result written, unpackFrom data entries offset od = pure (result, written) ∧
      written.entries.map Prod.fst = od.entries.map Prod.fst ∧
      ((result = .ok () ∧ (∀ entry ∈ entries, Transferable AccessType.isWritable od entry) ∧
          Stored data entries offset od written) ∨
        ∃ error front entry back, result = .error error ∧ entries = front ++ entry :: back ∧
          (∀ earlier ∈ front, Transferable AccessType.isWritable od earlier) ∧
          ¬ Transferable AccessType.isWritable od entry ∧
          Stored data front offset od written) := by
  rcases forall_or_first (Transferable AccessType.isWritable od) entries with
    all | ⟨front, entry, back, rfl, before, fails⟩
  · rcases unpackFrom_stores all fits with ⟨written, stored, -, addresses, unpacks⟩
    have finished := unpacks []
    rw [List.append_nil] at finished
    exact ⟨.ok (), written, finished, addresses, .inl ⟨rfl, all, stored⟩⟩
  · have total : bitsOf (front ++ entry :: back) = bitsOf front + bitsOf (entry :: back) := by
      simp [bitsOf]
    have earlierFit : 8 * offset + bitsOf front ≤ 8 * data.length := by omega
    rcases unpackFrom_stores before earlierFit with
      ⟨written, stored, sameShape, addresses, unpacks⟩
    have stillFails : ¬ Transferable AccessType.isWritable written entry := fun writable =>
      fails (writable.of_sameShape sameShape.symm)
    have remaining : 8 * (offset + bitsOf front / 8) + bitsOf (entry :: back) ≤
        8 * data.length := by omega
    rcases unpackFrom_rejects stillFails remaining with ⟨error, rejects⟩
    exact ⟨.error error, written, by rw [unpacks, rejects], addresses,
      .inr ⟨error, front, entry, back, rfl, rfl, before, fails, stored⟩⟩

theorem unpack_leaves {N : Nat} {mapping : PdoMapping N} {od written : ObjectDictionary K}
    {data : List UInt8} {result : Except Error Unit}
    (unpacked : unpack mapping od data = pure (result, written)) {addr : Address}
    (unmapped : ∀ entry ∈ mapping.entries.toList, entry.address ≠ addr) :
    written.entry addr = od.entry addr := by
  unfold unpack at unpacked
  split at unpacked
  · cases unpacked
    rfl
  · next room =>
      have bits := PdoMapping.totalBits_le_of_totalBytes_le (Nat.not_lt.mp room)
      rcases unpackFrom_outcome od
        (show 8 * 0 + bitsOf mapping.entries.toList ≤ 8 * data.length by simpa using bits) with
        ⟨_, _, outcome, -, ⟨-, -, stored⟩ | ⟨_, front, entry, back, -, split, -, -, stored⟩⟩
      · cases unpacked.symm.trans outcome
        exact stored.others addr unmapped
      · cases unpacked.symm.trans outcome
        apply stored.others addr
        intro earlier member
        apply unmapped
        rw [split]
        exact List.mem_append_left _ member

theorem Stored.eq_iff {data : List UInt8} {entries : List MappingEntry} {offset : Nat}
    {before after : ObjectDictionary K} (stored : Stored data entries offset before after)
    (addresses : after.entries.map Prod.fst = before.entries.map Prod.fst) :
    after = before ↔ ∀ front entry back, entries = front ++ entry :: back →
      (∀ later ∈ back, later.address ≠ entry.address) →
      ∀ object, before.entry entry.address = some object →
        Value.decodeLe object.value.dataType (fieldAt data (offset + bitsOf front / 8) entry) =
          pure (.ok object.value) := by
  constructor
  · rintro rfl front entry back split last object present
    rcases stored.mapped front entry back split last with ⟨same, value, found, decodes, holds⟩
    rw [found, Option.some.injEq] at present holds
    subst present
    have unchanged : same.value = value := congrArg Entry.value holds
    rw [decodes, unchanged]
  · intro already
    apply ObjectDictionary.eq_of_entry_eq addresses
    intro addr
    rcases forall_or_first (fun entry => ¬ entry.address = addr) entries.reverse with
      unmapped | ⟨back, entry, front, split, last, here⟩
    · exact stored.others addr fun entry member => unmapped entry (List.mem_reverse.mpr member)
    · have inOrder : entries = front.reverse ++ entry :: back.reverse := by
        rw [← List.reverse_reverse entries, split]
        simp
      rw [not_not] at here
      subst here
      have isLast : ∀ later ∈ back.reverse, later.address ≠ entry.address :=
        fun later member => last later (List.mem_reverse.mp member)
      rcases stored.mapped _ entry _ inOrder isLast with ⟨object, value, found, decodes, holds⟩
      have kept := already _ entry _ inOrder isLast object found
      rw [decodes, Exec.pure_inj, Except.ok.injEq] at kept
      rw [holds, found, kept]

/-! ## Acceptance -/

/-- Packing and unpacking accept exactly the mappings whose objects are all there, of the
mapped sizes and accessible, given room for all of them, and then transfer all of them. -/
theorem pack_unpack_accept {N length : Nat} (mapping : PdoMapping N) (od : ObjectDictionary K)
    (buf : Vector UInt8 length) (data : List UInt8) :
    (∃ result packed, pack mapping od buf = pure (result, packed) ∧
      ((∃ n, result = .ok n) ↔ mapping.totalBytes ≤ length ∧
        ∀ entry ∈ mapping.entries.toList, Transferable AccessType.isReadable od entry) ∧
      ∀ n, result = .ok n → n = mapping.totalBytes ∧
        packed.toList.take n = mappedBytes od mapping.entries.toList ∧
        packed.toList.drop n = buf.toList.drop n) ∧
    ∃ result written, unpack mapping od data = pure (result, written) ∧
      (result = .ok () ↔ mapping.totalBytes ≤ data.length ∧
        ∀ entry ∈ mapping.entries.toList, Transferable AccessType.isWritable od entry) ∧
      (result = .ok () → Stored data mapping.entries.toList 0 od written) := by
  constructor
  · by_cases room : length < mapping.totalBytes
    · refine ⟨.error .badLength, buf, by rw [pack, if_pos room], ?_, by simp⟩
      simp [room]
    · have bits := PdoMapping.totalBits_le_of_totalBytes_le (Nat.not_lt.mp room)
      have fits : 8 * 0 + bitsOf mapping.entries.toList ≤ 8 * length := by omega
      have packs : pack mapping od buf = packFrom od mapping.entries.toList 0 buf := by
        rw [pack, if_neg room]
      rcases packFrom_returns od fits with ⟨result, packed, returns, -⟩
      refine ⟨result, packed, by rw [packs, returns], ?_, ?_⟩
      · constructor
        · rintro ⟨n, rfl⟩
          rcases packFrom_laid fits returns with ⟨bytes, laid, -, -⟩
          exact ⟨Nat.not_lt.mp room, laid.transferable.1⟩
        · rintro ⟨-, readable⟩
          rcases packFrom_of_laid (laid_mappedBytes readable) fits with ⟨filled, packsAll⟩
          rw [returns, Exec.pure_inj, Prod.mk.injEq] at packsAll
          exact ⟨_, packsAll.1⟩
      · rintro n rfl
        rcases packFrom_laid fits returns with ⟨bytes, laid, isLast, content, untouched⟩
        have width := laid.bits
        refine ⟨?_, ?_, untouched⟩
        · rw [PdoMapping.totalBytes, PdoMapping.totalBits]
          omega
        · rw [content, laid.transferable.2, List.take_zero, List.nil_append]
  · by_cases short : data.length < mapping.totalBytes
    · refine ⟨.error .badLength, od, by rw [unpack, if_pos short], ?_, by simp⟩
      simp [short]
    · have bits := PdoMapping.totalBits_le_of_totalBytes_le (Nat.not_lt.mp short)
      have unpacks : unpack mapping od data = unpackFrom data mapping.entries.toList 0 od := by
        rw [unpack, if_neg short]
      have fits : 8 * 0 + bitsOf mapping.entries.toList ≤ 8 * data.length := by omega
      rcases unpackFrom_outcome od fits with ⟨result, written, returns, -, outcome⟩
      refine ⟨result, written, by rw [unpacks, returns], ?_⟩
      rcases outcome with ⟨rfl, all, stored⟩ | ⟨error, front, entry, back, rfl, split, -, fails, -⟩
      · exact ⟨⟨fun _ => ⟨Nat.not_lt.mp short, all⟩, fun _ => rfl⟩, fun _ => stored⟩
      · refine ⟨?_, by simp⟩
        constructor
        · intro impossible
          cases impossible
        · rintro ⟨-, all⟩
          exact (fails (all entry (by simp [split]))).elim

/-- A mapping that is not unpacked leaves the dictionary as the entries before the first
unacceptable one leave it, and so unchanged exactly when each of their objects already
holds what its last field decodes to. -/
theorem unpack_error_leaves {N : Nat} (mapping : PdoMapping N) (od : ObjectDictionary K)
    (data : List UInt8) :
    ∃ result written, unpack mapping od data = pure (result, written) ∧
      ∀ error, result = .error error →
        (data.length < mapping.totalBytes ∧ written = od) ∨
        ∃ front entry back, mapping.totalBytes ≤ data.length ∧
          mapping.entries.toList = front ++ entry :: back ∧
          (∀ earlier ∈ front, Transferable AccessType.isWritable od earlier) ∧
          ¬ Transferable AccessType.isWritable od entry ∧
          Stored data front 0 od written ∧
          (written = od ↔ ∀ before item after, front = before ++ item :: after →
            (∀ later ∈ after, later.address ≠ item.address) →
            ∀ object, od.entry item.address = some object →
              Value.decodeLe object.value.dataType (fieldAt data (bitsOf before / 8) item) =
                pure (.ok object.value)) := by
  by_cases short : data.length < mapping.totalBytes
  · exact ⟨.error .badLength, od, by rw [unpack, if_pos short], fun _ _ => .inl ⟨short, rfl⟩⟩
  · have bits := PdoMapping.totalBits_le_of_totalBytes_le (Nat.not_lt.mp short)
    have fits : 8 * 0 + bitsOf mapping.entries.toList ≤ 8 * data.length := by omega
    rcases unpackFrom_outcome od fits with ⟨result, written, returns, addresses, outcome⟩
    refine ⟨result, written, by rw [unpack, if_neg short, returns], ?_⟩
    rintro error rfl
    rcases outcome with ⟨impossible, -⟩ | ⟨_, front, entry, back, -, split, all, fails, stored⟩
    · cases impossible
    · have unchanged := stored.eq_iff addresses
      simp only [Nat.zero_add] at unchanged
      exact .inr ⟨front, entry, back, Nat.not_lt.mp short, split, all, fails, stored, unchanged⟩

/-- The first of two mapped bytes is written although the second is read-only. -/
theorem unpack_error_leaves_first_field :
    let mapping : PdoMapping 2 :=
      ⟨⟨[⟨⟨0x6000, 1⟩, 8⟩, ⟨⟨0x6000, 2⟩, 8⟩], by decide⟩, by decide⟩
    let od : ObjectDictionary 2 :=
      ⟨[(⟨0x6000, 1⟩, ⟨.unsigned8 0, .rw⟩), (⟨0x6000, 2⟩, ⟨.unsigned8 0, .ro⟩)],
        by decide, by decide⟩
    ∃ written, unpack mapping od [7, 9] = pure (.error .readOnly, written) ∧ written ≠ od ∧
      written.read ⟨0x6000, 1⟩ = .ok (.unsigned8 7) := by
  refine ⟨⟨[(⟨0x6000, 1⟩, ⟨.unsigned8 7, .rw⟩), (⟨0x6000, 2⟩, ⟨.unsigned8 0, .ro⟩)],
    by decide, by decide⟩, by rfl, by decide, by rfl⟩

end CanOpen
