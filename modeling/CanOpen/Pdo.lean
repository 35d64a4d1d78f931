import CanOpen.Foundation.BoundedVec
import CanOpen.ObjectDictionary
import Mathlib.Data.Nat.Bitwise

/-! # Process data

The mapping of a PDO, and the transfer of the mapped objects to and from the data
of a frame.
-/

namespace CanOpen

/-! ## Communication parameters -/

def pdoCobIdInvalid : UInt32 := 0x80000000

def pdoIsValid (commCobId : UInt32) : Bool := commCobId &&& pdoCobIdInvalid = 0

def pdoCanId (commCobId : UInt32) : UInt16 := (commCobId &&& 0x7FF).toUInt16

theorem pdoIsValid_iff (commCobId : UInt32) :
    pdoIsValid commCobId = true ↔ commCobId.toNat.testBit 31 = false := by
  rw [pdoIsValid, decide_eq_true_iff, ← UInt32.toNat_inj, UInt32.toNat_and]
  show commCobId.toNat &&& 2 ^ 31 = 0 ↔ _
  rw [Nat.and_two_pow]
  cases commCobId.toNat.testBit 31 <;> simp

theorem toNat_pdoCanId (commCobId : UInt32) :
    (pdoCanId commCobId).toNat = commCobId.toNat % 2 ^ 11 := by
  have low : (commCobId &&& 0x7FF).toNat = commCobId.toNat % 2 ^ 11 := by
    rw [UInt32.toNat_and]
    exact Nat.and_two_pow_sub_one_eq_mod commCobId.toNat 11
  rw [pdoCanId, UInt32.toNat_toUInt16, low]
  omega

inductive PdoKind where
  | transmit
  | receive
  deriving DecidableEq, Repr

def defaultCobId (kind : PdoKind) (number : UInt8) (node : NodeId) : Option UInt16 :=
  if number < 1 ∨ 4 < number then none
  else
    let base := match kind with
      | .transmit => 0x80 + number.toUInt16 * 0x100
      | .receive => 0x100 + number.toUInt16 * 0x100
    some (base + node.raw.toUInt16)

def PdoKind.base : PdoKind → Nat
  | .transmit => 0x80
  | .receive => 0x100

theorem toNat_defaultCobId {kind : PdoKind} {number : UInt8} {node : NodeId} {cobId : UInt16}
    (isDefault : defaultCobId kind number node = some cobId) :
    1 ≤ number.toNat ∧ number.toNat ≤ 4 ∧
      cobId.toNat = kind.base + number.toNat * 0x100 + node.raw.toNat := by
  have bound : node.raw.toNat ≤ 127 := UInt8.le_iff_toNat_le.mp node.raw_le
  unfold defaultCobId at isDefault
  split at isDefault
  · cases isDefault
  · next inRange =>
      simp only [UInt8.lt_iff_toNat_lt, not_or, Nat.not_lt, UInt8.reduceToNat] at inRange
      refine ⟨inRange.1, inRange.2, ?_⟩
      cases isDefault
      cases kind <;>
        simp only [PdoKind.base, UInt16.toNat_add, UInt16.toNat_mul, UInt8.toNat_toUInt16,
          UInt16.reduceToNat] <;> omega

inductive TransmissionType where
  | synchronousAcyclic
  | synchronousCyclic (period : UInt8)
  | synchronousRtrOnly
  | eventDrivenRtrOnly
  | eventDrivenManufacturer
  | eventDrivenProfile
  deriving DecidableEq, Repr

def TransmissionType.fromByte (byte : UInt8) : Except Error TransmissionType :=
  if byte = 0 then .ok .synchronousAcyclic
  else if 1 ≤ byte ∧ byte ≤ 240 then .ok (.synchronousCyclic byte)
  else if byte = 252 then .ok .synchronousRtrOnly
  else if byte = 253 then .ok .eventDrivenRtrOnly
  else if byte = 254 then .ok .eventDrivenManufacturer
  else if byte = 255 then .ok .eventDrivenProfile
  else .error .unsupportedTransfer

def TransmissionType.toByte : TransmissionType → UInt8
  | .synchronousAcyclic => 0
  | .synchronousCyclic period => period
  | .synchronousRtrOnly => 252
  | .eventDrivenRtrOnly => 253
  | .eventDrivenManufacturer => 254
  | .eventDrivenProfile => 255

theorem TransmissionType.toByte_of_fromByte {byte : UInt8} {transmission : TransmissionType}
    (decoded : TransmissionType.fromByte byte = .ok transmission) :
    transmission.toByte = byte := by
  unfold fromByte at decoded
  split at decoded
  · next zero =>
      cases decoded
      exact zero.symm
  · split at decoded
    · cases decoded
      rfl
    · repeat
        split at decoded
        · next same =>
            cases decoded
            exact same.symm
      cases decoded

/-! ## Mappings -/

structure MappingEntry where
  address : Address
  bitLength : UInt8
  deriving DecidableEq, Repr

def MappingEntry.fromU32 (raw : UInt32) : MappingEntry :=
  ⟨⟨(raw >>> 16).toUInt16, (raw >>> 8).toUInt8⟩, raw.toUInt8⟩

def MappingEntry.toU32 (entry : MappingEntry) : UInt32 :=
  entry.address.index.toUInt32 <<< 16 ||| entry.address.subindex.toUInt32 <<< 8 |||
    entry.bitLength.toUInt32

@[simp] theorem MappingEntry.fromU32_toU32 (entry : MappingEntry) :
    MappingEntry.fromU32 entry.toU32 = entry := by
  rcases entry with ⟨⟨index, subindex⟩, bitLength⟩
  simp only [fromU32, toU32, MappingEntry.mk.injEq, Address.mk.injEq]
  refine ⟨⟨?_, ?_⟩, ?_⟩
  · apply UInt16.toBitVec_inj.mp
    ext i inRange
    have aboveSubindex := BitVec.getLsbD_of_ge subindex.toBitVec (16 + i - 8) (by omega)
    have aboveBitLength := BitVec.getLsbD_of_ge bitLength.toBitVec (16 + i) (by omega)
    have word : 16 + i < 32 := by omega
    have narrow : i < 32 := by omega
    simp [aboveSubindex, aboveBitLength, word, narrow, BitVec.getLsbD_eq_getElem inRange]
  · apply UInt8.toBitVec_inj.mp
    ext i inRange
    have belowIndex : 8 + i < 16 := by omega
    have word : 8 + i < 32 := by omega
    have narrow : i < 32 := by omega
    simp [belowIndex, word, narrow, BitVec.getLsbD_eq_getElem inRange]
  · apply UInt8.toBitVec_inj.mp
    ext i inRange
    simp

def bitsOf (entries : List MappingEntry) : Nat :=
  (entries.map fun entry => entry.bitLength.toNat).sum

/-- The objects mapped into a PDO in packing order, at most 64 bits in total. -/
structure PdoMapping (capacity : Nat) where
  entries : BoundedVec MappingEntry capacity
  bits_le : bitsOf entries.toList ≤ 64
  deriving DecidableEq, Repr

namespace PdoMapping

variable {capacity : Nat}

def new : PdoMapping capacity := ⟨.new, Nat.zero_le 64⟩

def totalBits (mapping : PdoMapping capacity) : Nat := bitsOf mapping.entries.toList

def totalBytes (mapping : PdoMapping capacity) : Nat := (mapping.totalBits + 7) / 8

def isEmpty (mapping : PdoMapping capacity) : Bool := mapping.entries.toList.isEmpty

def push (mapping : PdoMapping capacity) (entry : MappingEntry) :
    Except Error (PdoMapping capacity) :=
  if wide : 64 < mapping.totalBits + entry.bitLength.toNat then .error .pdoTooLong
  else
    match pushed : mapping.entries.push entry with
    | none => .error .mappingFull
    | some entries => .ok ⟨entries, by
        rw [BoundedVec.push, BoundedVec.extendFromSlice_eq_some_iff] at pushed
        have sum : bitsOf entries.toList = mapping.totalBits + entry.bitLength.toNat := by
          simp [bitsOf, totalBits, pushed]
        omega⟩

@[ext] theorem ext {left right : PdoMapping capacity}
    (equal : left.entries.toList = right.entries.toList) : left = right := by
  cases left
  cases right
  cases BoundedVec.ext equal
  rfl

/-- A push that succeeds appends the entry, and whatever is a mapping with the entry
appended can be pushed. -/
theorem push_eq_ok_iff {mapping pushed : PdoMapping capacity} {entry : MappingEntry} :
    mapping.push entry = .ok pushed ↔
      pushed.entries.toList = mapping.entries.toList ++ [entry] := by
  have width : bitsOf (mapping.entries.toList ++ [entry]) =
      mapping.totalBits + entry.bitLength.toNat := by
    simp [bitsOf, totalBits]
  constructor
  · intro pushes
    unfold push at pushes
    split at pushes
    · cases pushes
    · split at pushes
      · cases pushes
      · next appended =>
          cases pushes
          exact BoundedVec.push_eq_some_iff.mp appended
  · intro appended
    have narrow : ¬ 64 < mapping.totalBits + entry.bitLength.toNat := by
      have bits := pushed.bits_le
      rw [appended, width] at bits
      omega
    have room : mapping.entries.push entry = some pushed.entries :=
      BoundedVec.push_eq_some_iff.mpr appended
    rw [push, dif_neg narrow]
    split
    · next full => simp [room] at full
    · next entries fits =>
        have same : entries = pushed.entries := by
          rw [fits] at room
          exact Option.some.inj room
        subst same
        rfl

theorem exists_front {mapping : PdoMapping capacity} {front back : List MappingEntry}
    (equal : mapping.entries.toList = front ++ back) :
    ∃ initial : PdoMapping capacity, initial.entries.toList = front := by
  rcases BoundedVec.exists_front equal with ⟨entries, rfl⟩
  have bits : bitsOf entries.toList ≤ 64 := by
    have fits := mapping.bits_le
    simp only [equal, bitsOf, List.map_append, List.sum_append] at fits ⊢
    omega
  exact ⟨⟨entries, bits⟩, rfl⟩

theorem totalBytes_le (mapping : PdoMapping capacity) : mapping.totalBytes ≤ 8 := by
  have bits := mapping.bits_le
  simp only [totalBytes, totalBits]
  omega

theorem totalBits_le_of_totalBytes_le {mapping : PdoMapping capacity} {length : Nat}
    (long : mapping.totalBytes ≤ length) : bitsOf mapping.entries.toList ≤ 8 * length := by
  simp only [totalBytes, totalBits] at long
  omega

end PdoMapping

def byteWidth (bitLength : UInt8) : Except Error Nat :=
  if bitLength = 0 ∨ bitLength % 8 ≠ 0 then .error .unsupportedTransfer
  else .ok (bitLength / 8).toNat

theorem byteWidth_eq_ok_iff {bitLength : UInt8} {width : Nat} :
    byteWidth bitLength = .ok width ↔ 0 < width ∧ bitLength.toNat = 8 * width := by
  have remainder : bitLength % 8 = 0 ↔ bitLength.toNat % 8 = 0 := by
    rw [← UInt8.toNat_inj, UInt8.toNat_mod]
    rfl
  have zero : bitLength = 0 ↔ bitLength.toNat = 0 := by
    rw [← UInt8.toNat_inj]
    rfl
  have quotient : (bitLength / 8).toNat = bitLength.toNat / 8 := by
    rw [UInt8.toNat_div]
    rfl
  unfold byteWidth
  simp only [zero, ne_eq, remainder, quotient]
  split
  · next rejected =>
      constructor
      · intro equal
        cases equal
      · omega
  · next accepted =>
      simp only [Except.ok.injEq]
      omega

/-! ## Packing and unpacking -/

variable {K : Nat}

/-- Lay the objects of `entries` into `buf` from `offset` on. The result is the
offset behind the last of them, with the buffer as it is left. -/
def packFrom (od : ObjectDictionary K) {length : Nat} :
    List MappingEntry → Nat → Vector UInt8 length →
      Exec (Except Error Nat × Vector UInt8 length)
  | [], offset, buf => pure (.ok offset, buf)
  | entry :: entries, offset, buf =>
      match byteWidth entry.bitLength with
      | .error error => pure (.error error, buf)
      | .ok width =>
          match od.read entry.address with
          | .error error => pure (.error error, buf)
          | .ok value =>
              if value.dataType.isVariable ∨ value.size ≠ width then
                pure (.error .typeMismatch, buf)
              else do
                let (result, buf) ← value.encodeWindow buf offset (offset + width)
                match result with
                | .error error => pure (.error error, buf)
                | .ok _ => packFrom od entries (offset + width) buf

def pack {N : Nat} (mapping : PdoMapping N) (od : ObjectDictionary K) {length : Nat}
    (buf : Vector UInt8 length) : Exec (Except Error Nat × Vector UInt8 length) :=
  if length < mapping.totalBytes then pure (.error .badLength, buf)
  else packFrom od mapping.entries.toList 0 buf

/-- Write the fields of `data` from `offset` on to the objects of `entries`. The
fields before one that fails stay written. -/
def unpackFrom (data : List UInt8) :
    List MappingEntry → Nat → ObjectDictionary K →
      Exec (Except Error Unit × ObjectDictionary K)
  | [], _, od => pure (.ok (), od)
  | entry :: entries, offset, od =>
      match byteWidth entry.bitLength with
      | .error error => pure (.error error, od)
      | .ok width =>
          match od.entry entry.address with
          | none => pure (.error .objectNotFound, od)
          | some target =>
              let dataType := target.value.dataType
              if dataType.size ≠ width then pure (.error .typeMismatch, od)
              else do
                let field ← Exec.slice data offset (offset + width)
                match ← Value.decodeLe dataType field with
                | .error error => pure (.error error, od)
                | .ok value =>
                    match od.write entry.address value with
                    | .error error => pure (.error error, od)
                    | .ok od => unpackFrom data entries (offset + width) od

def unpack {N : Nat} (mapping : PdoMapping N) (od : ObjectDictionary K) (data : List UInt8) :
    Exec (Except Error Unit × ObjectDictionary K) :=
  if data.length < mapping.totalBytes then pure (.error .badLength, od)
  else unpackFrom data mapping.entries.toList 0 od

theorem bitsOf_cons_le {entry : MappingEntry} {entries : List MappingEntry}
    {offset width length : Nat} (isWidth : byteWidth entry.bitLength = .ok width)
    (fits : 8 * offset + bitsOf (entry :: entries) ≤ 8 * length) :
    offset + width ≤ length ∧ 8 * (offset + width) + bitsOf entries ≤ 8 * length := by
  have bits := (byteWidth_eq_ok_iff.mp isWidth).2
  simp only [bitsOf, List.map_cons, List.sum_cons] at fits ⊢
  omega

theorem packFrom_returns (od : ObjectDictionary K) {length : Nat}
    {entries : List MappingEntry} {offset : Nat} {buf : Vector UInt8 length}
    (fits : 8 * offset + bitsOf entries ≤ 8 * length) :
    ∃ result packed, packFrom od entries offset buf = pure (result, packed) ∧
      ∀ last, result = .ok last → last ≤ length := by
  induction entries generalizing offset buf with
  | nil =>
      refine ⟨.ok offset, buf, rfl, ?_⟩
      rintro last ⟨⟩
      simp only [bitsOf, List.map_nil, List.sum_nil] at fits
      omega
  | cons entry entries induction =>
      cases isWidth : byteWidth entry.bitLength with
      | error error => exact ⟨.error error, buf, by simp [packFrom, isWidth], by simp⟩
      | ok width =>
          rcases bitsOf_cons_le isWidth fits with ⟨within, remaining⟩
          cases reads : od.read entry.address with
          | error error => exact ⟨.error error, buf, by simp [packFrom, isWidth, reads], by simp⟩
          | ok value =>
              by_cases mismatch : value.dataType.isVariable ∨ value.size ≠ width
              · exact ⟨.error .typeMismatch, buf,
                  by simp only [packFrom, isWidth, reads, mismatch, if_true], by simp⟩
              · have sameSize : value.size = width := by
                  by_contra different
                  exact mismatch (.inr different)
                have encoded := value.encodeWindow_eq buf
                  (by rw [sameSize]) (show offset + width ≤ length from within)
                simp only [packFrom, isWidth, reads, mismatch, if_false, encoded, pure_bind]
                exact induction remaining

theorem unpackFrom_returns {data : List UInt8} {entries : List MappingEntry} {offset : Nat}
    {od : ObjectDictionary K} (fits : 8 * offset + bitsOf entries ≤ 8 * data.length) :
    ∃ result written, unpackFrom data entries offset od = pure (result, written) := by
  induction entries generalizing offset od with
  | nil => exact ⟨.ok (), od, rfl⟩
  | cons entry entries induction =>
      cases isWidth : byteWidth entry.bitLength with
      | error error => exact ⟨.error error, od, by simp [unpackFrom, isWidth]⟩
      | ok width =>
          rcases bitsOf_cons_le isWidth fits with ⟨within, remaining⟩
          cases present : od.entry entry.address with
          | none => exact ⟨.error .objectNotFound, od, by simp [unpackFrom, isWidth, present]⟩
          | some target =>
              by_cases sameSize : target.value.dataType.size = width
              · have field := Exec.slice_of_le data
                  (Nat.le_add_right offset width) within
                simp only [unpackFrom, isWidth, present, sameSize, ne_eq, not_true_eq_false,
                  if_false, field, pure_bind, Value.decodeLe_eq]
                split
                · exact ⟨_, _, rfl⟩
                · split
                  · exact ⟨_, _, rfl⟩
                  · exact induction remaining
              · exact ⟨.error .typeMismatch, od,
                  by simp [unpackFrom, isWidth, present, sameSize]⟩

theorem masterChange_unpackFrom {data : List UInt8} {entries : List MappingEntry}
    {offset : Nat} {od written : ObjectDictionary K} {result : Except Error Unit}
    (unpacked : unpackFrom data entries offset od = pure (result, written)) :
    ObjectDictionary.MasterChange od written := by
  induction entries generalizing offset od with
  | nil =>
      simp only [unpackFrom, Exec.pure_inj, Prod.mk.injEq] at unpacked
      exact unpacked.2 ▸ .refl od
  | cons entry entries induction =>
      have unchanged : ∀ {error : Except Error Unit},
          (pure (error, od) : Exec _) = pure (result, written) →
          ObjectDictionary.MasterChange od written := by
        intro error equal
        simp only [Exec.pure_inj, Prod.mk.injEq] at equal
        exact equal.2 ▸ .refl od
      simp only [unpackFrom] at unpacked
      split at unpacked
      · exact unchanged unpacked
      · split at unpacked
        · exact unchanged unpacked
        · split at unpacked
          · exact unchanged unpacked
          · rw [Exec.bind_eq_pure_iff] at unpacked
            rcases unpacked with ⟨field, -, unpacked⟩
            rw [Exec.bind_eq_pure_iff] at unpacked
            rcases unpacked with ⟨decoded, -, unpacked⟩
            split at unpacked
            · exact unchanged unpacked
            · split at unpacked
              · exact unchanged unpacked
              · next writes =>
                  exact (ObjectDictionary.masterChange_write writes).trans
                    (induction unpacked)

theorem pack_returns {N : Nat} (mapping : PdoMapping N) (od : ObjectDictionary K)
    {length : Nat} (buf : Vector UInt8 length) :
    ∃ result packed, pack mapping od buf = pure (result, packed) ∧
      ∀ last, result = .ok last → last ≤ length := by
  unfold pack
  split
  · exact ⟨.error .badLength, buf, rfl, by simp⟩
  · next room =>
      have bits := PdoMapping.totalBits_le_of_totalBytes_le (Nat.not_lt.mp room)
      exact packFrom_returns od (by omega)

theorem unpack_returns {N : Nat} (mapping : PdoMapping N) (od : ObjectDictionary K)
    (data : List UInt8) :
    ∃ result written, unpack mapping od data = pure (result, written) := by
  unfold unpack
  split
  · exact ⟨.error .badLength, od, rfl⟩
  · next room =>
      have bits := PdoMapping.totalBits_le_of_totalBytes_le (Nat.not_lt.mp room)
      exact unpackFrom_returns (by omega)

theorem masterChange_unpack {N : Nat} {mapping : PdoMapping N}
    {od written : ObjectDictionary K} {data : List UInt8} {result : Except Error Unit}
    (unpacked : unpack mapping od data = pure (result, written)) :
    ObjectDictionary.MasterChange od written := by
  unfold unpack at unpacked
  split at unpacked
  · simp only [Exec.pure_inj, Prod.mk.injEq] at unpacked
    exact unpacked.2 ▸ .refl od
  · exact masterChange_unpackFrom unpacked

end CanOpen
