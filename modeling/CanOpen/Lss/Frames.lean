import CanOpen.Foundation.Exec
import CanOpen.Foundation.LittleEndian
import Mathlib.Data.Prod.Lex

/-! # LSS addresses and frames -/

namespace CanOpen.Lss

def lssMasterCobId : UInt16 := 0x7E5
def lssSlaveCobId : UInt16 := 0x7E4

abbrev LssFrame := Vector UInt8 8

def unconfiguredNodeId : UInt8 := 0xFF

/-! ## Command specifiers -/

def csSwitchGlobal : UInt8 := 0x04
def csConfigureNodeId : UInt8 := 0x11
def csStoreConfiguration : UInt8 := 0x17
def csSwitchSelectiveVendor : UInt8 := 0x40
def csSwitchSelectiveProduct : UInt8 := 0x41
def csSwitchSelectiveRevision : UInt8 := 0x42
def csSwitchSelectiveSerial : UInt8 := 0x43
def csSwitchSelectiveResponse : UInt8 := 0x44
def csInquireVendor : UInt8 := 0x5A
def csInquireProduct : UInt8 := 0x5B
def csInquireRevision : UInt8 := 0x5C
def csInquireSerial : UInt8 := 0x5D
def csInquireNodeId : UInt8 := 0x5E
def csIdentifySlave : UInt8 := 0x4F
def csFastscan : UInt8 := 0x51

def modeWaiting : UInt8 := 0
def modeConfiguration : UInt8 := 1

def fastscanInit : UInt8 := 32

/-! ## Addresses -/

structure LssAddress where
  vendorId : UInt32
  productCode : UInt32
  revisionNumber : UInt32
  serialNumber : UInt32
  deriving Repr

namespace LssAddress

def identity (address : LssAddress) (sub : Nat) : UInt32 :=
  if sub = 0 then address.vendorId
  else if sub = 1 then address.productCode
  else if sub = 2 then address.revisionNumber
  else address.serialNumber

def key (address : LssAddress) : Nat ×ₗ Nat ×ₗ Nat ×ₗ Nat :=
  toLex (address.vendorId.toNat, toLex (address.productCode.toNat,
    toLex (address.revisionNumber.toNat, address.serialNumber.toNat)))

theorem key_injective : Function.Injective key := by
  rintro ⟨vendor, product, revision, serial⟩ ⟨vendor', product', revision', serial'⟩ equal
  simp only [key, EmbeddingLike.apply_eq_iff_eq, Prod.mk.injEq, UInt32.toNat_inj] at equal
  rcases equal with ⟨rfl, rfl, rfl, rfl⟩
  rfl

instance : LinearOrder LssAddress := LinearOrder.lift' key key_injective

theorem le_iff {left right : LssAddress} :
    left ≤ right ↔ left.vendorId.toNat < right.vendorId.toNat ∨
      left.vendorId = right.vendorId ∧
        (left.productCode.toNat < right.productCode.toNat ∨
          left.productCode = right.productCode ∧
            (left.revisionNumber.toNat < right.revisionNumber.toNat ∨
              left.revisionNumber = right.revisionNumber ∧
                left.serialNumber.toNat ≤ right.serialNumber.toNat)) := by
  show key left ≤ key right ↔ _
  simp only [key, Prod.Lex.toLex_le_toLex, UInt32.toNat_inj]

end LssAddress

/-! ## Frame layout -/

def frame (cs : UInt8) : LssFrame := #v[cs, 0, 0, 0, 0, 0, 0, 0]

def frameByte (cs byte : UInt8) : LssFrame := (frame cs).set 1 byte

def frameU32 (cs : UInt8) (value : UInt32) : LssFrame :=
  #v[cs, LittleEndian.byteAt value.toNat 0, LittleEndian.byteAt value.toNat 1,
    LittleEndian.byteAt value.toNat 2, LittleEndian.byteAt value.toNat 3, 0, 0, 0]

def u32At (f : LssFrame) : UInt32 :=
  UInt32.ofNat (LittleEndian.decode [f.get 1, f.get 2, f.get 3, f.get 4])

/-! ## Master-side encoders -/

def encodeSwitchGlobal (configuration : Bool) : LssFrame :=
  frameByte csSwitchGlobal (if configuration then modeConfiguration else modeWaiting)

def encodeSwitchSelective (address : LssAddress) : List LssFrame :=
  [frameU32 csSwitchSelectiveVendor address.vendorId,
    frameU32 csSwitchSelectiveProduct address.productCode,
    frameU32 csSwitchSelectiveRevision address.revisionNumber,
    frameU32 csSwitchSelectiveSerial address.serialNumber]

def encodeConfigureNodeId (nodeId : UInt8) : LssFrame :=
  frameByte csConfigureNodeId nodeId

def encodeStore : LssFrame := frame csStoreConfiguration

def encodeInquireNodeId : LssFrame := frame csInquireNodeId

/-- A Fastscan request: the candidate value, the bit being probed, the identity
value under scan and the one to move to. -/
def encodeFastscan (idNumber : UInt32) (bitCheck lssSub lssNext : UInt8) : LssFrame :=
  (((frameU32 csFastscan idNumber).set 5 bitCheck).set 6 lssSub).set 7 lssNext

/-! ## Master-side response decoders -/

def isSwitchSelectiveResponse (response : LssFrame) : Bool :=
  response.get 0 == csSwitchSelectiveResponse

def decodeConfigureNodeIdResponse (response : LssFrame) : Option (Except UInt8 Unit) :=
  if response.get 0 ≠ csConfigureNodeId then none
  else some (if response.get 1 = 0 then .ok () else .error (response.get 1))

def decodeInquireNodeIdResponse (response : LssFrame) : Option UInt8 :=
  if response.get 0 = csInquireNodeId then some (response.get 1) else none

def isIdentifySlaveResponse (response : LssFrame) : Bool :=
  response.get 0 == csIdentifySlave

/-! ## What the frames carry -/

@[simp] theorem u32At_frameU32 (cs : UInt8) (value : UInt32) :
    u32At (frameU32 cs value) = value := by
  have field : u32At (frameU32 cs value) =
      UInt32.ofNat (LittleEndian.decode [LittleEndian.byteAt value.toNat 0,
        LittleEndian.byteAt value.toNat 1, LittleEndian.byteAt value.toNat 2,
        LittleEndian.byteAt value.toNat 3]) := rfl
  rw [field, LittleEndian.decode_byteAt_uInt32, UInt32.ofNat_toNat]

theorem encodeFastscan_fields (idNumber : UInt32) (bitCheck lssSub lssNext : UInt8) :
    let f := encodeFastscan idNumber bitCheck lssSub lssNext
    f.get 0 = csFastscan ∧ u32At f = idNumber ∧ f.get 5 = bitCheck ∧ f.get 6 = lssSub ∧
      f.get 7 = lssNext :=
  ⟨rfl, u32At_frameU32 csFastscan idNumber, rfl, rfl, rfl⟩

end CanOpen.Lss
