import CanOpen.Foundation.LittleEndian
import CanOpen.Types

/-! # Emergency messages -/

namespace CanOpen

def emcyCobBase : UInt16 := 0x080

def emcyCobId (node : NodeId) : UInt16 := emcyCobBase + node.raw.toUInt16

structure ErrorRegister where
  bits : UInt8
  deriving DecidableEq, Repr

namespace ErrorRegister

def generic : UInt8 := 0x01

def none : ErrorRegister := ⟨0⟩

def contains (register : ErrorRegister) (bits : UInt8) : Bool := register.bits &&& bits = bits

def hasError (register : ErrorRegister) : Bool := register.bits ≠ 0

end ErrorRegister

/-- An emergency error code, the register at the time of the event and five
bytes of manufacturer-specific information. -/
structure EmergencyMessage where
  errorCode : UInt16
  errorRegister : ErrorRegister
  vendorSpecific : Vector UInt8 5
  deriving DecidableEq, Repr

namespace EmergencyMessage

def errorReset : EmergencyMessage := ⟨0x0000, .none, #v[0, 0, 0, 0, 0]⟩

def isErrorReset (message : EmergencyMessage) : Bool := message.errorCode = 0x0000

def encode (message : EmergencyMessage) : Vector UInt8 8 :=
  #v[LittleEndian.byteAt message.errorCode.toNat 0,
    LittleEndian.byteAt message.errorCode.toNat 1, message.errorRegister.bits,
    message.vendorSpecific[0], message.vendorSpecific[1], message.vendorSpecific[2],
    message.vendorSpecific[3], message.vendorSpecific[4]]

def decode : List UInt8 → Except Error EmergencyMessage
  | [low, high, register, first, second, third, fourth, fifth] =>
      .ok ⟨UInt16.ofNat (LittleEndian.decode [low, high]), ⟨register⟩,
        #v[first, second, third, fourth, fifth]⟩
  | _ => .error .badLength

theorem decode_encode (message : EmergencyMessage) :
    decode message.encode.toList = .ok message := by
  have specific : #v[message.vendorSpecific[0], message.vendorSpecific[1],
      message.vendorSpecific[2], message.vendorSpecific[3], message.vendorSpecific[4]] =
      message.vendorSpecific := by
    ext position within
    match position, within with
    | 0, _ | 1, _ | 2, _ | 3, _ | 4, _ => rfl
  have decoded : decode message.encode.toList =
      .ok ⟨UInt16.ofNat (LittleEndian.decode [LittleEndian.byteAt message.errorCode.toNat 0,
        LittleEndian.byteAt message.errorCode.toNat 1]), message.errorRegister,
        #v[message.vendorSpecific[0], message.vendorSpecific[1], message.vendorSpecific[2],
          message.vendorSpecific[3], message.vendorSpecific[4]]⟩ := rfl
  rw [decoded, LittleEndian.decode_byteAt_uInt16, UInt16.ofNat_toNat, specific]

end EmergencyMessage

end CanOpen
