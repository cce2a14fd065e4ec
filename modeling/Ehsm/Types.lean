import Ehsm.Reactive.Loops

/-!
# Shared types

Status codes, algorithms, permission flags, keys and slot records, as the
headers of `ehsm::types` declare them.  Fixed-width fields keep their width;
`size_t` is a natural number, since no size in the firmware is computed.
-/

namespace Ehsm

open Reactive

/-- Status codes.  A `Status` object is one code and nothing else, so the code
stands for the object. -/
inductive StatusCode where
  | ok
  | errInvalidParam
  | errInsufficientBuffer
  | errCryptoFailed
  | errSessionInvalid
  | errNotInitialized
  | errKeySlotFull
  | errInvalidKeyId
  | errAuthFailed
  | errQueueFull
  | errHardware
  | errUnsupported
  | errTimeout
  | errInternal
  | errBusy
  deriving DecidableEq, Repr

abbrev Status := StatusCode

def StatusCode.isOk (code : StatusCode) : Bool := code == .ok

@[simp] theorem StatusCode.isOk_ok : StatusCode.ok.isOk = true := rfl

theorem StatusCode.isOk_of_ne {code : StatusCode} (h : code ≠ .ok) : code.isOk = false := by
  simp [StatusCode.isOk, h]

/-- Supported algorithms.  The codes `0` to `7` have a name; `unnamed code` is the byte
`8 + code`, which the enumeration can hold too. -/
inductive Algorithm where
  | none
  | aes128
  | aes256
  | rsa2048
  | rsa4096
  | eccP256
  | sha256
  | chacha20
  | unnamed (code : Fin 248)
  deriving DecidableEq, Repr

/-- Key size in bytes, `0` if unknown or variable. -/
def getKeySizeForAlgorithm : Algorithm → Nat
  | .aes128 => 16
  | .aes256 | .chacha20 => 32
  | .rsa2048 => 256
  | .rsa4096 => 512
  | .eccP256 => 32
  | _ => 0

/-- Key permission flags. -/
inductive KeyPermission where
  | none
  | encrypt
  | decrypt
  | sign
  | verify
  | exporting
  | all
  deriving DecidableEq, Repr

/-- The bit pattern of a permission flag. -/
def KeyPermission.toByte : KeyPermission → UInt8
  | .none => 0x00
  | .encrypt => 0x01
  | .decrypt => 0x02
  | .sign => 0x04
  | .verify => 0x08
  | .exporting => 0x10
  | .all => 0xFF

/-! ## Sizes -/

abbrev kMaxKeySize : Nat := 64

abbrev kMaxKeySlots : Nat := 8

abbrev kMaxSessions : Nat := 4

abbrev SessionId := UInt32

abbrev kInvalidSessionId : SessionId := 0xFFFFFFFF

/-! ## Keys and slot records -/

/-- Key storage; the field defaults are the default constructor. -/
structure Key where
  data : Fin kMaxKeySize → UInt8 := fun _ => 0
  size : Nat := 0
  algorithm : Algorithm := .none

/-- Overwrite every byte of the buffer, then reset the other fields. -/
def Key.secureClear (key : Key) : Key where
  data := sweep (fun _ _ => 0) key.data
  size := 0
  algorithm := .none

/-- A cleared key is a default-constructed one: no byte survives. -/
@[simp] theorem Key.secureClear_eq (key : Key) : key.secureClear = {} := by
  simp [Key.secureClear, sweep_eq]

/-- Public record of a slot; the field defaults are the default constructor. -/
structure KeySlotInfo where
  id : UInt8 := 0
  isOccupied : Bool := false
  algorithm : Algorithm := .none
  permissions : UInt8 := 0
  keySize : Nat := 0
  deriving DecidableEq, Repr

end Ehsm
