import Ehsm.Interfaces

/-!
# The crypto service

`CryptoService` of `src/services/crypto/crypto_service.cpp`.  It fetches the key
of the named slot, which validates the slot, and hands the buffers to its cipher
strategy.  The strategies have no parameter for a key: the fetched one is wiped
unused, and its size is never compared with what the strategy announces.
-/

namespace Ehsm

/-- The injected dependencies, either of which may be a null pointer. -/
structure CryptoService (W : Type*) where
  keystore : Option (IKeystoreService W)
  algorithm : Option ICryptoAlgorithm

namespace CryptoService

variable {W : Type*}

def init (w : W) : Status × W := (.ok, w)

def deinit (w : W) : Status × W := (.ok, w)

/-- The body shared by `encrypt` and `decrypt`, for the strategy function each of
them calls.  The local copy of the key dies with the call, so clearing it leaves
nothing to record. -/
def crypt (service : CryptoService W)
    (transform : ICryptoAlgorithm → Span → Span → Memory → Status × Memory)
    (input output : Span) (keySlotId : UInt8) (mem : Memory) (w : W) : Status × Memory × W :=
  match service.algorithm with
  | none => (.errInvalidParam, mem, w)
  | some algorithm =>
      if BadBuffers input output then (.errInsufficientBuffer, mem, w)
      else
        match service.keystore with
        | none => (.errNotInitialized, mem, w)
        | some keystore =>
            let (status, _key, w) := keystore.getKey keySlotId {} w
            if !status.isOk then (status, mem, w)
            else
              let (status, mem) := transform algorithm input output mem
              (status, mem, w)

def encrypt (service : CryptoService W) (input output : Span) (keySlotId : UInt8)
    (mem : Memory) (w : W) : Status × Memory × W :=
  service.crypt (·.encrypt) input output keySlotId mem w

def decrypt (service : CryptoService W) (input output : Span) (keySlotId : UInt8)
    (mem : Memory) (w : W) : Status × Memory × W :=
  service.crypt (·.decrypt) input output keySlotId mem w

/-- Hashing is not implemented. -/
def hash (_algorithm : Algorithm) (_input _output : Span) (mem : Memory) (w : W) :
    Status × Memory × W :=
  (.errUnsupported, mem, w)

def getAlgorithmType (service : CryptoService W) : Algorithm :=
  match service.algorithm with
  | some algorithm => algorithm.getAlgorithmType
  | none => .none

/-- The service behind its interface. -/
def toInterface (service : CryptoService W) : ICryptoService W where
  init := init
  deinit := deinit
  encrypt := service.encrypt
  decrypt := service.decrypt
  hash := hash

/-! ## What the shared body does -/

section

variable {keystore : IKeystoreService W} {algorithm : ICryptoAlgorithm}
  {transform : ICryptoAlgorithm → Span → Span → Memory → Status × Memory}
  {input output : Span} {keySlotId : UInt8} {mem : Memory} {w : W}

/-- With both dependencies and fitting buffers, a key that is found leaves the
outcome to the strategy. -/
theorem crypt_of_key {key : Key} {w' : W} (hbuf : ¬ BadBuffers input output)
    (hkey : keystore.getKey keySlotId {} w = (.ok, key, w')) :
    (⟨some keystore, some algorithm⟩ : CryptoService W).crypt transform input output keySlotId
        mem w =
      ((transform algorithm input output mem).1, (transform algorithm input output mem).2, w') := by
  simp only [crypt, if_neg hbuf, hkey]
  rfl

end

end CryptoService

end Ehsm
