import Ehsm.Interfaces
import Ehsm.Reactive.Machine

/-!
# The facade

`HsmApiImpl` of `src/api/hsm_api_impl.cpp`, over any three services.  The facade
itself stores one flag.  It is raised only where the three pointers were checked,
so the flag carries the proof that none of them is null, and the guarded
operations dereference them with that proof.

`encrypt` and `decrypt` differ in the permission they ask for and the service
function they call.
-/

namespace Ehsm

open Reactive

variable {W : Type*}

/-- The injected pointers. -/
structure Services (W : Type*) where
  sessionManager : Option (ISessionManager W)
  cryptoService : Option (ICryptoService W)
  keystoreService : Option (IKeystoreService W)

/-- No pointer is null. -/
structure Services.Wired (svc : Services W) : Prop where
  sessionManager : svc.sessionManager.isSome = true
  cryptoService : svc.cryptoService.isSome = true
  keystoreService : svc.keystoreService.isSome = true

instance (svc : Services W) : Decidable svc.Wired :=
  decidable_of_iff
    (svc.sessionManager.isSome = true ∧ svc.cryptoService.isSome = true ∧
      svc.keystoreService.isSome = true)
    ⟨fun h => ⟨h.1, h.2.1, h.2.2⟩, fun h => ⟨h.1, h.2, h.3⟩⟩

/-- The facade: its flag, raised only over wired services. -/
@[ext]
structure HsmApiImpl (svc : Services W) where
  isInitialized : Bool
  wired : isInitialized = true → svc.Wired

namespace HsmApiImpl

variable {svc : Services W}

def kVersionString : String := "1.0.0"

def construct (svc : Services W) : HsmApiImpl svc where
  isInitialized := false
  wired := fun h => nomatch h

def init (api : HsmApiImpl svc) (w : W) : Status × HsmApiImpl svc × W :=
  if api.isInitialized then (.ok, api, w)
  else if h : svc.Wired then
    let (status, w) := chain
      [ (svc.sessionManager.get h.sessionManager).init,
        (svc.keystoreService.get h.keystoreService).init,
        (svc.cryptoService.get h.cryptoService).init ] w
    if !status.isOk then (status, api, w)
    else (.ok, ⟨true, fun _ => h⟩, w)
  else (.errNotInitialized, api, w)

def deinit (api : HsmApiImpl svc) (w : W) : Status × HsmApiImpl svc × W :=
  if h : api.isInitialized = true then
    let (status, w) := chain
      [ (svc.cryptoService.get (api.wired h).cryptoService).deinit,
        (svc.keystoreService.get (api.wired h).keystoreService).deinit,
        (svc.sessionManager.get (api.wired h).sessionManager).deinit ] w
    if !status.isOk then (status, api, w)
    else (.ok, construct svc, w)
  else (.errNotInitialized, api, w)

def isReady (api : HsmApiImpl svc) : Bool := api.isInitialized

def createSession (api : HsmApiImpl svc) (sessionId : SessionId) (w : W) :
    Status × SessionId × W :=
  if h : api.isInitialized = true then
    (svc.sessionManager.get (api.wired h).sessionManager).createSession sessionId w
  else (.errNotInitialized, sessionId, w)

def closeSession (api : HsmApiImpl svc) (sessionId : SessionId) (w : W) : Status × W :=
  if h : api.isInitialized = true then
    (svc.sessionManager.get (api.wired h).sessionManager).closeSession sessionId w
  else (.errNotInitialized, w)

def isSessionValid (api : HsmApiImpl svc) (sessionId : SessionId) (w : W) : Bool :=
  if h : api.isInitialized = true then
    (svc.sessionManager.get (api.wired h).sessionManager).isSessionValid sessionId w
  else false

/-- The body shared by `encrypt` and `decrypt`, for the permission each of them
requires and the service function it calls.  The requested algorithm is dropped
here, as in the source. -/
def crypt (api : HsmApiImpl svc) (required : KeyPermission)
    (serve : ICryptoService W → Span → Span → UInt8 → Memory → W → Status × Memory × W)
    (sessionId : SessionId) (keySlotId : UInt8) (_algorithm : Algorithm) (input output : Span)
    (mem : Memory) (w : W) : Status × Memory × W :=
  if h : api.isInitialized = true then
    if BadBuffers input output then (.errInvalidParam, mem, w)
    else if !api.isSessionValid sessionId w then (.errSessionInvalid, mem, w)
    else if kMaxKeySlots ≤ keySlotId.toNat then (.errInvalidKeyId, mem, w)
    else
      let (status, info, w) :=
        (svc.keystoreService.get (api.wired h).keystoreService).getSlotInfo keySlotId {} w
      if !status.isOk then (status, mem, w)
      else if info.permissions &&& required.toByte = 0 then (.errAuthFailed, mem, w)
      else
        serve (svc.cryptoService.get (api.wired h).cryptoService) input output keySlotId mem w
  else (.errNotInitialized, mem, w)

def encrypt (api : HsmApiImpl svc) (sessionId : SessionId) (keySlotId : UInt8)
    (algorithm : Algorithm) (input output : Span) (mem : Memory) (w : W) :
    Status × Memory × W :=
  api.crypt .encrypt (·.encrypt) sessionId keySlotId algorithm input output mem w

def decrypt (api : HsmApiImpl svc) (sessionId : SessionId) (keySlotId : UInt8)
    (algorithm : Algorithm) (input output : Span) (mem : Memory) (w : W) :
    Status × Memory × W :=
  api.crypt .decrypt (·.decrypt) sessionId keySlotId algorithm input output mem w

def importKey (api : HsmApiImpl svc) (keySlotId : UInt8) (algorithm : Algorithm)
    (keyData : List UInt8) (permissions : UInt8) (w : W) : Status × W :=
  if h : api.isInitialized = true then
    (svc.keystoreService.get (api.wired h).keystoreService).importKey keySlotId algorithm
      keyData permissions w
  else (.errNotInitialized, w)

def deleteKey (api : HsmApiImpl svc) (keySlotId : UInt8) (w : W) : Status × W :=
  if h : api.isInitialized = true then
    (svc.keystoreService.get (api.wired h).keystoreService).deleteKey keySlotId w
  else (.errNotInitialized, w)

def getKeySlotInfo (api : HsmApiImpl svc) (keySlotId : UInt8) (info : KeySlotInfo) (w : W) :
    Status × KeySlotInfo × W :=
  if h : api.isInitialized = true then
    (svc.keystoreService.get (api.wired h).keystoreService).getSlotInfo keySlotId info w
  else (.errNotInitialized, info, w)

def clearAllKeys (api : HsmApiImpl svc) (w : W) : Status × W :=
  if h : api.isInitialized = true then
    (svc.keystoreService.get (api.wired h).keystoreService).clearAll w
  else (.errNotInitialized, w)

def getVersion (_api : HsmApiImpl svc) : String := kVersionString

/-! ### Starting -/

/-- The calls of `init` on services, in order. -/
def startCalls (h : svc.Wired) : List (W → Status × W) :=
  [ (svc.sessionManager.get h.sessionManager).init,
    (svc.keystoreService.get h.keystoreService).init,
    (svc.cryptoService.get h.cryptoService).init ]

/-- The three cases of `init` on wired services: nothing to do, a start that fails
and leaves the flag down, a start that succeeds. -/
theorem init_cases (api : HsmApiImpl svc) (h : svc.Wired) (w : W) :
    (api.isInitialized = true ∧ api.init w = (.ok, api, w)) ∨
      (api.isInitialized = false ∧ (chain (startCalls h) w).1 ≠ .ok ∧
        api.init w = ((chain (startCalls h) w).1, api, (chain (startCalls h) w).2)) ∨
      (api.isInitialized = false ∧ (chain (startCalls h) w).1 = .ok ∧
        api.init w = (.ok, ⟨true, fun _ => h⟩, (chain (startCalls h) w).2)) := by
  unfold HsmApiImpl.init
  cases hflag : api.isInitialized with
  | true => exact .inl ⟨rfl, rfl⟩
  | false =>
      right
      rw [if_neg (by decide), dif_pos h]
      show (_ ∧ _ ∧ (if !(chain (startCalls h) w).1.isOk then _ else _) = _) ∨
        (_ ∧ _ ∧ (if !(chain (startCalls h) w).1.isOk then _ else _) = _)
      by_cases hok : (chain (startCalls h) w).1 = .ok
      · right
        exact ⟨rfl, hok, if_neg (by simp [hok])⟩
      · left
        exact ⟨rfl, hok, if_pos (by simp [StatusCode.isOk_of_ne hok])⟩

/-! ### Requests -/

section

variable {api : HsmApiImpl svc} {required : KeyPermission}
  {serve : ICryptoService W → Span → Span → UInt8 → Memory → W → Status × Memory × W}
  {sessionId : SessionId} {keySlotId : UInt8} {algorithm : Algorithm} {input output : Span}
  {mem : Memory} {w : W}

/-- Past the buffers and the session. -/
theorem crypt_of_session (hready : api.isInitialized = true) (hbuffers : ¬ BadBuffers input output)
    (hsession : api.isSessionValid sessionId w = true) (hslot : keySlotId.toNat < kMaxKeySlots) :
    api.crypt required serve sessionId keySlotId algorithm input output mem w =
      let info := (svc.keystoreService.get (api.wired hready).keystoreService).getSlotInfo
        keySlotId {} w
      if !info.1.isOk then (info.1, mem, info.2.2)
      else if info.2.1.permissions &&& required.toByte = 0 then (.errAuthFailed, mem, info.2.2)
      else
        serve (svc.cryptoService.get (api.wired hready).cryptoService) input output keySlotId mem
          info.2.2 := by
  rw [crypt, dif_pos hready, if_neg hbuffers, hsession, if_neg (by decide),
    if_neg (Nat.not_le.mpr hslot)]

/-- Past the slot, on the record that the key store shows of it. -/
theorem crypt_of_record (hready : api.isInitialized = true) (hbuffers : ¬ BadBuffers input output)
    (hsession : api.isSessionValid sessionId w = true) (hslot : keySlotId.toNat < kMaxKeySlots)
    {info : KeySlotInfo} {w' : W}
    (hinfo : (svc.keystoreService.get (api.wired hready).keystoreService).getSlotInfo keySlotId {}
      w = (.ok, info, w')) :
    api.crypt required serve sessionId keySlotId algorithm input output mem w =
      if info.permissions &&& required.toByte = 0 then (.errAuthFailed, mem, w')
      else
        serve (svc.cryptoService.get (api.wired hready).cryptoService) input output keySlotId mem
          w' := by
  rw [crypt_of_session hready hbuffers hsession hslot, hinfo]
  exact if_neg (by simp)

end

end HsmApiImpl

/-! ## The facade as a machine -/

/-- What happens at the API boundary: the calls of `IHsmApi`, with the values
their out-parameters have before, and the caller's writes to its own memory. -/
inductive Event where
  | init
  | deinit
  | isReady
  | createSession (sessionId : SessionId)
  | closeSession (sessionId : SessionId)
  | isSessionValid (sessionId : SessionId)
  | encrypt (sessionId : SessionId) (keySlotId : UInt8) (algorithm : Algorithm)
      (input output : Span)
  | decrypt (sessionId : SessionId) (keySlotId : UInt8) (algorithm : Algorithm)
      (input output : Span)
  | importKey (keySlotId : UInt8) (algorithm : Algorithm) (keyData : List UInt8)
      (permissions : UInt8)
  | deleteKey (keySlotId : UInt8)
  | getKeySlotInfo (keySlotId : UInt8) (info : KeySlotInfo)
  | clearAllKeys
  | getVersion
  | store (address : Nat) (byte : UInt8)
  deriving DecidableEq, Repr

/-- What the caller gets back, its memory apart. -/
inductive Answer where
  | status (status : Status)
  | session (status : Status) (sessionId : SessionId)
  | info (status : Status) (info : KeySlotInfo)
  | truth (answer : Bool)
  | version (text : String)
  | stored
  deriving DecidableEq, Repr

/-- The facade, the caller's memory, and the world of the services. -/
structure Hsm (svc : Services W) where
  api : HsmApiImpl svc
  memory : Memory
  world : W

namespace Hsm

variable {svc : Services W}

/-- An operation that changes the world only. -/
def setWorld (hsm : Hsm svc) (w : W) : Hsm svc := { hsm with world := w }

def step : Event → Hsm svc → Answer × Hsm svc
  | .init, hsm =>
      let (status, api, w) := hsm.api.init hsm.world
      (.status status, { hsm with api := api, world := w })
  | .deinit, hsm =>
      let (status, api, w) := hsm.api.deinit hsm.world
      (.status status, { hsm with api := api, world := w })
  | .isReady, hsm => (.truth hsm.api.isReady, hsm)
  | .createSession sessionId, hsm =>
      let (status, sessionId, w) := hsm.api.createSession sessionId hsm.world
      (.session status sessionId, hsm.setWorld w)
  | .closeSession sessionId, hsm =>
      let (status, w) := hsm.api.closeSession sessionId hsm.world
      (.status status, hsm.setWorld w)
  | .isSessionValid sessionId, hsm =>
      (.truth (hsm.api.isSessionValid sessionId hsm.world), hsm)
  | .encrypt sessionId keySlotId algorithm input output, hsm =>
      let (status, mem, w) := hsm.api.encrypt sessionId keySlotId algorithm input output
        hsm.memory hsm.world
      (.status status, { hsm with memory := mem, world := w })
  | .decrypt sessionId keySlotId algorithm input output, hsm =>
      let (status, mem, w) := hsm.api.decrypt sessionId keySlotId algorithm input output
        hsm.memory hsm.world
      (.status status, { hsm with memory := mem, world := w })
  | .importKey keySlotId algorithm keyData permissions, hsm =>
      let (status, w) := hsm.api.importKey keySlotId algorithm keyData permissions hsm.world
      (.status status, hsm.setWorld w)
  | .deleteKey keySlotId, hsm =>
      let (status, w) := hsm.api.deleteKey keySlotId hsm.world
      (.status status, hsm.setWorld w)
  | .getKeySlotInfo keySlotId info, hsm =>
      let (status, info, w) := hsm.api.getKeySlotInfo keySlotId info hsm.world
      (.info status info, hsm.setWorld w)
  | .clearAllKeys, hsm =>
      let (status, w) := hsm.api.clearAllKeys hsm.world
      (.status status, hsm.setWorld w)
  | .getVersion, hsm => (.version hsm.api.getVersion, hsm)
  | .store address byte, hsm =>
      (.stored, { hsm with memory := hsm.memory.write address byte })

def machine (svc : Services W) : Machine (Hsm svc) Event Answer := ⟨step⟩

/-- The facade as constructed, over services in some world and a caller memory. -/
def boot (svc : Services W) (mem : Memory) (w : W) : Hsm svc where
  api := .construct svc
  memory := mem
  world := w

end Hsm

end Ehsm
