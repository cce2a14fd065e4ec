import Ehsm.Api.Lifecycle
import Ehsm.Crypto.Service
import Ehsm.Session.Manager
import Ehsm.Keystore.Map

/-!
# The wired firmware

The composition root of `main.cpp`: one session manager, one key store that the
facade and the crypto service share, and a cipher strategy.  The world of the
facade is then the pair of the two stateful services.

Along every run the facade's flag and the flags of the two services agree
(`Sound`), so the facade's guards refuse nothing that the services would not have
refused with the same code, and past the facade's own checks no later one can
fail.  `step_eq_direct` states this as an equation: on a sound state each call is
`direct`, which has no guard, no null pointer and no nested error path.

## Main results

* `World.sessionManager_followsLifecycle`, `World.keystoreService_followsLifecycle`
  — the stateful services keep the lifecycle contract.
* `WiredHsm.step_eq_direct` — what each call does to a sound state.
-/

namespace Ehsm

open Reactive

/-! ## Composition root -/

/-- The two stateful services. -/
structure World where
  sessions : SessionManager
  keystore : KeystoreService

namespace World

def sessionManager : ISessionManager World where
  init := fun w => (w.sessions.init.1, { w with sessions := w.sessions.init.2 })
  deinit := fun w => (w.sessions.deinit.1, { w with sessions := w.sessions.deinit.2 })
  createSession := fun sessionId w =>
    ((w.sessions.createSession sessionId).1, (w.sessions.createSession sessionId).2.1,
      { w with sessions := (w.sessions.createSession sessionId).2.2 })
  closeSession := fun sessionId w =>
    ((w.sessions.closeSession sessionId).1,
      { w with sessions := (w.sessions.closeSession sessionId).2 })
  isSessionValid := fun sessionId w => w.sessions.isSessionValid sessionId

def keystoreService : IKeystoreService World where
  init := fun w => (w.keystore.init.1, { w with keystore := w.keystore.init.2 })
  deinit := fun w => (w.keystore.deinit.1, { w with keystore := w.keystore.deinit.2 })
  importKey := fun keySlotId algorithm keyData permissions w =>
    ((w.keystore.importKey keySlotId algorithm keyData permissions).1,
      { w with keystore := (w.keystore.importKey keySlotId algorithm keyData permissions).2 })
  deleteKey := fun keySlotId w =>
    ((w.keystore.deleteKey keySlotId).1,
      { w with keystore := (w.keystore.deleteKey keySlotId).2 })
  getKey := fun keySlotId key w =>
    ((w.keystore.getKey keySlotId key).1, (w.keystore.getKey keySlotId key).2.1,
      { w with keystore := (w.keystore.getKey keySlotId key).2.2 })
  getSlotInfo := fun keySlotId info w =>
    ((w.keystore.getSlotInfo keySlotId info).1, (w.keystore.getSlotInfo keySlotId info).2.1,
      { w with keystore := (w.keystore.getSlotInfo keySlotId info).2.2 })
  clearAll := fun w => (w.keystore.clearAll.1, { w with keystore := w.keystore.clearAll.2 })
  isSlotOccupied := fun keySlotId w => w.keystore.isSlotOccupied keySlotId

def cryptoService (strategy : Strategy) : CryptoService World where
  keystore := some keystoreService
  algorithm := some strategy.algorithm

def services (strategy : Strategy) : Services World where
  sessionManager := some sessionManager
  cryptoService := some (cryptoService strategy).toInterface
  keystoreService := some keystoreService

theorem services_wired (strategy : Strategy) : (services strategy).Wired := ⟨rfl, rfl, rfl⟩

/-! The two stateful services follow the lifecycle contract.  The crypto service
does not: it has no state, and its `deinit` always succeeds. -/

def up (w : World) : Service → Bool
  | .session => w.sessions.isInitialized
  | .keystore => w.keystore.isInitialized
  | .crypto => true

theorem sessionManager_switched :
    Switched SessionManager.isInitialized SessionManager.init SessionManager.deinit where
  init_up := SessionManager.init_of_initialized
  init_down := by
    intro sm h
    rw [SessionManager.init_of_not_initialized sm h]
    exact ⟨rfl, rfl⟩
  deinit_down := SessionManager.deinit_of_not_initialized
  deinit_up := by
    intro sm h
    rw [SessionManager.deinit_of_initialized sm h]
    exact ⟨rfl, rfl⟩

theorem keystoreService_switched :
    Switched KeystoreService.isInitialized KeystoreService.init KeystoreService.deinit where
  init_up := KeystoreService.init_of_initialized
  init_down := by
    intro ks h
    rw [KeystoreService.init_of_not_initialized ks h]
    exact ⟨rfl, rfl⟩
  deinit_down := KeystoreService.deinit_of_not_initialized
  deinit_up := by
    intro ks h
    rw [KeystoreService.deinit_of_initialized ks h]
    exact ⟨rfl, rfl⟩

theorem sessionManager_followsLifecycle :
    FollowsLifecycle up .session sessionManager.init sessionManager.deinit := by
  apply sessionManager_switched.followsLifecycle sessions fun sm w => { w with sessions := sm }
  · exact fun _ => rfl
  · intro sm w
    funext s
    cases s <;> rfl

theorem keystoreService_followsLifecycle :
    FollowsLifecycle up .keystore keystoreService.init keystoreService.deinit := by
  apply keystoreService_switched.followsLifecycle keystore fun ks w => { w with keystore := ks }
  · exact fun _ => rfl
  · intro ks w
    funext s
    cases s <;> rfl

end World

/-- The firmware: facade, caller memory and services. -/
abbrev WiredHsm (strategy : Strategy) := Hsm (World.services strategy)

namespace WiredHsm

variable {strategy : Strategy}

/-- The firmware as constructed, for whatever the access counters start with. -/
def powerOn (strategy : Strategy) (accessCount : Fin kMaxKeySlots → UInt32) (mem : Memory) :
    WiredHsm strategy :=
  .boot (World.services strategy) mem ⟨.construct, .construct accessCount⟩

abbrev machine (strategy : Strategy) : Machine (WiredHsm strategy) Event Answer :=
  Hsm.machine (World.services strategy)

/-! ## The decision on a request -/

/-- The code of the first check that does not pass. -/
def firstFailing : List (Bool × Status) → Status
  | [] => .ok
  | (passed, code) :: checks => if passed then firstFailing checks else code

theorem firstFailing_eq_ok_iff {checks : List (Bool × Status)}
    (h : ∀ check ∈ checks, check.2 ≠ .ok) :
    firstFailing checks = .ok ↔ ∀ check ∈ checks, check.1 = true := by
  induction checks with
  | nil => simp [firstFailing]
  | cons check checks ih =>
      obtain ⟨passed, code⟩ := check
      have hcode : code ≠ .ok := h (passed, code) List.mem_cons_self
      rw [firstFailing, List.forall_mem_cons]
      cases passed with
      | false => simp [hcode]
      | true =>
          rw [if_pos rfl, ih fun check hcheck => h check (List.mem_cons_of_mem _ hcheck)]
          simp

/-- The checks on an `encrypt` or `decrypt` request, in order, given whether the
facade is ready, the session is active and the slot grants the use. -/
def verdict (ready : Bool) (input output : Span) (active : Bool) (keySlotId : UInt8)
    (granted : Bool) : Status :=
  firstFailing
    [ (ready, .errNotInitialized),
      (decide (¬ BadBuffers input output), .errInvalidParam),
      (active, .errSessionInvalid),
      (decide (IsValidSlotId keySlotId), .errInvalidKeyId),
      (granted, .errAuthFailed) ]

/-- The record of the slot has the permission bit. -/
def grants (ks : KeystoreService) (keySlotId : UInt8) (required : KeyPermission) : Bool :=
  if h : IsValidSlotId keySlotId then
    (ks.keySlots (slotIndex keySlotId h)).info.permissions &&& required.toByte != 0
  else false

/-- The decision on a request in a state. -/
def decision (required : KeyPermission) (sessionId : SessionId) (keySlotId : UInt8)
    (input output : Span) (hsm : WiredHsm strategy) : Status :=
  verdict hsm.api.isReady input output (hsm.world.sessions.isSessionValid sessionId) keySlotId
    (grants hsm.world.keystore keySlotId required)

theorem decision_eq_ok_iff {required : KeyPermission} {sessionId : SessionId} {keySlotId : UInt8}
    {input output : Span} {hsm : WiredHsm strategy} :
    decision required sessionId keySlotId input output hsm = .ok ↔
      hsm.api.isReady = true ∧ ¬ BadBuffers input output ∧
        hsm.world.sessions.isSessionValid sessionId = true ∧ IsValidSlotId keySlotId ∧
        grants hsm.world.keystore keySlotId required = true := by
  rw [decision, verdict, firstFailing_eq_ok_iff (by simp)]
  simp only [List.forall_mem_cons, decide_eq_true_eq, List.not_mem_nil, false_imp_iff,
    implies_true, and_true]

/-! ## The calls without guards -/

def setSessions (hsm : WiredHsm strategy) (sm : SessionManager) : WiredHsm strategy :=
  hsm.setWorld { hsm.world with sessions := sm }

def setKeystore (hsm : WiredHsm strategy) (ks : KeystoreService) : WiredHsm strategy :=
  hsm.setWorld { hsm.world with keystore := ks }

/-- A request that is granted runs the cipher loop and counts one access. -/
def directCrypt (required : KeyPermission) (sessionId : SessionId) (keySlotId : UInt8)
    (input output : Span) (hsm : WiredHsm strategy) : Answer × WiredHsm strategy :=
  (.status (decision required sessionId keySlotId input output hsm),
    if decision required sessionId keySlotId input output hsm = .ok then
      { hsm with
        memory := xorLoop input output input.size hsm.memory
        world :=
          { hsm.world with keystore := (hsm.world.keystore.getKey keySlotId {}).2.2 } }
    else hsm)

/-- Each call as what it does to the two services and the memory. -/
def direct : Event → WiredHsm strategy → Answer × WiredHsm strategy
  | .init, hsm =>
      (.status .ok,
        if hsm.api.isReady then hsm
        else
          { hsm with
            api := ⟨true, fun _ => World.services_wired strategy⟩
            world := ⟨hsm.world.sessions.init.2, hsm.world.keystore.init.2⟩ })
  | .deinit, hsm =>
      if hsm.api.isReady then
        (.status .ok,
          { hsm with
            api := .construct _
            world := ⟨hsm.world.sessions.deinit.2, hsm.world.keystore.deinit.2⟩ })
      else (.status .errNotInitialized, hsm)
  | .isReady, hsm => (.truth hsm.api.isReady, hsm)
  | .createSession sessionId, hsm =>
      (.session (hsm.world.sessions.createSession sessionId).1
          (hsm.world.sessions.createSession sessionId).2.1,
        hsm.setSessions (hsm.world.sessions.createSession sessionId).2.2)
  | .closeSession sessionId, hsm =>
      (.status (hsm.world.sessions.closeSession sessionId).1,
        hsm.setSessions (hsm.world.sessions.closeSession sessionId).2)
  | .isSessionValid sessionId, hsm =>
      (.truth (hsm.world.sessions.isSessionValid sessionId), hsm)
  | .encrypt sessionId keySlotId _ input output, hsm =>
      directCrypt .encrypt sessionId keySlotId input output hsm
  | .decrypt sessionId keySlotId _ input output, hsm =>
      directCrypt .decrypt sessionId keySlotId input output hsm
  | .importKey keySlotId algorithm keyData permissions, hsm =>
      (.status (hsm.world.keystore.importKey keySlotId algorithm keyData permissions).1,
        hsm.setKeystore (hsm.world.keystore.importKey keySlotId algorithm keyData permissions).2)
  | .deleteKey keySlotId, hsm =>
      (.status (hsm.world.keystore.deleteKey keySlotId).1,
        hsm.setKeystore (hsm.world.keystore.deleteKey keySlotId).2)
  | .getKeySlotInfo keySlotId info, hsm =>
      (.info (hsm.world.keystore.getSlotInfo keySlotId info).1
          (hsm.world.keystore.getSlotInfo keySlotId info).2.1,
        hsm)
  | .clearAllKeys, hsm =>
      (.status hsm.world.keystore.clearAll.1, hsm.setKeystore hsm.world.keystore.clearAll.2)
  | .getVersion, hsm => (.version hsm.api.getVersion, hsm)
  | .store address byte, hsm =>
      (.stored, { hsm with memory := hsm.memory.write address byte })

/-! ## Sound states -/

/-- The three flags agree, and the key store holds the map. -/
structure Sound (hsm : WiredHsm strategy) (map : Option KeyMap) : Prop where
  sessions : hsm.world.sessions.isInitialized = hsm.api.isReady
  keystore : hsm.world.keystore.isInitialized = hsm.api.isReady
  represents : hsm.world.keystore.Represents map

theorem sound_powerOn (strategy : Strategy) (accessCount : Fin kMaxKeySlots → UInt32)
    (mem : Memory) :
    Sound (powerOn strategy accessCount mem) none :=
  ⟨rfl, rfl, KeystoreService.represents_construct accessCount⟩

/-! ## Each call on a sound state -/

section

variable {hsm : WiredHsm strategy} {map : Option KeyMap}

theorem Sound.flag (h : Sound hsm map) (flag : Bool) (hready : hsm.api.isReady = flag) :
    hsm.api.isInitialized = flag ∧ hsm.world.sessions.isInitialized = flag ∧
      hsm.world.keystore.isInitialized = flag :=
  ⟨hready, h.sessions.trans hready, h.keystore.trans hready⟩

/-- A guarded call is the service's own if, with the flag down, the service
answers as the guard does. -/
theorem guarded_eq {α : Type*} {flag : Bool} {call : flag = true → α} {refusal answer : α}
    (hup : ∀ h, call h = answer) (hdown : flag = false → refusal = answer) :
    (if h : flag = true then call h else refusal) = answer := by
  cases flag with
  | true => exact hup rfl
  | false => exact hdown rfl

theorem Sound.createSession_eq (h : Sound hsm map) (sessionId : SessionId) :
    hsm.api.createSession sessionId hsm.world =
      World.sessionManager.createSession sessionId hsm.world := by
  apply guarded_eq
  · exact fun _ => rfl
  · intro hdown
    obtain ⟨-, hsessions, -⟩ := h.flag false hdown
    simp only [World.sessionManager,
      SessionManager.createSession_of_not_initialized _ sessionId hsessions]

theorem Sound.closeSession_eq (h : Sound hsm map) (sessionId : SessionId) :
    hsm.api.closeSession sessionId hsm.world =
      World.sessionManager.closeSession sessionId hsm.world := by
  apply guarded_eq
  · exact fun _ => rfl
  · intro hdown
    obtain ⟨-, hsessions, -⟩ := h.flag false hdown
    simp only [World.sessionManager,
      SessionManager.closeSession_of_not_initialized _ sessionId hsessions]

theorem Sound.isSessionValid_eq (h : Sound hsm map) (sessionId : SessionId) :
    hsm.api.isSessionValid sessionId hsm.world = hsm.world.sessions.isSessionValid sessionId := by
  apply guarded_eq
  · exact fun _ => rfl
  · intro hdown
    obtain ⟨-, hsessions, -⟩ := h.flag false hdown
    simp [SessionManager.isSessionValid, hsessions]

theorem Sound.importKey_eq (h : Sound hsm map) (keySlotId : UInt8) (algorithm : Algorithm)
    (keyData : List UInt8) (permissions : UInt8) :
    hsm.api.importKey keySlotId algorithm keyData permissions hsm.world =
      World.keystoreService.importKey keySlotId algorithm keyData permissions hsm.world := by
  apply guarded_eq
  · exact fun _ => rfl
  · intro hdown
    obtain ⟨-, -, hkeystore⟩ := h.flag false hdown
    simp only [World.keystoreService,
      KeystoreService.importKey_of_not_initialized _ hkeystore]

theorem Sound.deleteKey_eq (h : Sound hsm map) (keySlotId : UInt8) :
    hsm.api.deleteKey keySlotId hsm.world =
      World.keystoreService.deleteKey keySlotId hsm.world := by
  apply guarded_eq
  · exact fun _ => rfl
  · intro hdown
    obtain ⟨-, -, hkeystore⟩ := h.flag false hdown
    simp only [World.keystoreService,
      KeystoreService.deleteKey_of_not_initialized _ hkeystore]

theorem Sound.getKeySlotInfo_eq (h : Sound hsm map) (keySlotId : UInt8) (info : KeySlotInfo) :
    hsm.api.getKeySlotInfo keySlotId info hsm.world =
      World.keystoreService.getSlotInfo keySlotId info hsm.world := by
  apply guarded_eq
  · exact fun _ => rfl
  · intro hdown
    obtain ⟨-, -, hkeystore⟩ := h.flag false hdown
    simp only [World.keystoreService,
      KeystoreService.getSlotInfo_of_not_initialized _ hkeystore]

theorem Sound.clearAllKeys_eq (h : Sound hsm map) :
    hsm.api.clearAllKeys hsm.world = World.keystoreService.clearAll hsm.world := by
  apply guarded_eq
  · exact fun _ => rfl
  · intro hdown
    obtain ⟨-, -, hkeystore⟩ := h.flag false hdown
    simp only [World.keystoreService,
      KeystoreService.clearAll_of_not_initialized _ hkeystore]

theorem Sound.init_eq (h : Sound hsm map) (hready : hsm.api.isReady = false) :
    hsm.api.init hsm.world =
      (.ok, ⟨true, fun _ => World.services_wired strategy⟩,
        ⟨hsm.world.sessions.init.2, hsm.world.keystore.init.2⟩) := by
  obtain ⟨hapi, hsessions, hkeystore⟩ := h.flag false hready
  rw [HsmApiImpl.init, if_neg (by simp [hapi]), dif_pos (World.services_wired strategy)]
  simp [chain, World.services, World.sessionManager, World.keystoreService,
    CryptoService.toInterface, CryptoService.init,
    SessionManager.init_of_not_initialized _ hsessions,
    KeystoreService.init_of_not_initialized _ hkeystore]

theorem Sound.deinit_eq (h : Sound hsm map) (hready : hsm.api.isReady = true) :
    hsm.api.deinit hsm.world =
      (.ok, .construct _, ⟨hsm.world.sessions.deinit.2, hsm.world.keystore.deinit.2⟩) := by
  obtain ⟨hapi, hsessions, hkeystore⟩ := h.flag true hready
  rw [HsmApiImpl.deinit, dif_pos hapi]
  simp [chain, World.services, World.sessionManager, World.keystoreService,
    CryptoService.toInterface, CryptoService.deinit,
    SessionManager.deinit_of_initialized _ hsessions,
    KeystoreService.deinit_of_initialized _ hkeystore]

/-- A slot without a key grants nothing: its permission byte is zero. -/
theorem occupied_of_grants {ks : KeystoreService} (h : ks.Represents map) {keySlotId : UInt8}
    (hslot : IsValidSlotId keySlotId) {required : KeyPermission}
    (hgrants : grants ks keySlotId required = true) :
    (ks.keySlots (slotIndex keySlotId hslot)).info.isOccupied = true := by
  obtain ⟨hinfo, -⟩ := h.slot hslot
  rw [grants, dif_pos hslot, hinfo] at hgrants
  rw [hinfo, infoOf_isOccupied]
  cases hentry : KeyMap.entry map keySlotId with
  | none =>
      rw [hentry] at hgrants
      simp [infoOf] at hgrants
  | some key => rfl

/-- On a sound state the facade's decision is the only one: what it lets through
succeeds in the crypto service, the key store and the cipher. -/
theorem Sound.crypt_eq (h : Sound hsm map) (required : KeyPermission)
    (serve : ICryptoService World → Span → Span → UInt8 → Memory → World →
      Status × Memory × World)
    (transform : ICryptoAlgorithm → Span → Span → Memory → Status × Memory)
    (hserve : serve (World.cryptoService strategy).toInterface =
      (World.cryptoService strategy).crypt transform)
    (htransform : transform strategy.algorithm = xorBuffer)
    (sessionId : SessionId) (keySlotId : UInt8) (algorithm : Algorithm) (input output : Span) :
    hsm.api.crypt required serve sessionId keySlotId algorithm input output hsm.memory hsm.world =
      if decision required sessionId keySlotId input output hsm = .ok then
        (.ok, xorLoop input output input.size hsm.memory,
          { hsm.world with keystore := (hsm.world.keystore.getKey keySlotId {}).2.2 })
      else
        (decision required sessionId keySlotId input output hsm, hsm.memory, hsm.world) := by
  unfold HsmApiImpl.crypt decision verdict
  cases hready : hsm.api.isReady with
  | false =>
      obtain ⟨hapi, -, -⟩ := h.flag false hready
      rw [dif_neg (by simp [hapi])]
      simp [firstFailing]
  | true =>
      obtain ⟨hapi, -, hkeystore⟩ := h.flag true hready
      rw [dif_pos hapi]
      by_cases hbuf : BadBuffers input output
      · rw [if_pos hbuf]
        simp [firstFailing, hbuf]
      rw [if_neg hbuf, h.isSessionValid_eq]
      cases hactive : hsm.world.sessions.isSessionValid sessionId with
      | false => simp [firstFailing, hbuf]
      | true =>
          rw [if_neg (by decide)]
          by_cases hslot : IsValidSlotId keySlotId
          · rw [if_neg (Nat.not_le.mpr hslot)]
            have hinfo : World.keystoreService.getSlotInfo keySlotId {} hsm.world =
                (.ok, (hsm.world.keystore.keySlots (slotIndex keySlotId hslot)).info,
                  hsm.world) := by
              simp only [World.keystoreService,
                KeystoreService.getSlotInfo_of_valid _ hkeystore hslot]
            simp only [World.services, Option.get_some, hinfo]
            rw [if_neg (by decide)]
            by_cases hbit : (hsm.world.keystore.keySlots
                (slotIndex keySlotId hslot)).info.permissions &&& required.toByte = 0
            · rw [if_pos hbit]
              simp [firstFailing, hbuf, hslot, grants, hbit]
            · rw [if_neg hbit]
              have hgrants : grants hsm.world.keystore keySlotId required = true := by
                rw [grants, dif_pos hslot, bne_iff_ne]
                exact hbit
              have hoccupied := occupied_of_grants h.represents hslot hgrants
              have hkey : World.keystoreService.getKey keySlotId {} hsm.world =
                  (.ok, (hsm.world.keystore.keySlots (slotIndex keySlotId hslot)).key,
                    { hsm.world with
                      keystore := (hsm.world.keystore.getKey keySlotId {}).2.2 }) := by
                simp only [World.keystoreService,
                  KeystoreService.getKey_of_occupied _ hkeystore hslot hoccupied]
              have hcrypt : (World.cryptoService strategy).crypt transform input output keySlotId
                    hsm.memory hsm.world =
                  ((transform strategy.algorithm input output hsm.memory).1,
                    (transform strategy.algorithm input output hsm.memory).2,
                    { hsm.world with
                      keystore := (hsm.world.keystore.getKey keySlotId {}).2.2 }) :=
                CryptoService.crypt_of_key hbuf hkey
              rw [hserve, hcrypt, htransform, xorBuffer_good hbuf]
              simp [firstFailing, hbuf, hslot, hgrants]
          · rw [if_pos (Nat.not_lt.mp hslot)]
            simp [firstFailing, hbuf, hslot]

/-- **What each call does.**  On a sound state the firmware is `direct`. -/
theorem step_eq_direct (h : Sound hsm map) (event : Event) :
    Hsm.step event hsm = direct event hsm := by
  cases event with
  | init =>
      cases hready : hsm.api.isReady with
      | true =>
          have hinit : hsm.api.init hsm.world = (.ok, hsm.api, hsm.world) := if_pos hready
          simp only [Hsm.step, direct, hinit, hready, if_true]
      | false =>
          simp only [Hsm.step, direct, h.init_eq hready, hready]
          rfl
  | deinit =>
      cases hready : hsm.api.isReady with
      | true =>
          simp only [Hsm.step, direct, h.deinit_eq hready, hready]
          rfl
      | false =>
          have hflag : ¬ hsm.api.isInitialized = true := by
            rw [(h.flag false hready).1]
            decide
          have hdeinit : hsm.api.deinit hsm.world = (.errNotInitialized, hsm.api, hsm.world) :=
            dif_neg hflag
          simp only [Hsm.step, direct, hdeinit, hready]
          rfl
  | isReady | getVersion | store _ _ => rfl
  | createSession sessionId =>
      simp only [Hsm.step, direct, h.createSession_eq sessionId]
      rfl
  | closeSession sessionId =>
      simp only [Hsm.step, direct, h.closeSession_eq sessionId]
      rfl
  | isSessionValid sessionId =>
      simp only [Hsm.step, direct, h.isSessionValid_eq sessionId]
  | encrypt sessionId keySlotId algorithm input output =>
      simp only [Hsm.step, direct, directCrypt, HsmApiImpl.encrypt]
      rw [h.crypt_eq .encrypt (·.encrypt) (·.encrypt) rfl strategy.encrypt_eq]
      split
      · next hok => rw [hok]
      · rfl
  | decrypt sessionId keySlotId algorithm input output =>
      simp only [Hsm.step, direct, directCrypt, HsmApiImpl.decrypt]
      rw [h.crypt_eq .decrypt (·.decrypt) (·.decrypt) rfl strategy.decrypt_eq]
      split
      · next hok => rw [hok]
      · rfl
  | importKey keySlotId algorithm keyData permissions =>
      simp only [Hsm.step, direct, h.importKey_eq keySlotId algorithm keyData permissions]
      rfl
  | deleteKey keySlotId =>
      simp only [Hsm.step, direct, h.deleteKey_eq keySlotId]
      rfl
  | getKeySlotInfo keySlotId info =>
      simp only [Hsm.step, direct, h.getKeySlotInfo_eq keySlotId info, World.keystoreService,
        KeystoreService.getSlotInfo_keeps]
      rfl
  | clearAllKeys =>
      simp only [Hsm.step, direct, h.clearAllKeys_eq]
      rfl

end

end WiredHsm

end Ehsm
