import Ehsm.Api.Startup
import Ehsm.Hsm.Vault

/-!
# Any services behind the interfaces

The facade sees its services through `ISessionManager` and `IKeystoreService` only.
What has to be known of a session manager and a key store for the whole to be a
vault?  That each of them is its own abstract machine, the bag of sessions or the map
of keys, and leaves the other one alone.  How they hold the bag and the map, in which
tables, with which counters, is theirs.

So the facade and the crypto service are verified against the interfaces, once, and
the services of the repository are one case: they keep this contract.  A session
manager or a key store that is written anew needs to be verified on its own only.

## Main results

* `RealizedServices.simulates_vault` — the facade over such services, call by call.
* `RealizedServices.facade_is_vault` — answers and memory of every run.
* `World.realized` — the services of the repository.
-/

namespace Ehsm

open Reactive

variable {W : Type*}

/-! ## Services as machines -/

/-- A session manager, seen through its interface. -/
def ISessionManager.machine (sm : ISessionManager W) :
    Machine W SessionManager.Op SessionManager.Reply where
  step
    | .init, w => (.status (sm.init w).1, (sm.init w).2)
    | .deinit, w => (.status (sm.deinit w).1, (sm.deinit w).2)
    | .createSession sessionId, w =>
        (.session (sm.createSession sessionId w).1 (sm.createSession sessionId w).2.1,
          (sm.createSession sessionId w).2.2)
    | .closeSession sessionId, w =>
        (.status (sm.closeSession sessionId w).1, (sm.closeSession sessionId w).2)
    | .isSessionValid sessionId, w => (.valid (sm.isSessionValid sessionId w), w)

/-- A key store, seen through its interface. -/
def IKeystoreService.machine (ks : IKeystoreService W) :
    Machine W KeystoreService.Op KeystoreService.Reply where
  step
    | .init, w => (.status (ks.init w).1, (ks.init w).2)
    | .deinit, w => (.status (ks.deinit w).1, (ks.deinit w).2)
    | .importKey keySlotId algorithm keyData permissions, w =>
        (.status (ks.importKey keySlotId algorithm keyData permissions w).1,
          (ks.importKey keySlotId algorithm keyData permissions w).2)
    | .deleteKey keySlotId, w => (.status (ks.deleteKey keySlotId w).1, (ks.deleteKey keySlotId w).2)
    | .getKey keySlotId key, w =>
        (.key (ks.getKey keySlotId key w).1 (ks.getKey keySlotId key w).2.1,
          (ks.getKey keySlotId key w).2.2)
    | .getSlotInfo keySlotId info, w =>
        (.info (ks.getSlotInfo keySlotId info w).1 (ks.getSlotInfo keySlotId info w).2.1,
          (ks.getSlotInfo keySlotId info w).2.2)
    | .clearAll, w => (.status (ks.clearAll w).1, (ks.clearAll w).2)
    | .isSlotOccupied keySlotId, w => (.occupied (ks.isSlotOccupied keySlotId w), w)

/-- A session manager and a key store that hold a bag and a map in a common world,
each of them in step with its abstract machine while the other's part stays. -/
structure RealizedServices (W : Type*) where
  sessionManager : ISessionManager W
  keystoreService : IKeystoreService W
  Holds : W → SessionBag → Option KeyMap → Prop
  sessions : ∀ map, Machine.Simulation sessionManager.machine SessionBag.machine
    (fun w bag => Holds w bag map) Eq Eq
  keys : ∀ bag, Machine.Simulation keystoreService.machine KeyMap.machine
    (fun w map => Holds w bag map) Eq Eq
  start : W
  start_holds : Holds start .offline none

namespace Vault

variable {v : Vault} {slotId : UInt8} {required : KeyPermission}

theorem key_of_permits (h : v.permits slotId required = true) :
    ∃ key, v.keys.lookup slotId = some key := by
  unfold permits at h
  split at h
  · next key hlookup => exact ⟨key, hlookup⟩
  · contradiction

end Vault

open WiredHsm (vaultAfter)

namespace RealizedServices

variable (rs : RealizedServices W) (strategy : Strategy)

def cryptoService : CryptoService W where
  keystore := some rs.keystoreService
  algorithm := some strategy.algorithm

/-- The composition root of `main.cpp`, over these services. -/
def services : Services W where
  sessionManager := some rs.sessionManager
  cryptoService := some (rs.cryptoService strategy).toInterface
  keystoreService := some rs.keystoreService

theorem services_wired : (rs.services strategy).Wired := ⟨rfl, rfl, rfl⟩

/-- The services hold the parts of the vault, the memory is the same, and the flag is
up while the vault is. -/
structure Realizes (hsm : Hsm (rs.services strategy)) (s : VaultState) : Prop where
  holds : rs.Holds hsm.world s.bag s.map
  memory : hsm.memory = s.memory
  isReady : hsm.api.isReady = s.vault.isSome

variable {rs strategy}

/-! ## Single calls of the services -/

section

variable {w : W} {bag : SessionBag} {map : Option KeyMap}

theorem session_call (h : rs.Holds w bag map) (op : SessionManager.Op) :
    rs.sessionManager.machine.reply op w = SessionBag.machine.reply op bag ∧
      rs.Holds (rs.sessionManager.machine.next op w) (SessionBag.machine.next op bag) map :=
  ⟨(rs.sessions map).reply rfl h, (rs.sessions map).next rfl h⟩

theorem keystore_call (h : rs.Holds w bag map) (op : KeystoreService.Op) :
    rs.keystoreService.machine.reply op w = KeyMap.machine.reply op map ∧
      rs.Holds (rs.keystoreService.machine.next op w) bag (KeyMap.machine.next op map) :=
  ⟨(rs.keys bag).reply rfl h, (rs.keys bag).next rfl h⟩

/-- Starting both. -/
theorem start_both (h : rs.Holds w .offline none) :
    ∃ w₁ w₂, rs.sessionManager.init w = (.ok, w₁) ∧ rs.keystoreService.init w₁ = (.ok, w₂) ∧
      rs.Holds w₂ (.online 0 0) (some .empty) := by
  obtain ⟨hsession, hholds₁⟩ := session_call h .init
  obtain ⟨hkeystore, hholds₂⟩ := keystore_call hholds₁ .init
  refine ⟨rs.sessionManager.machine.next .init w, _, ?_, ?_, hholds₂⟩
  · exact Prod.ext (SessionManager.Reply.status.inj hsession) rfl
  · exact Prod.ext (KeystoreService.Reply.status.inj hkeystore) rfl

/-- Stopping both, the key store first. -/
theorem stop_both {live : Multiset SessionId} {created : Nat} {m : KeyMap}
    (h : rs.Holds w (.online live created) (some m)) :
    ∃ w₁ w₂, rs.keystoreService.deinit w = (.ok, w₁) ∧ rs.sessionManager.deinit w₁ = (.ok, w₂) ∧
      rs.Holds w₂ .offline none := by
  obtain ⟨hkeystore, hholds₁⟩ := keystore_call h .deinit
  obtain ⟨hsession, hholds₂⟩ := session_call hholds₁ .deinit
  refine ⟨rs.keystoreService.machine.next .deinit w, _, ?_, ?_, hholds₂⟩
  · exact Prod.ext (KeystoreService.Reply.status.inj hkeystore) rfl
  · exact Prod.ext (SessionManager.Reply.status.inj hsession) rfl

end

/-! ## Requests -/

section

variable {hsm : Hsm (rs.services strategy)} {v : Vault} {mem : Memory}

theorem Realizes.isInitialized (h : Realizes rs strategy hsm ⟨some v, mem⟩) :
    hsm.api.isInitialized = true := h.isReady

theorem Realizes.isSessionValid_eq (h : Realizes rs strategy hsm ⟨some v, mem⟩)
    (sessionId : SessionId) :
    hsm.api.isSessionValid sessionId hsm.world = decide (sessionId ∈ v.live) := by
  obtain ⟨hsession, -⟩ := session_call h.holds (.isSessionValid sessionId)
  rw [HsmApiImpl.isSessionValid, dif_pos h.isInitialized]
  exact SessionManager.Reply.valid.inj hsession

/-- The facade's look at the record of a slot. -/
theorem Realizes.getSlotInfo_eq (h : Realizes rs strategy hsm ⟨some v, mem⟩) {slotId : UInt8}
    (hslot : IsValidSlotId slotId) (info : KeySlotInfo) :
    ∃ w, rs.keystoreService.getSlotInfo slotId info hsm.world =
        (.ok, infoOf slotId (v.keys.lookup slotId), w) ∧
      rs.Holds w (.online v.live v.created) (some v.keys) := by
  obtain ⟨hinfo, hholds⟩ := keystore_call h.holds (.getSlotInfo slotId info)
  have hmap : KeyMap.machine.reply (.getSlotInfo slotId info) (some v.keys) =
      .info .ok (infoOf slotId (v.keys.lookup slotId)) := by
    simp only [KeyMap.machine, Machine.reply, KeyMap.step, if_pos hslot]
  have hnext : KeyMap.machine.next (.getSlotInfo slotId info) (some v.keys) = some v.keys := by
    simp only [KeyMap.machine, Machine.next, KeyMap.step, if_pos hslot]
  obtain ⟨hcode, hrecord⟩ := KeystoreService.Reply.info.inj (hinfo.trans hmap)
  refine ⟨_, Prod.ext hcode (Prod.ext hrecord rfl), ?_⟩
  have hkept := hholds
  rw [show (VaultState.map ⟨some v, mem⟩) = some v.keys from rfl, hnext] at hkept
  exact hkept

/-- The crypto service's reading of a key that is there. -/
theorem getKey_eq {w : W} {bag : SessionBag} {m : KeyMap} (h : rs.Holds w bag (some m))
    {slotId : UInt8} {key : Import} (hlookup : m.lookup slotId = some key) :
    ∃ w', rs.keystoreService.getKey slotId {} w = (.ok, keyOf (some key), w') ∧
      rs.Holds w' bag (some m) := by
  obtain ⟨hreply, hholds⟩ := keystore_call h (.getKey slotId {})
  have hstep : KeyMap.step (.getKey slotId {}) (some m) =
      (.key .ok (keyOf (some key)), some m) := by
    simp only [KeyMap.step, hlookup]
  have hmap : KeyMap.machine.reply (.getKey slotId {}) (some m) = .key .ok (keyOf (some key)) :=
    congrArg Prod.fst hstep
  have hnext : KeyMap.machine.next (.getKey slotId {}) (some m) = some m :=
    congrArg Prod.snd hstep
  rw [hnext] at hholds
  obtain ⟨hcode, hkey⟩ := KeystoreService.Reply.key.inj (hreply.trans hmap)
  exact ⟨_, Prod.ext hcode (Prod.ext hkey rfl), hholds⟩

/-- **A request on both sides.**  The facade's gates come to the vault's answer, and
what they let through succeeds in the crypto service. -/
theorem Realizes.crypt_eq (h : Realizes rs strategy hsm ⟨some v, mem⟩) (required : KeyPermission)
    (serve : ICryptoService W → Span → Span → UInt8 → Memory → W → Status × Memory × W)
    (transformOf : ICryptoAlgorithm → Span → Span → Memory → Status × Memory)
    (hserve : serve (rs.cryptoService strategy).toInterface =
      (rs.cryptoService strategy).crypt transformOf)
    (htransform : transformOf strategy.algorithm = xorBuffer) (sessionId : SessionId)
    (slotId : UInt8) (algorithm : Algorithm) (input output : Span) :
    ∃ w, hsm.api.crypt required serve sessionId slotId algorithm input output hsm.memory
        hsm.world =
          (v.request required sessionId slotId input output,
            (if v.request required sessionId slotId input output = .ok then
              transform (· ^^^ kMockEncryptKey) input.start output.start input.size hsm.memory
            else hsm.memory), w) ∧
      rs.Holds w (.online v.live v.created) (some v.keys) := by
  have hholds : rs.Holds hsm.world (.online v.live v.created) (some v.keys) := h.holds
  have hready := h.isInitialized
  have hsession := h.isSessionValid_eq sessionId
  rw [Vault.request]
  by_cases hbad : BadBuffers input output
  · have hrefused : input.size = 0 ∨ output.size < input.size := by
      rwa [BadBuffers, Span.isEmpty_iff] at hbad
    rw [HsmApiImpl.crypt, dif_pos hready, if_pos hbad, if_pos hrefused]
    exact ⟨hsm.world, rfl, hholds⟩
  have hgood : ¬ (input.size = 0 ∨ output.size < input.size) := by
    rwa [BadBuffers, Span.isEmpty_iff] at hbad
  rw [if_neg hgood]
  by_cases hlive : sessionId ∈ v.live
  swap
  · rw [HsmApiImpl.crypt, dif_pos hready, if_neg hbad, if_pos (by simp [hsession, hlive]),
      if_pos hlive]
    exact ⟨hsm.world, rfl, hholds⟩
  have hactive : hsm.api.isSessionValid sessionId hsm.world = true := by simp [hsession, hlive]
  rw [if_neg (not_not.mpr hlive)]
  by_cases hslot : IsValidSlotId slotId
  swap
  · rw [HsmApiImpl.crypt, dif_pos hready, if_neg hbad, if_neg (by simp [hactive]),
      if_pos (Nat.not_lt.mp hslot), if_pos hslot]
    exact ⟨hsm.world, rfl, hholds⟩
  obtain ⟨w₁, hinfo, hholds₁⟩ := h.getSlotInfo_eq hslot {}
  rw [if_neg (not_not.mpr hslot), HsmApiImpl.crypt_of_record hready hbad hactive hslot hinfo]
  by_cases hbit : (infoOf slotId (v.keys.lookup slotId)).permissions &&& required.toByte = 0
  · rw [if_pos hbit, if_neg (fun hpermits => Vault.permits_iff.mp hpermits hbit)]
    exact ⟨w₁, rfl, hholds₁⟩
  obtain ⟨key, hlookup⟩ := Vault.key_of_permits (Vault.permits_iff.mpr hbit)
  obtain ⟨w₂, hkey, hholds₂⟩ := getKey_eq hholds₁ hlookup
  have hcrypt : (rs.cryptoService strategy).crypt transformOf input output slotId hsm.memory w₁ =
      ((transformOf strategy.algorithm input output hsm.memory).1,
        (transformOf strategy.algorithm input output hsm.memory).2, w₂) :=
    CryptoService.crypt_of_key hbad hkey
  have hserved : serve ((rs.services strategy).cryptoService.get
      (hsm.api.wired hready).cryptoService) = (rs.cryptoService strategy).crypt transformOf :=
    hserve
  rw [if_neg hbit, if_pos (Vault.permits_iff.mpr hbit), hserved, hcrypt, htransform,
    xorBuffer_good hbad, if_pos rfl, xorLoop_eq_transform]
  exact ⟨w₂, rfl, hholds₂⟩

end

/-! ## Every call -/

/-- What the vault answers while it is down. -/
theorem step_of_refusal {event : Event} {answer : Answer} (h : event.refusal = some answer)
    (mem : Memory) : VaultState.step event ⟨none, mem⟩ = (answer, ⟨none, mem⟩) := by
  cases event with
  | init | isReady | isSessionValid _ | getVersion | store _ _ => cases h
  | deinit | createSession _ | closeSession _ | encrypt _ _ _ _ _ | decrypt _ _ _ _ _
  | importKey _ _ _ _ | deleteKey _ | getKeySlotInfo _ _ | clearAllKeys =>
      cases h
      rfl

section

variable {hsm : Hsm (rs.services strategy)} {v : Vault} {mem : Memory}

theorem Realizes.init_eq (h : Realizes rs strategy hsm ⟨none, mem⟩) :
    ∃ w, hsm.api.init hsm.world = (.ok, ⟨true, fun _ => rs.services_wired strategy⟩, w) ∧
      rs.Holds w (.online 0 0) (some .empty) := by
  have hflag : hsm.api.isInitialized = false := h.isReady
  obtain ⟨w₁, w₂, hsession, hkeystore, hholds⟩ := start_both h.holds
  refine ⟨w₂, ?_, hholds⟩
  rw [HsmApiImpl.init, if_neg (by simp [hflag]), dif_pos (rs.services_wired strategy)]
  simp [chain, services, hsession, hkeystore, CryptoService.toInterface, CryptoService.init]

theorem Realizes.deinit_eq (h : Realizes rs strategy hsm ⟨some v, mem⟩) :
    ∃ w, hsm.api.deinit hsm.world = (.ok, .construct _, w) ∧ rs.Holds w .offline none := by
  obtain ⟨w₁, w₂, hkeystore, hsession, hholds⟩ := stop_both h.holds
  refine ⟨w₂, ?_, hholds⟩
  rw [HsmApiImpl.deinit, dif_pos h.isInitialized]
  simp [chain, services, hsession, hkeystore, CryptoService.toInterface, CryptoService.deinit]

/-- A call while both are down. -/
theorem Realizes.step_down (h : Realizes rs strategy hsm ⟨none, mem⟩) (event : Event) :
    (Hsm.step event hsm).1 = (VaultState.step event ⟨none, mem⟩).1 ∧
      Realizes rs strategy (Hsm.step event hsm).2 (VaultState.step event ⟨none, mem⟩).2 := by
  have hflag : hsm.api.isReady = false := h.isReady
  cases hrefusal : event.refusal with
  | some answer =>
      rw [Hsm.step_of_not_ready hflag hrefusal, step_of_refusal hrefusal]
      exact ⟨rfl, h⟩
  | none =>
      cases event with
      | init =>
          obtain ⟨w, hinit, hholds⟩ := h.init_eq
          rw [Hsm.step, hinit]
          exact ⟨rfl, hholds, h.memory, rfl⟩
      | isReady => exact ⟨congrArg Answer.truth hflag, h⟩
      | isSessionValid sessionId =>
          refine ⟨congrArg Answer.truth ?_, h⟩
          exact dif_neg (by simp [show hsm.api.isInitialized = false from hflag])
      | getVersion => exact ⟨rfl, h⟩
      | store address byte =>
          exact ⟨rfl, h.holds, congrArg (fun mem => Memory.write mem address byte) h.memory, hflag⟩
      | deinit | createSession _ | closeSession _ | encrypt _ _ _ _ _ | decrypt _ _ _ _ _
      | importKey _ _ _ _ | deleteKey _ | getKeySlotInfo _ _ | clearAllKeys => cases hrefusal

/-- A request while both are up. -/
theorem Realizes.request_up (h : Realizes rs strategy hsm ⟨some v, mem⟩)
    (required : KeyPermission) (sessionId : SessionId) (slotId : UInt8) (algorithm : Algorithm)
    (input output : Span) {event : Event}
    {serve : ICryptoService W → Span → Span → UInt8 → Memory → W → Status × Memory × W}
    {transformOf : ICryptoAlgorithm → Span → Span → Memory → Status × Memory}
    (hevent : Hsm.step event hsm =
      let result := hsm.api.crypt required serve sessionId slotId algorithm input output
        hsm.memory hsm.world
      (.status result.1, { hsm with memory := result.2.1, world := result.2.2 }))
    (hserve : serve (rs.cryptoService strategy).toInterface =
      (rs.cryptoService strategy).crypt transformOf)
    (htransform : transformOf strategy.algorithm = xorBuffer) :
    (Hsm.step event hsm).1 =
        (VaultState.crypt ⟨some v, mem⟩ required sessionId slotId input output).1 ∧
      Realizes rs strategy (Hsm.step event hsm).2
        (VaultState.crypt ⟨some v, mem⟩ required sessionId slotId input output).2 := by
  have hmemory : hsm.memory = mem := h.memory
  obtain ⟨w, hcrypt, hholds⟩ := h.crypt_eq required serve transformOf hserve htransform sessionId
    slotId algorithm input output
  rw [hevent, hcrypt, hmemory]
  refine ⟨rfl, ?_⟩
  dsimp only [VaultState.crypt]
  split
  · exact ⟨hholds, rfl, h.isReady⟩
  · exact ⟨hholds, rfl, h.isReady⟩

/-- A call for the session manager while both are up. -/
theorem Realizes.session_up (h : Realizes rs strategy hsm ⟨some v, mem⟩) {event : Event}
    (op : SessionManager.Op) (hop : WiredHsm.sessionOp event = some op)
    (hkeys : WiredHsm.keystoreOp event = none)
    (hstep : Hsm.step event hsm =
      (.ofSession (rs.sessionManager.machine.reply op hsm.world),
        hsm.setWorld (rs.sessionManager.machine.next op hsm.world)))
    (hanswer : VaultState.machine.reply event ⟨some v, mem⟩ =
      .ofSession (SessionBag.machine.reply op (VaultState.bag ⟨some v, mem⟩)))
    (hup : (VaultState.machine.next event ⟨some v, mem⟩).vault.isSome = true)
    (hmemory : (VaultState.machine.next event ⟨some v, mem⟩).memory = mem) :
    (Hsm.step event hsm).1 = VaultState.machine.reply event ⟨some v, mem⟩ ∧
      Realizes rs strategy (Hsm.step event hsm).2
        (VaultState.machine.next event ⟨some v, mem⟩) := by
  obtain ⟨hreply, hholds⟩ := session_call h.holds op
  have hbag := VaultState.bag_next event ⟨some v, mem⟩
  have hmap := VaultState.map_next event ⟨some v, mem⟩
  rw [hop] at hbag
  rw [WiredHsm.mapAfter, hkeys] at hmap
  rw [hstep, hanswer, hreply]
  refine ⟨rfl, ?_, h.memory.trans hmemory.symm, h.isReady.trans hup.symm⟩
  rw [hbag, hmap]
  exact hholds

/-- A call for the key store while both are up. -/
theorem Realizes.keystore_up (h : Realizes rs strategy hsm ⟨some v, mem⟩) {event : Event}
    (op : KeystoreService.Op) (hsession : WiredHsm.sessionOp event = none)
    (hmap : WiredHsm.mapAfter event (some v.keys) = KeyMap.machine.next op (some v.keys))
    (hstep : Hsm.step event hsm =
      (.ofKeystore (rs.keystoreService.machine.reply op hsm.world),
        hsm.setWorld (rs.keystoreService.machine.next op hsm.world)))
    (hanswer : VaultState.machine.reply event ⟨some v, mem⟩ =
      .ofKeystore (KeyMap.machine.reply op (VaultState.map ⟨some v, mem⟩)))
    (hup : (VaultState.machine.next event ⟨some v, mem⟩).vault.isSome = true)
    (hmemory : (VaultState.machine.next event ⟨some v, mem⟩).memory = mem) :
    (Hsm.step event hsm).1 = VaultState.machine.reply event ⟨some v, mem⟩ ∧
      Realizes rs strategy (Hsm.step event hsm).2
        (VaultState.machine.next event ⟨some v, mem⟩) := by
  obtain ⟨hreply, hholds⟩ := keystore_call h.holds op
  have hbag := VaultState.bag_next event ⟨some v, mem⟩
  have hnext := VaultState.map_next event ⟨some v, mem⟩
  rw [hsession] at hbag
  rw [hstep, hanswer, hreply]
  refine ⟨rfl, ?_, h.memory.trans hmemory.symm, h.isReady.trans hup.symm⟩
  rw [hbag, hnext]
  have hkept := hholds
  rw [show VaultState.map ⟨some v, mem⟩ = some v.keys from rfl, ← hmap] at hkept
  exact hkept

/-- A call while both are up. -/
theorem Realizes.step_up (h : Realizes rs strategy hsm ⟨some v, mem⟩) (event : Event) :
    (Hsm.step event hsm).1 = (VaultState.step event ⟨some v, mem⟩).1 ∧
      Realizes rs strategy (Hsm.step event hsm).2 (VaultState.step event ⟨some v, mem⟩).2 := by
  have hflag := h.isInitialized
  cases event with
  | init =>
      have hinit : hsm.api.init hsm.world = (.ok, hsm.api, hsm.world) := if_pos hflag
      rw [Hsm.step, hinit]
      exact ⟨rfl, h⟩
  | deinit =>
      obtain ⟨w, hdeinit, hholds⟩ := h.deinit_eq
      rw [Hsm.step, hdeinit]
      exact ⟨rfl, hholds, h.memory, rfl⟩
  | isReady => exact ⟨congrArg Answer.truth h.isReady, h⟩
  | isSessionValid sessionId =>
      exact ⟨congrArg Answer.truth (h.isSessionValid_eq sessionId), h⟩
  | getVersion => exact ⟨rfl, h⟩
  | store address byte =>
      exact ⟨rfl, h.holds, congrArg (fun mem => Memory.write mem address byte) h.memory, h.isReady⟩
  | encrypt sessionId slotId algorithm input output =>
      exact h.request_up .encrypt sessionId slotId algorithm input output rfl rfl
        strategy.encrypt_eq
  | decrypt sessionId slotId algorithm input output =>
      exact h.request_up .decrypt sessionId slotId algorithm input output rfl rfl
        strategy.decrypt_eq
  | createSession sessionId =>
      have hcall : hsm.api.createSession sessionId hsm.world =
          rs.sessionManager.createSession sessionId hsm.world := dif_pos hflag
      apply h.session_up (.createSession sessionId) rfl rfl
      · rw [Hsm.step, hcall]
        rfl
      · exact VaultState.reply_createSession _ sessionId
      · rfl
      · rfl
  | closeSession sessionId =>
      have hcall : hsm.api.closeSession sessionId hsm.world =
          rs.sessionManager.closeSession sessionId hsm.world := dif_pos hflag
      apply h.session_up (.closeSession sessionId) rfl rfl
      · rw [Hsm.step, hcall]
        rfl
      · exact VaultState.reply_closeSession _ sessionId
      · rfl
      · rfl
  | importKey slotId algorithm keyData permissions =>
      have hcall : hsm.api.importKey slotId algorithm keyData permissions hsm.world =
          rs.keystoreService.importKey slotId algorithm keyData permissions hsm.world :=
        dif_pos hflag
      apply h.keystore_up (.importKey slotId algorithm keyData permissions) rfl rfl
      · rw [Hsm.step, hcall]
        rfl
      · exact VaultState.reply_importKey _ slotId algorithm keyData permissions
      · rfl
      · rfl
  | deleteKey slotId =>
      have hcall : hsm.api.deleteKey slotId hsm.world =
          rs.keystoreService.deleteKey slotId hsm.world := dif_pos hflag
      apply h.keystore_up (.deleteKey slotId) rfl rfl
      · rw [Hsm.step, hcall]
        rfl
      · exact VaultState.reply_deleteKey _ slotId
      · rfl
      · rfl
  | getKeySlotInfo slotId info =>
      have hcall : hsm.api.getKeySlotInfo slotId info hsm.world =
          rs.keystoreService.getSlotInfo slotId info hsm.world := dif_pos hflag
      apply h.keystore_up (.getSlotInfo slotId info) rfl
      · show some v.keys = (KeyMap.step (.getSlotInfo slotId info) (some v.keys)).2
        simp only [KeyMap.step]
        split <;> rfl
      · rw [Hsm.step, hcall]
        rfl
      · exact VaultState.reply_getKeySlotInfo _ slotId info
      · rfl
      · rfl
  | clearAllKeys =>
      have hcall : hsm.api.clearAllKeys hsm.world =
          rs.keystoreService.clearAll hsm.world := dif_pos hflag
      apply h.keystore_up .clearAll rfl rfl
      · rw [Hsm.step, hcall]
        rfl
      · exact VaultState.reply_clearAllKeys _
      · rfl
      · rfl

end

/-- **The facade over services that keep their contract** moves in step with the
vault. -/
theorem simulates_vault (rs : RealizedServices W) (strategy : Strategy) :
    Machine.Simulation (Hsm.machine (rs.services strategy)) VaultState.machine
      (Realizes rs strategy) Eq Eq := by
  apply Machine.Simulation.of_step
  rintro event hsm ⟨vault, mem⟩ h
  cases vault with
  | none => exact h.step_down event
  | some v => exact h.step_up event

theorem realizes_start (rs : RealizedServices W) (strategy : Strategy) (mem : Memory) :
    Realizes rs strategy (.boot (rs.services strategy) mem rs.start) (.start mem) :=
  ⟨rs.start_holds, rfl, rfl⟩

/--
**The facade is verified against its interfaces.**  Over any session manager that is
a bag of sessions and any key store that is a map of keys, in whatever form they hold
them, every run of the wired facade from power-on is answered as the vault answers
it, leaves the same memory, and is ready exactly while the vault is up; and the
services then hold the sessions and the keys of the vault.
-/
theorem facade_is_vault (rs : RealizedServices W) (strategy : Strategy) (mem : Memory)
    (events : List Event) :
    let start := Hsm.boot (rs.services strategy) mem rs.start
    let hsm := (Hsm.machine (rs.services strategy)).run events start
    let s := vaultAfter mem events
    (Hsm.machine (rs.services strategy)).replies events start =
        VaultState.machine.replies events (.start mem) ∧
      hsm.memory = s.memory ∧ hsm.api.isReady = s.vault.isSome ∧
      rs.Holds hsm.world s.bag s.map := by
  intro start hsm s
  have hstart := realizes_start rs strategy mem
  have hrun : Realizes rs strategy hsm s := (rs.simulates_vault strategy).run_eq events hstart
  exact ⟨(rs.simulates_vault strategy).replies_eq events hstart, hrun.memory, hrun.isReady,
    hrun.holds⟩

end RealizedServices

/-! ## The services of the repository -/

namespace World

/-- The session manager and the key store of the repository keep the contract. -/
def realized (accessCount : Fin kMaxKeySlots → UInt32) : RealizedServices World where
  sessionManager := sessionManager
  keystoreService := keystoreService
  Holds := fun w bag map => w.sessions.Represents bag ∧ w.keystore.Represents map
  sessions := by
    intro map
    apply Machine.Simulation.of_step
    rintro op w bag ⟨hsessions, hkeys⟩
    have hreply := SessionManager.simulates.reply (i := op) rfl hsessions
    have hnext := SessionManager.simulates.next (i := op) rfl hsessions
    cases op <;> exact ⟨hreply, hnext, hkeys⟩
  keys := by
    intro bag
    apply Machine.Simulation.of_step
    rintro op w map ⟨hsessions, hkeys⟩
    have hreply := KeystoreService.simulates.reply (i := op) rfl hkeys
    have hnext := KeystoreService.simulates.next (i := op) rfl hkeys
    cases op <;> exact ⟨hreply, hsessions, hnext⟩
  start := ⟨.construct, .construct accessCount⟩
  start_holds :=
    ⟨SessionManager.represents_construct, KeystoreService.represents_construct accessCount⟩

/-- The firmware is the facade over them. -/
theorem realized_services (accessCount : Fin kMaxKeySlots → UInt32) (strategy : Strategy) :
    (realized accessCount).services strategy = services strategy := rfl

theorem realized_powerOn (accessCount : Fin kMaxKeySlots → UInt32) (strategy : Strategy)
    (mem : Memory) :
    .boot ((realized accessCount).services strategy) mem (realized accessCount).start =
      WiredHsm.powerOn strategy accessCount mem := rfl

end World

end Ehsm
