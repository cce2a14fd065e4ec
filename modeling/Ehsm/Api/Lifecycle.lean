import Ehsm.Api.Facade
import Mathlib.Data.List.Nodup

/-!
# Starting and stopping three services behind one flag

The facade keeps one flag, the services keep three.  Here the services are any
three that follow the lifecycle contract of the session manager and the key
store, with failures wherever the contract allows one: a service that has to
change its state may refuse with an error of its choice.

`init` can be repeated until it succeeds.  `deinit` cannot: it shuts the crypto
service down first, and when a later service refuses, the flag stays up over a
crypto service that is down, which from then on answers `errNotInitialized`
before the others are asked.

## Main results

* `LifecycleServices.chain_deinit_iff` — services stop in order exactly when none
  of them refuses.
* `LifecycleServices.usable_throughout_iff` — ready means usable throughout a run
  exactly when no shutdown fails after the crypto service is down.
* `LifecycleServices.locked_out` — from then on the facade never shuts down.
-/

namespace Ehsm

open Reactive

variable {W : Type*}

/-! ## The contract -/

inductive Service where
  | session
  | keystore
  | crypto
  deriving DecidableEq, Repr

/-- How one service starts, `up` telling which services are initialised: a service
that is up has nothing to do, another one starts or fails without effect. -/
structure Startable (up : W → Service → Bool) (s : Service) (init : W → Status × W) : Prop where
  init_up : ∀ w, up w s = true → (init w).1 = .ok ∧ up (init w).2 = up w
  init_down : ∀ w, up w s = false →
    ((init w).1 = .ok ∧ up (init w).2 = Function.update (up w) s true) ∨
      ((init w).1 ≠ .ok ∧ up (init w).2 = up w)

/-- One service's lifecycle, `up` telling which services are initialised: `init`
on an initialised service and `deinit` on another do nothing, and a call that has
something to do does it or fails without effect. -/
structure FollowsLifecycle (up : W → Service → Bool) (s : Service)
    (init deinit : W → Status × W) : Prop extends Startable up s init where
  deinit_down : ∀ w, up w s = false →
    (deinit w).1 = .errNotInitialized ∧ up (deinit w).2 = up w
  deinit_up : ∀ w, up w s = true →
    ((deinit w).1 = .ok ∧ up (deinit w).2 = Function.update (up w) s false) ∨
      ((deinit w).1 ≠ .ok ∧ up (deinit w).2 = up w)

/-- A service with a flag of its own, which `init` raises and `deinit` lowers without
fail. -/
structure Switched {C : Type*} (flag : C → Bool) (init deinit : C → Status × C) : Prop where
  init_up : ∀ c, flag c = true → init c = (.ok, c)
  init_down : ∀ c, flag c = false → (init c).1 = .ok ∧ flag (init c).2 = true
  deinit_down : ∀ c, flag c = false → deinit c = (.errNotInitialized, c)
  deinit_up : ∀ c, flag c = true → (deinit c).1 = .ok ∧ flag (deinit c).2 = false

/-- Such a service follows the contract as a part of a world, read by `get` and
written by `set`. -/
theorem Switched.followsLifecycle {C : Type*} {flag : C → Bool} {init deinit : C → Status × C}
    (h : Switched flag init deinit) {up : W → Service → Bool} {s : Service} (get : W → C)
    (set : C → W → W) (hget : ∀ w, flag (get w) = up w s)
    (hset : ∀ c w, up (set c w) = Function.update (up w) s (flag c)) :
    FollowsLifecycle up s (fun w => ((init (get w)).1, set (init (get w)).2 w))
      (fun w => ((deinit (get w)).1, set (deinit (get w)).2 w)) := by
  have hsame : ∀ w, up (set (get w) w) = up w := by
    intro w
    rw [hset, hget, Function.update_eq_self]
  refine { init_up := ?_, init_down := ?_, deinit_down := ?_, deinit_up := ?_ }
  · intro w hup
    rw [h.init_up _ ((hget w).trans hup)]
    exact ⟨rfl, hsame w⟩
  · intro w hdown
    obtain ⟨hok, hraised⟩ := h.init_down _ ((hget w).trans hdown)
    exact .inl ⟨hok, by rw [hset, hraised]⟩
  · intro w hdown
    rw [h.deinit_down _ ((hget w).trans hdown)]
    exact ⟨rfl, hsame w⟩
  · intro w hup
    obtain ⟨hok, hlowered⟩ := h.deinit_up _ ((hget w).trans hup)
    exact .inl ⟨hok, by rw [hset, hlowered]⟩

/-! ## Starting in order -/

/-- A start that succeeds leaves the service up and the others as they were. -/
theorem Startable.up_of_ok {up : W → Service → Bool} {s : Service} {init : W → Status × W}
    (h : Startable up s init) {w : W} (hok : (init w).1 = .ok) :
    up (init w).2 = Function.update (up w) s true := by
  cases hws : up w s with
  | true => rw [(h.init_up w hws).2, ← hws, Function.update_eq_self]
  | false =>
      rcases h.init_down w hws with ⟨-, hup⟩ | ⟨hfail, -⟩
      · exact hup
      · exact absurd hok hfail

/-- A start of several services that succeeds brings each of them up and leaves
the others. -/
theorem up_of_chain_ok {up : W → Service → Bool} {start : Service → W → Status × W}
    (h : ∀ s, Startable up s (start s)) (ss : List Service) (w : W)
    (hok : (chain (ss.map start) w).1 = .ok) (t : Service) :
    up (chain (ss.map start) w).2 t = (decide (t ∈ ss) || up w t) := by
  induction ss generalizing w with
  | nil => simp
  | cons s ss ih =>
      rw [List.map_cons] at hok ⊢
      by_cases hs : (start s w).1 = .ok
      · rw [chain_cons_ok hs] at hok ⊢
        rw [ih _ hok, (h s).up_of_ok hs]
        by_cases ht : t = s
        · subst ht
          simp
        · simp [ht]
      · rw [chain_cons_error hs] at hok
        exact absurd hok hs

/-! ## Services that only start and stop

Their other calls do nothing, and succeed but for `hash`. -/

section

variable (init deinit : W → Status × W)

def ISessionManager.idle : ISessionManager W where
  init := init
  deinit := deinit
  createSession := fun sessionId w => (.ok, sessionId, w)
  closeSession := fun _ w => (.ok, w)
  isSessionValid := fun _ _ => true

def IKeystoreService.idle : IKeystoreService W where
  init := init
  deinit := deinit
  importKey := fun _ _ _ _ w => (.ok, w)
  deleteKey := fun _ w => (.ok, w)
  getKey := fun _ key w => (.ok, key, w)
  getSlotInfo := fun _ info w => (.ok, info, w)
  clearAll := fun w => (.ok, w)
  isSlotOccupied := fun _ _ => false

def ICryptoService.idle : ICryptoService W where
  init := init
  deinit := deinit
  encrypt := fun _ _ _ mem w => (.ok, mem, w)
  decrypt := fun _ _ _ mem w => (.ok, mem, w)
  hash := fun _ _ _ mem w => (.errUnsupported, mem, w)

end

/-! ## Three services -/

/-- Three services under the contract.  Only `init` and `deinit` start and stop
a service. -/
structure LifecycleServices (W : Type*) where
  sessionManager : ISessionManager W
  keystoreService : IKeystoreService W
  cryptoService : ICryptoService W
  up : W → Service → Bool
  session_lifecycle : FollowsLifecycle up .session sessionManager.init sessionManager.deinit
  keystore_lifecycle :
    FollowsLifecycle up .keystore keystoreService.init keystoreService.deinit
  crypto_lifecycle : FollowsLifecycle up .crypto cryptoService.init cryptoService.deinit
  createSession_up : ∀ sessionId w,
    up (sessionManager.createSession sessionId w).2.2 = up w
  closeSession_up : ∀ sessionId w, up (sessionManager.closeSession sessionId w).2 = up w
  importKey_up : ∀ keySlotId algorithm keyData permissions w,
    up (keystoreService.importKey keySlotId algorithm keyData permissions w).2 = up w
  deleteKey_up : ∀ keySlotId w, up (keystoreService.deleteKey keySlotId w).2 = up w
  getSlotInfo_up : ∀ keySlotId info w,
    up (keystoreService.getSlotInfo keySlotId info w).2.2 = up w
  clearAll_up : ∀ w, up (keystoreService.clearAll w).2 = up w
  encrypt_up : ∀ input output keySlotId mem w,
    up (cryptoService.encrypt input output keySlotId mem w).2.2 = up w
  decrypt_up : ∀ input output keySlotId mem w,
    up (cryptoService.decrypt input output keySlotId mem w).2.2 = up w

namespace LifecycleServices

variable (ls : LifecycleServices W)

/-- The services as the facade is given them. -/
def services : Services W where
  sessionManager := some ls.sessionManager
  cryptoService := some ls.cryptoService
  keystoreService := some ls.keystoreService

theorem services_wired : ls.services.Wired := ⟨rfl, rfl, rfl⟩

def initOf : Service → W → Status × W
  | .session => ls.sessionManager.init
  | .keystore => ls.keystoreService.init
  | .crypto => ls.cryptoService.init

def deinitOf : Service → W → Status × W
  | .session => ls.sessionManager.deinit
  | .keystore => ls.keystoreService.deinit
  | .crypto => ls.cryptoService.deinit

theorem followsLifecycle (s : Service) :
    FollowsLifecycle ls.up s (ls.initOf s) (ls.deinitOf s) := by
  cases s with
  | session => exact ls.session_lifecycle
  | keystore => exact ls.keystore_lifecycle
  | crypto => exact ls.crypto_lifecycle

/-- The order of `HsmApiImpl::init`. -/
def startOrder : List Service := [.session, .keystore, .crypto]

/-- The order of `HsmApiImpl::deinit`. -/
def stopOrder : List Service := [.crypto, .keystore, .session]

/-- Every service is initialised. -/
def AllUp (w : W) : Prop := ∀ s, ls.up w s = true

/-- No service of the list that is up when its turn comes refuses to stop. -/
def NoOwnFailure : List Service → W → Prop
  | [], _ => True
  | s :: ss, w =>
      (ls.up w s = true → (ls.deinitOf s w).1 = .ok) ∧
        ((ls.deinitOf s w).1 = .ok → NoOwnFailure ss (ls.deinitOf s w).2)

/-- A start that succeeds brings every service of the list up and leaves the
others. -/
theorem up_of_chain_init_ok (ss : List Service) (w : W)
    (hok : (chain (ss.map ls.initOf) w).1 = .ok) (t : Service) :
    ls.up (chain (ss.map ls.initOf) w).2 t = (decide (t ∈ ss) || ls.up w t) :=
  up_of_chain_ok (fun s => (ls.followsLifecycle s).toStartable) ss w hok t

/-! ## Stopping in order -/

/-- Stopping never brings a service up. -/
theorem up_of_up_deinitOf (s : Service) (w : W) {t : Service}
    (h : ls.up (ls.deinitOf s w).2 t = true) : ls.up w t = true := by
  cases hws : ls.up w s with
  | false => rwa [((ls.followsLifecycle s).deinit_down w hws).2] at h
  | true =>
      rcases (ls.followsLifecycle s).deinit_up w hws with ⟨-, hup⟩ | ⟨-, hup⟩
      · rw [hup] at h
        by_cases ht : t = s
        · rw [ht]
          exact hws
        · rwa [Function.update_of_ne ht] at h
      · rwa [hup] at h

theorem up_of_up_chain_deinit (ss : List Service) (w : W) {t : Service}
    (h : ls.up (chain (ss.map ls.deinitOf) w).2 t = true) : ls.up w t = true := by
  induction ss generalizing w with
  | nil => exact h
  | cons s ss ih =>
      rw [List.map_cons] at h
      by_cases hs : (ls.deinitOf s w).1 = .ok
      · rw [chain_cons_ok hs] at h
        exact ls.up_of_up_deinitOf s w (ih _ h)
      · rw [chain_cons_error hs] at h
        exact ls.up_of_up_deinitOf s w h

/-- A service that stops is down. -/
theorem up_deinitOf_of_ok {s : Service} {w : W} (hup : ls.up w s = true)
    (hok : (ls.deinitOf s w).1 = .ok) :
    ls.up (ls.deinitOf s w).2 = Function.update (ls.up w) s false := by
  rcases (ls.followsLifecycle s).deinit_up w hup with ⟨-, h⟩ | ⟨hfail, -⟩
  · exact h
  · exact absurd hok hfail

/-- Services that are up stop in order exactly when none of them refuses, and
then they are down. -/
theorem chain_deinit_iff (ss : List Service) (hnodup : ss.Nodup) (w : W)
    (hup : ∀ s ∈ ss, ls.up w s = true) :
    ((chain (ss.map ls.deinitOf) w).1 = .ok ↔ ls.NoOwnFailure ss w) ∧
      ((chain (ss.map ls.deinitOf) w).1 = .ok →
        ∀ s ∈ ss, ls.up (chain (ss.map ls.deinitOf) w).2 s = false) := by
  induction ss generalizing w with
  | nil => exact ⟨iff_of_true rfl trivial, fun _ s hs => absurd hs List.not_mem_nil⟩
  | cons s ss ih =>
      obtain ⟨hfresh, hnodup⟩ := List.nodup_cons.mp hnodup
      have hs : ls.up w s = true := hup s List.mem_cons_self
      rw [List.map_cons, NoOwnFailure]
      by_cases hok : (ls.deinitOf s w).1 = .ok
      · have hnext := ls.up_deinitOf_of_ok hs hok
        have hrest : ∀ t ∈ ss, ls.up (ls.deinitOf s w).2 t = true := by
          intro t ht
          have hne : t ≠ s := fun h => hfresh (h ▸ ht)
          rw [hnext, Function.update_of_ne hne]
          exact hup t (List.mem_cons_of_mem s ht)
        obtain ⟨hiff, hdown⟩ := ih hnodup (ls.deinitOf s w).2 hrest
        rw [chain_cons_ok hok]
        constructor
        · rw [hiff]
          exact ⟨fun h => ⟨fun _ => hok, fun _ => h⟩, fun h => h.2 hok⟩
        · intro hall t ht
          rcases List.mem_cons.mp ht with rfl | ht
          · -- the first service is down already, and the rest do not start it
            rw [Bool.eq_false_iff]
            intro hagain
            have hback := ls.up_of_up_chain_deinit ss _ hagain
            rw [hnext, Function.update_self] at hback
            contradiction
          · exact hdown hall t ht
      · rw [chain_cons_error hok]
        exact ⟨iff_of_false hok fun h => hok (h.1 hs), fun h => absurd h hok⟩

/-! ## Ready and usable -/

/-- Ready means usable: all services are up, and a shutdown in which none of
them refuses succeeds and leaves everything down. -/
def Usable (hsm : Hsm ls.services) : Prop :=
  hsm.api.isReady = true →
    ls.AllUp hsm.world ∧
      (ls.NoOwnFailure stopOrder hsm.world →
        (hsm.api.deinit hsm.world).1 = .ok ∧
          (hsm.api.deinit hsm.world).2.1.isReady = false ∧
          ∀ s, ls.up (hsm.api.deinit hsm.world).2.2 s = false)

/-- A shutdown either fails at the crypto service, the first to be asked, or does
not fail. -/
def StopsWhole (event : Event) (hsm : Hsm ls.services) : Prop :=
  event = .deinit → hsm.api.isReady = true →
    (ls.cryptoService.deinit hsm.world).1 ≠ .ok ∨ ls.NoOwnFailure stopOrder hsm.world

theorem mem_startOrder (s : Service) : s ∈ startOrder := by
  cases s <;> decide

theorem mem_stopOrder (s : Service) : s ∈ stopOrder := by
  cases s <;> decide

theorem deinit_of_ready (hsm : Hsm ls.services) (h : hsm.api.isReady = true) :
    hsm.api.deinit hsm.world =
      if (chain (stopOrder.map ls.deinitOf) hsm.world).1 = .ok then
        (.ok, .construct ls.services, (chain (stopOrder.map ls.deinitOf) hsm.world).2)
      else
        ((chain (stopOrder.map ls.deinitOf) hsm.world).1, hsm.api,
          (chain (stopOrder.map ls.deinitOf) hsm.world).2) := by
  have hflag : hsm.api.isInitialized = true := h
  have hdeinit : hsm.api.deinit hsm.world =
      (let result := chain (stopOrder.map ls.deinitOf) hsm.world
       if !result.1.isOk then (result.1, hsm.api, result.2)
       else (.ok, .construct ls.services, result.2)) := dif_pos hflag
  rw [hdeinit]
  by_cases hok : (chain (stopOrder.map ls.deinitOf) hsm.world).1 = .ok
  · rw [if_pos hok]
    exact if_neg (by simp [hok])
  · rw [if_neg hok]
    exact if_pos (by simp [StatusCode.isOk_of_ne hok])

/-- All that usability asks of a ready facade is that the services are up. -/
theorem usable_iff (hsm : Hsm ls.services) :
    ls.Usable hsm ↔ (hsm.api.isReady = true → ls.AllUp hsm.world) := by
  constructor
  · intro h hready
    exact (h hready).1
  · intro h hready
    have hup := h hready
    refine ⟨hup, ?_⟩
    intro hclean
    obtain ⟨hiff, hdown⟩ :=
      ls.chain_deinit_iff stopOrder (by decide) hsm.world fun s _ => hup s
    have hok := hiff.mpr hclean
    rw [ls.deinit_of_ready hsm hready, if_pos hok]
    exact ⟨rfl, rfl, fun s => hdown hok s (mem_stopOrder s)⟩

/-! ## One call -/

section

variable {ls}

theorem crypt_up (api : HsmApiImpl ls.services) (required : KeyPermission)
    (serve : ICryptoService W → Span → Span → UInt8 → Memory → W → Status × Memory × W)
    (hserve : ∀ input output keySlotId mem w,
      ls.up (serve ls.cryptoService input output keySlotId mem w).2.2 = ls.up w)
    (sessionId : SessionId) (keySlotId : UInt8) (algorithm : Algorithm) (input output : Span)
    (mem : Memory) (w : W) :
    ls.up (api.crypt required serve sessionId keySlotId algorithm input output mem w).2.2 =
      ls.up w := by
  have hinfo := ls.getSlotInfo_up keySlotId {} w
  unfold HsmApiImpl.crypt
  by_cases h : api.isInitialized = true
  · rw [dif_pos h]
    split
    · rfl
    split
    · rfl
    split
    · rfl
    show ls.up (if _ then _ else if _ then _ else _ : Status × Memory × W).2.2 = _
    split
    · exact hinfo
    split
    · exact hinfo
    · exact (hserve _ _ _ _ _).trans hinfo
  · rw [dif_neg h]

/-- Calls other than `init` and `deinit` keep the flag and every service's state. -/
theorem next_keeps (event : Event) (hinit : event ≠ .init) (hdeinit : event ≠ .deinit)
    (hsm : Hsm ls.services) :
    ((Hsm.machine ls.services).next event hsm).api = hsm.api ∧
      ls.up ((Hsm.machine ls.services).next event hsm).world = ls.up hsm.world := by
  simp only [Hsm.machine, Machine.next]
  cases event with
  | init | deinit => contradiction
  | isReady | isSessionValid _ | getVersion | store _ _ => exact ⟨rfl, rfl⟩
  | createSession sessionId =>
      refine ⟨rfl, ?_⟩
      show ls.up (hsm.api.createSession sessionId hsm.world).2.2 = _
      unfold HsmApiImpl.createSession
      split
      · exact ls.createSession_up sessionId hsm.world
      · rfl
  | closeSession sessionId =>
      refine ⟨rfl, ?_⟩
      show ls.up (hsm.api.closeSession sessionId hsm.world).2 = _
      unfold HsmApiImpl.closeSession
      split
      · exact ls.closeSession_up sessionId hsm.world
      · rfl
  | encrypt sessionId keySlotId algorithm input output =>
      exact ⟨rfl, crypt_up hsm.api .encrypt (·.encrypt) ls.encrypt_up sessionId keySlotId
        algorithm input output hsm.memory hsm.world⟩
  | decrypt sessionId keySlotId algorithm input output =>
      exact ⟨rfl, crypt_up hsm.api .decrypt (·.decrypt) ls.decrypt_up sessionId keySlotId
        algorithm input output hsm.memory hsm.world⟩
  | importKey keySlotId algorithm keyData permissions =>
      refine ⟨rfl, ?_⟩
      show ls.up (hsm.api.importKey keySlotId algorithm keyData permissions hsm.world).2 = _
      unfold HsmApiImpl.importKey
      split
      · exact ls.importKey_up keySlotId algorithm keyData permissions hsm.world
      · rfl
  | deleteKey keySlotId =>
      refine ⟨rfl, ?_⟩
      show ls.up (hsm.api.deleteKey keySlotId hsm.world).2 = _
      unfold HsmApiImpl.deleteKey
      split
      · exact ls.deleteKey_up keySlotId hsm.world
      · rfl
  | getKeySlotInfo keySlotId info =>
      refine ⟨rfl, ?_⟩
      show ls.up (hsm.api.getKeySlotInfo keySlotId info hsm.world).2.2 = _
      unfold HsmApiImpl.getKeySlotInfo
      split
      · exact ls.getSlotInfo_up keySlotId info hsm.world
      · rfl
  | clearAllKeys =>
      refine ⟨rfl, ?_⟩
      show ls.up (hsm.api.clearAllKeys hsm.world).2 = _
      unfold HsmApiImpl.clearAllKeys
      split
      · exact ls.clearAll_up hsm.world
      · rfl

/-- The three cases of `init`: nothing to do, a start that fails and leaves the
flag down, a start that succeeds. -/
theorem init_cases (api : HsmApiImpl ls.services) (w : W) :
    (api.isInitialized = true ∧ api.init w = (.ok, api, w)) ∨
      (api.isInitialized = false ∧ (chain (startOrder.map ls.initOf) w).1 ≠ .ok ∧
        api.init w =
          ((chain (startOrder.map ls.initOf) w).1, api, (chain (startOrder.map ls.initOf) w).2)) ∨
      (api.isInitialized = false ∧ (chain (startOrder.map ls.initOf) w).1 = .ok ∧
        api.init w =
          (.ok, ⟨true, fun _ => ls.services_wired⟩, (chain (startOrder.map ls.initOf) w).2)) :=
  HsmApiImpl.init_cases api ls.services_wired w

/-- A start that succeeds leaves all services up. -/
theorem usable_init {hsm : Hsm ls.services} (h : ls.Usable hsm) :
    ls.Usable ((Hsm.machine ls.services).next .init hsm) := by
  rw [usable_iff] at h ⊢
  intro hready
  simp only [Hsm.machine, Machine.next, Hsm.step] at hready ⊢
  rcases init_cases hsm.api hsm.world with ⟨hflag, hres⟩ | ⟨hflag, -, hres⟩ | ⟨-, hok, hres⟩
  · rw [hres]
    exact h hflag
  · rw [hres] at hready
    exact absurd (hflag.symm.trans hready) (by decide)
  · rw [hres]
    intro s
    rw [ls.up_of_chain_init_ok startOrder hsm.world hok s]
    simp [mem_startOrder s]

/-- A shutdown of a usable facade leaves it usable exactly when it stops whole. -/
theorem usable_deinit_iff {hsm : Hsm ls.services} (h : ls.Usable hsm) :
    ls.Usable ((Hsm.machine ls.services).next .deinit hsm) ↔ ls.StopsWhole .deinit hsm := by
  simp only [Hsm.machine, Machine.next, Hsm.step]
  cases hready : hsm.api.isReady with
  | false =>
      have hflag : ¬ hsm.api.isInitialized = true := by
        rw [show hsm.api.isInitialized = false from hready]
        decide
      have hres : hsm.api.deinit hsm.world = (.errNotInitialized, hsm.api, hsm.world) := by
        rw [HsmApiImpl.deinit, dif_neg hflag]
      rw [hres]
      exact iff_of_true h fun _ htrue => absurd (hready.symm.trans htrue) (by decide)
  | true =>
      have hup := (h hready).1
      obtain ⟨hiff, -⟩ := ls.chain_deinit_iff stopOrder (by decide) hsm.world fun s _ => hup s
      rw [ls.deinit_of_ready hsm hready]
      by_cases hok : (chain (stopOrder.map ls.deinitOf) hsm.world).1 = .ok
      · -- nothing refused: the flag is down again
        rw [if_pos hok]
        refine iff_of_true ?_ fun _ _ => .inr (hiff.mp hok)
        exact fun hagain => absurd hagain (by simp [HsmApiImpl.construct, HsmApiImpl.isReady])
      · rw [if_neg hok, usable_iff]
        by_cases hcrypto : (ls.deinitOf .crypto hsm.world).1 = .ok
        · -- the crypto service is down under a raised flag
          refine iff_of_false ?_ ?_
          · intro husable
            have hstill := husable hready .crypto
            rw [stopOrder, List.map_cons, chain_cons_ok hcrypto] at hstill
            have hback := ls.up_of_up_chain_deinit [.keystore, .session] _ hstill
            rw [ls.up_deinitOf_of_ok (hup .crypto) hcrypto, Function.update_self] at hback
            contradiction
          · intro hwhole
            rcases hwhole rfl hready with hfail | hclean
            · exact hfail hcrypto
            · exact hok (hiff.mpr hclean)
        · refine iff_of_true ?_ fun _ _ => .inl hcrypto
          intro _ s
          rw [stopOrder, List.map_cons, chain_cons_error hcrypto]
          rcases ls.crypto_lifecycle.deinit_up hsm.world (hup .crypto) with ⟨hgood, -⟩ | ⟨-, hsame⟩
          · exact absurd hgood hcrypto
          · exact (congrFun hsame s).trans (hup s)

end

/-! ## Runs -/

/--
**Ready means usable, exactly.**  In a run of any calls over services with any
failures, ready means usable in every state if and only if every `deinit` of a
ready facade stops whole: it fails at the crypto service or not at all.
-/
theorem usable_throughout_iff (events : List Event) (mem : Memory) (w : W) :
    (Hsm.machine ls.services).Always ls.Usable events (.boot ls.services mem w) ↔
      (Hsm.machine ls.services).Steps ls.StopsWhole events (.boot ls.services mem w) := by
  apply (Hsm.machine ls.services).always_iff_steps (Q := fun _ => True) (fun _ _ _ => trivial)
  · intro event hsm _ h
    by_cases hdeinit : event = .deinit
    · subst hdeinit
      exact usable_deinit_iff h
    · refine iff_of_true ?_ fun hevent => absurd hevent hdeinit
      by_cases hinit : event = .init
      · subst hinit
        exact usable_init h
      · obtain ⟨hapi, hup⟩ := next_keeps event hinit hdeinit hsm
        rw [usable_iff] at h ⊢
        rw [hapi, AllUp, hup]
        exact h
  · trivial
  · exact fun hready => absurd hready (by simp [Hsm.boot, HsmApiImpl.construct, HsmApiImpl.isReady])

/-- A ready facade over a crypto service that is down: `deinit` fails at once. -/
theorem deinit_of_crypto_down {hsm : Hsm ls.services} (hready : hsm.api.isReady = true)
    (hdown : ls.up hsm.world .crypto = false) :
    (hsm.api.deinit hsm.world).1 = .errNotInitialized ∧
      (hsm.api.deinit hsm.world).2.1 = hsm.api ∧
      ls.up (hsm.api.deinit hsm.world).2.2 = ls.up hsm.world := by
  obtain ⟨herror, hsame⟩ := ls.crypto_lifecycle.deinit_down hsm.world hdown
  have hfirst : (ls.deinitOf .crypto hsm.world).1 ≠ .ok := by
    rw [deinitOf, herror]
    decide
  rw [ls.deinit_of_ready hsm hready, stopOrder, List.map_cons, chain_cons_error hfirst,
    if_neg hfirst]
  exact ⟨herror, rfl, hsame⟩

/-- Once ready over a crypto service that is down, the facade stays so whatever
is called: no `init` restarts the service and no `deinit` gets past it. -/
theorem locked_out (events : List Event) {hsm : Hsm ls.services}
    (hready : hsm.api.isReady = true) (hdown : ls.up hsm.world .crypto = false) :
    ((Hsm.machine ls.services).run events hsm).api.isReady = true ∧
      ls.up ((Hsm.machine ls.services).run events hsm).world .crypto = false := by
  refine (Hsm.machine ls.services).run_induction
    (P := fun hsm => hsm.api.isReady = true ∧ ls.up hsm.world .crypto = false) ?_ events
    ⟨hready, hdown⟩
  intro event hsm h
  obtain ⟨hready, hdown⟩ := h
  by_cases hinit : event = .init
  · subst hinit
    have hres : hsm.api.init hsm.world = (.ok, hsm.api, hsm.world) := if_pos hready
    simp only [Hsm.machine, Machine.next, Hsm.step, hres]
    exact ⟨hready, hdown⟩
  by_cases hdeinit : event = .deinit
  · subst hdeinit
    obtain ⟨-, hapi, hup⟩ := ls.deinit_of_crypto_down hready hdown
    simp only [Hsm.machine, Machine.next, Hsm.step]
    rw [hapi, hup]
    exact ⟨hready, hdown⟩
  · obtain ⟨hapi, hup⟩ := next_keeps event hinit hdeinit hsm
    rw [hapi, hup]
    exact ⟨hready, hdown⟩

/-! ## A key store that refuses once -/

/-- The state of three services, and whether the key store's next shutdown
fails. -/
structure Bench where
  up : Service → Bool
  fault : Bool

def Bench.start (s : Service) (b : Bench) : Status × Bench :=
  (.ok, { b with up := Function.update b.up s true })

def Bench.stop (s : Service) (b : Bench) : Status × Bench :=
  if !b.up s then (.errNotInitialized, b)
  else if s = .keystore ∧ b.fault = true then (.errHardware, { b with fault := false })
  else (.ok, { b with up := Function.update b.up s false })

theorem bench_followsLifecycle (s : Service) :
    FollowsLifecycle Bench.up s (Bench.start s) (Bench.stop s) := by
  refine { init_up := ?_, init_down := ?_, deinit_down := ?_, deinit_up := ?_ }
  · intro b hb
    refine ⟨rfl, ?_⟩
    rw [Bench.start, ← hb, Function.update_eq_self]
  · exact fun b _ => .inl ⟨rfl, rfl⟩
  · intro b hb
    have hres : Bench.stop s b = (.errNotInitialized, b) := if_pos (by simp [hb])
    rw [hres]
    exact ⟨rfl, rfl⟩
  · intro b hb
    rw [Bench.stop, if_neg (by simp [hb])]
    split
    · exact .inr ⟨by simp, rfl⟩
    · exact .inl ⟨rfl, rfl⟩

def bench : LifecycleServices Bench where
  sessionManager := .idle (Bench.start .session) (Bench.stop .session)
  keystoreService := .idle (Bench.start .keystore) (Bench.stop .keystore)
  cryptoService := .idle (Bench.start .crypto) (Bench.stop .crypto)
  up := Bench.up
  session_lifecycle := bench_followsLifecycle .session
  keystore_lifecycle := bench_followsLifecycle .keystore
  crypto_lifecycle := bench_followsLifecycle .crypto
  createSession_up := fun _ _ => rfl
  closeSession_up := fun _ _ => rfl
  importKey_up := fun _ _ _ _ _ => rfl
  deleteKey_up := fun _ _ => rfl
  getSlotInfo_up := fun _ _ _ => rfl
  clearAll_up := fun _ => rfl
  encrypt_up := fun _ _ _ _ _ => rfl
  decrypt_up := fun _ _ _ _ _ => rfl

/-- The failing run: start, then a shutdown that the key store refuses once.  The
facade is ready over a crypto service that is down, and the next shutdown, in
which no service refuses, fails. -/
theorem bench_half_down :
    let hsm := (Hsm.machine bench.services).run [.init, .deinit]
      (.boot bench.services (fun _ => 0) ⟨fun _ => false, true⟩)
    hsm.api.isReady = true ∧ bench.up hsm.world .crypto = false ∧
      (bench.up hsm.world .keystore = true ∧ hsm.world.fault = false) ∧
      bench.NoOwnFailure stopOrder hsm.world ∧
      (hsm.api.deinit hsm.world).1 = .errNotInitialized ∧ ¬ bench.Usable hsm := by
  intro hsm
  have hready : hsm.api.isReady = true := rfl
  have hdown : bench.up hsm.world .crypto = false := rfl
  have herror : (bench.cryptoService.deinit hsm.world).1 = .errNotInitialized := rfl
  refine ⟨hready, hdown, ⟨rfl, rfl⟩, ⟨?_, ?_⟩, ?_, ?_⟩
  · exact fun hup => absurd (hdown.symm.trans hup) (by decide)
  · exact fun hok => absurd (herror.symm.trans hok) (by decide)
  · exact (bench.deinit_of_crypto_down hready hdown).1
  · exact fun husable => absurd (hdown.symm.trans ((husable hready).1 .crypto)) (by decide)

end LifecycleServices

end Ehsm
