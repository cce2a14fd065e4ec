import Ehsm.Hsm.Frame
import Ehsm.Hsm.Independence

/-!
# Any cipher behind the interface

The shipped strategies are mocks, and the interface is there so that a real cipher
can take their place.  What of the firmware then still holds?  The wiring is the
same for any `ICryptoAlgorithm` that keeps nothing between its calls: one that fails
when it likes, and writes where it likes.

Everything but the cipher's own work stays.  Along every run the sessions, the slots
with their counters and the flags are those of the shipped firmware, since a granted
request counts its access before the cipher is asked.  A request that is refused is
refused with the same code; a granted one is answered as the cipher answers, and
leaves the memory as the cipher leaves it.

The order of these two steps decides about atomicity: an error of the cipher comes
when the access has been counted.  So errors are atomic exactly with ciphers that do
not fail on fitting buffers.

## Main results

* `PluggedHsm.same_services` — the firmware with any cipher, against the shipped one.
* `PluggedHsm.atomic_iff` — when a failed call changes nothing.
-/

namespace Ehsm

open Reactive

namespace World

def cryptoServiceFor (algorithm : ICryptoAlgorithm) : CryptoService World where
  keystore := some keystoreService
  algorithm := some algorithm

/-- The composition root with another cipher. -/
def servicesFor (algorithm : ICryptoAlgorithm) : Services World where
  sessionManager := some sessionManager
  cryptoService := some (cryptoServiceFor algorithm).toInterface
  keystoreService := some keystoreService

theorem servicesFor_wired (algorithm : ICryptoAlgorithm) : (servicesFor algorithm).Wired :=
  ⟨rfl, rfl, rfl⟩

/-- The shipped firmware is the case of a shipped strategy. -/
theorem services_eq (strategy : Strategy) : services strategy = servicesFor strategy.algorithm :=
  rfl

end World

/-- The firmware with a cipher plugged in. -/
abbrev PluggedHsm (algorithm : ICryptoAlgorithm) := Hsm (World.servicesFor algorithm)

namespace PluggedHsm

open WiredHsm (Sound decision verdict firstFailing grants request statusOf Failed)

variable {algorithm : ICryptoAlgorithm}

def powerOn (algorithm : ICryptoAlgorithm) (accessCount : Fin kMaxKeySlots → UInt32)
    (mem : Memory) : PluggedHsm algorithm :=
  .boot (World.servicesFor algorithm) mem ⟨.construct, .construct accessCount⟩

abbrev machine (algorithm : ICryptoAlgorithm) : Machine (PluggedHsm algorithm) Event Answer :=
  Hsm.machine (World.servicesFor algorithm)

/-- The same flag, memory and services under a shipped strategy. -/
def shipped (strategy : Strategy) (hsm : PluggedHsm algorithm) : WiredHsm strategy where
  api := ⟨hsm.api.isInitialized, fun _ => World.services_wired strategy⟩
  memory := hsm.memory
  world := hsm.world

/-! ## Requests -/

/-- A request: the code of the first check that fails, or what the cipher does. -/
theorem crypt_eq {strategy : Strategy} {hsm : PluggedHsm algorithm} {map : Option KeyMap}
    (h : Sound (shipped strategy hsm) map) (required : KeyPermission)
    (serve : ICryptoService World → Span → Span → UInt8 → Memory → World →
      Status × Memory × World)
    (transform : ICryptoAlgorithm → Span → Span → Memory → Status × Memory)
    (hserve : serve (World.cryptoServiceFor algorithm).toInterface =
      (World.cryptoServiceFor algorithm).crypt transform)
    (sessionId : SessionId) (slotId : UInt8) (name : Algorithm) (input output : Span) :
    hsm.api.crypt required serve sessionId slotId name input output hsm.memory hsm.world =
      if decision required sessionId slotId input output (shipped strategy hsm) = .ok then
        ((transform algorithm input output hsm.memory).1,
          (transform algorithm input output hsm.memory).2,
          { hsm.world with keystore := (hsm.world.keystore.getKey slotId {}).2.2 })
      else
        (decision required sessionId slotId input output (shipped strategy hsm), hsm.memory,
          hsm.world) := by
  unfold decision verdict
  cases hready : (shipped strategy hsm).api.isReady with
  | false =>
      obtain ⟨hapi, -, -⟩ := h.flag false hready
      have hdown : ¬ hsm.api.isInitialized = true := Bool.not_eq_true _ ▸ hapi
      rw [HsmApiImpl.crypt, dif_neg hdown]
      simp [firstFailing]
  | true =>
      obtain ⟨hapi, -, hkeystore⟩ := h.flag true hready
      have hup : hsm.api.isInitialized = true := hapi
      by_cases hbuf : BadBuffers input output
      · rw [HsmApiImpl.crypt, dif_pos hup, if_pos hbuf]
        simp [firstFailing, hbuf]
      have hactive : hsm.api.isSessionValid sessionId hsm.world =
          (shipped strategy hsm).world.sessions.isSessionValid sessionId :=
        h.isSessionValid_eq sessionId
      cases hsession : (shipped strategy hsm).world.sessions.isSessionValid sessionId with
      | false =>
          rw [HsmApiImpl.crypt, dif_pos hup, if_neg hbuf, hactive, hsession, if_pos (by decide)]
          simp [firstFailing, hbuf]
      | true =>
          rw [hsession] at hactive
          by_cases hslot : IsValidSlotId slotId
          · have hinfo : World.keystoreService.getSlotInfo slotId {} hsm.world =
                (.ok, (hsm.world.keystore.keySlots (slotIndex slotId hslot)).info, hsm.world) := by
              simp only [World.keystoreService,
                KeystoreService.getSlotInfo_of_valid hsm.world.keystore hkeystore hslot]
            rw [HsmApiImpl.crypt_of_record hup hbuf hactive hslot hinfo]
            by_cases hbit : (hsm.world.keystore.keySlots
                (slotIndex slotId hslot)).info.permissions &&& required.toByte = 0
            · rw [if_pos hbit]
              simp [firstFailing, hbuf, hslot, grants, shipped, hbit]
            · have hgrants : grants hsm.world.keystore slotId required = true := by
                rw [grants, dif_pos hslot, bne_iff_ne]
                exact hbit
              have hoccupied := WiredHsm.occupied_of_grants h.represents hslot hgrants
              have hkey : World.keystoreService.getKey slotId {} hsm.world =
                  (.ok, (hsm.world.keystore.keySlots (slotIndex slotId hslot)).key,
                    { hsm.world with keystore := (hsm.world.keystore.getKey slotId {}).2.2 }) := by
                simp only [World.keystoreService,
                  KeystoreService.getKey_of_occupied hsm.world.keystore hkeystore hslot hoccupied]
              have hcrypt : (World.cryptoServiceFor algorithm).crypt transform input output slotId
                    hsm.memory hsm.world =
                  ((transform algorithm input output hsm.memory).1,
                    (transform algorithm input output hsm.memory).2,
                    { hsm.world with keystore := (hsm.world.keystore.getKey slotId {}).2.2 }) :=
                CryptoService.crypt_of_key hbuf hkey
              have hserved : serve ((World.servicesFor algorithm).cryptoService.get
                  (hsm.api.wired hup).cryptoService) =
                    (World.cryptoServiceFor algorithm).crypt transform := hserve
              rw [if_neg hbit, hserved, hcrypt]
              simp [firstFailing, hbuf, hslot, shipped, hgrants]
          · rw [HsmApiImpl.crypt, dif_pos hup, if_neg hbuf, hactive, if_neg (by decide),
              if_pos (Nat.not_lt.mp hslot)]
            simp [firstFailing, hbuf, hslot]

/-! ## The other calls -/

/-- Starting and stopping do not ask the cipher. -/
theorem lifecycle_eq {strategy : Strategy} {hsm : PluggedHsm algorithm} {map : Option KeyMap}
    (h : Sound (shipped strategy hsm) map) :
    (hsm.api.isInitialized = false → hsm.api.init hsm.world =
        (.ok, ⟨true, fun _ => World.servicesFor_wired algorithm⟩,
          ⟨hsm.world.sessions.init.2, hsm.world.keystore.init.2⟩)) ∧
      (hsm.api.isInitialized = true → hsm.api.deinit hsm.world =
        (.ok, .construct _, ⟨hsm.world.sessions.deinit.2, hsm.world.keystore.deinit.2⟩)) := by
  constructor
  · intro hdown
    obtain ⟨-, hsessions, hkeystore⟩ := h.flag false hdown
    rw [HsmApiImpl.init, if_neg (by simp [hdown]), dif_pos (World.servicesFor_wired algorithm)]
    simp [chain, World.servicesFor, World.sessionManager, World.keystoreService,
      CryptoService.toInterface, CryptoService.init,
      SessionManager.init_of_not_initialized hsm.world.sessions hsessions,
      KeystoreService.init_of_not_initialized hsm.world.keystore hkeystore]
  · intro hup
    obtain ⟨-, hsessions, hkeystore⟩ := h.flag true hup
    rw [HsmApiImpl.deinit, dif_pos hup]
    simp [chain, World.servicesFor, World.sessionManager, World.keystoreService,
      CryptoService.toInterface, CryptoService.deinit,
      SessionManager.deinit_of_initialized hsm.world.sessions hsessions,
      KeystoreService.deinit_of_initialized hsm.world.keystore hkeystore]

/-- A call that is no request does not come to the cipher. -/
theorem step_of_no_request {strategy : Strategy} {hsm : PluggedHsm algorithm}
    {map : Option KeyMap} (h : Sound (shipped strategy hsm) map) {event : Event}
    (hevent : request event = none) :
    (Hsm.step event hsm).1 = (Hsm.step event (shipped strategy hsm)).1 ∧
      shipped strategy (Hsm.step event hsm).2 = (Hsm.step event (shipped strategy hsm)).2 := by
  obtain ⟨hinit, hdeinit⟩ := lifecycle_eq h
  cases event with
  | encrypt _ _ _ _ _ | decrypt _ _ _ _ _ => cases hevent
  | isReady | createSession _ | closeSession _ | isSessionValid _ | importKey _ _ _ _
  | deleteKey _ | getKeySlotInfo _ _ | clearAllKeys | getVersion | store _ _ => exact ⟨rfl, rfl⟩
  | init =>
      rw [WiredHsm.step_eq_direct h]
      cases hflag : hsm.api.isInitialized with
      | true =>
          have hnothing : hsm.api.init hsm.world = (.ok, hsm.api, hsm.world) := if_pos hflag
          have hready : (shipped strategy hsm).api.isReady = true := hflag
          simp only [Hsm.step, hnothing, WiredHsm.direct, hready]
          exact ⟨trivial, rfl⟩
      | false =>
          have hready : (shipped strategy hsm).api.isReady = false := hflag
          simp only [Hsm.step, hinit hflag, WiredHsm.direct, hready]
          exact ⟨trivial, rfl⟩
  | deinit =>
      rw [WiredHsm.step_eq_direct h]
      cases hflag : hsm.api.isInitialized with
      | true =>
          have hready : (shipped strategy hsm).api.isReady = true := hflag
          simp only [Hsm.step, hdeinit hflag, WiredHsm.direct, hready]
          exact ⟨rfl, rfl⟩
      | false =>
          have hnothing : hsm.api.deinit hsm.world = (.errNotInitialized, hsm.api, hsm.world) :=
            dif_neg (by simp [hflag])
          have hready : (shipped strategy hsm).api.isReady = false := hflag
          simp only [Hsm.step, hnothing, WiredHsm.direct, hready]
          exact ⟨rfl, rfl⟩

/-! ## Any cipher against a shipped one -/

/-- The cipher function that a call comes to, if it is a request that the shipped
firmware grants. -/
def asked (algorithm : ICryptoAlgorithm) : Event → Answer → Option (Memory → Status × Memory)
  | .encrypt _ _ _ input output, .status .ok => some (algorithm.encrypt input output)
  | .decrypt _ _ _ input output, .status .ok => some (algorithm.decrypt input output)
  | _, _ => none

/-- The memory after a call that does not come to the cipher. -/
def stored : Event → Memory → Memory
  | .store address byte, mem => mem.write address byte
  | _, mem => mem

theorem asked_of_refused (algorithm : ICryptoAlgorithm) (event : Event) {code : Status}
    (h : code ≠ .ok) : asked algorithm event (.status code) = none := by
  cases code with
  | ok => exact absurd rfl h
  | _ => cases event <;> rfl

theorem asked_of_no_request (algorithm : ICryptoAlgorithm) {event : Event}
    (h : request event = none) (answer : Answer) : asked algorithm event answer = none := by
  cases event with
  | encrypt _ _ _ _ _ | decrypt _ _ _ _ _ => cases h
  | init | deinit | isReady | createSession _ | closeSession _ | isSessionValid _
  | importKey _ _ _ _ | deleteKey _ | getKeySlotInfo _ _ | clearAllKeys | getVersion
  | store _ _ => rfl

section

variable {strategy : Strategy} {hsm : PluggedHsm algorithm} {map : Option KeyMap}

/-- What a call does, said with what the shipped firmware would do in its place. -/
structure Answers (strategy : Strategy) (event : Event) (hsm : PluggedHsm algorithm)
    (result : Answer × PluggedHsm algorithm) : Prop where
  answer : result.1 =
    (asked algorithm event (WiredHsm.direct event (shipped strategy hsm)).1).elim
      (WiredHsm.direct event (shipped strategy hsm)).1 fun call => .status (call hsm.memory).1
  memory : result.2.memory =
    (asked algorithm event (WiredHsm.direct event (shipped strategy hsm)).1).elim
      (stored event hsm.memory) fun call => (call hsm.memory).2
  isReady : result.2.api.isReady = (WiredHsm.direct event (shipped strategy hsm)).2.api.isReady
  world : result.2.world = (WiredHsm.direct event (shipped strategy hsm)).2.world

/-- A request, for the cipher function that serves it. -/
theorem answers_request {event : Event} {required : KeyPermission} {sessionId : SessionId}
    {slotId : UInt8} {input output : Span} {call : Memory → Status × Memory}
    {result : Answer × PluggedHsm algorithm}
    (hdirect : WiredHsm.direct event (shipped strategy hsm) =
      WiredHsm.directCrypt required sessionId slotId input output (shipped strategy hsm))
    (hasked : asked algorithm event (.status .ok) = some call)
    (hstored : stored event hsm.memory = hsm.memory)
    (hresult : result =
      if decision required sessionId slotId input output (shipped strategy hsm) = .ok then
        (.status (call hsm.memory).1,
          { hsm with
            memory := (call hsm.memory).2
            world := { hsm.world with keystore := (hsm.world.keystore.getKey slotId {}).2.2 } })
      else
        (.status (decision required sessionId slotId input output (shipped strategy hsm)), hsm)) :
    Answers strategy event hsm result := by
  have hcases : ∀ code,
      decision required sessionId slotId input output (shipped strategy hsm) = code →
        WiredHsm.direct event (shipped strategy hsm) =
          (.status code,
            if code = .ok then
              { shipped strategy hsm with
                memory := xorLoop input output input.size hsm.memory
                world := { hsm.world with keystore := (hsm.world.keystore.getKey slotId {}).2.2 } }
            else shipped strategy hsm) := by
    intro code hcode
    rw [hdirect, WiredHsm.directCrypt, hcode]
    rfl
  by_cases hok : decision required sessionId slotId input output (shipped strategy hsm) = .ok
  · have hgranted := hcases _ hok
    rw [if_pos rfl] at hgranted
    rw [if_pos hok] at hresult
    subst hresult
    refine ⟨?_, ?_, ?_, ?_⟩
    · rw [hgranted, hasked]
      rfl
    · rw [hgranted, hasked]
      rfl
    · rw [hgranted]
      rfl
    · rw [hgranted]
  · have hrefused := hcases _ rfl
    rw [if_neg hok] at hrefused hresult
    subst hresult
    refine ⟨?_, ?_, ?_, ?_⟩
    · rw [hrefused, asked_of_refused algorithm event hok]
      rfl
    · rw [hrefused, asked_of_refused algorithm event hok, Option.elim_none, hstored]
    · rw [hrefused]
      rfl
    · rw [hrefused]
      rfl

/-- **One call, with any cipher.** -/
theorem step_answers (h : Sound (shipped strategy hsm) map) (event : Event) :
    Answers strategy event hsm (Hsm.step event hsm) := by
  have hother : request event = none →
      (WiredHsm.direct event (shipped strategy hsm)).2.memory = stored event hsm.memory →
        Answers strategy event hsm (Hsm.step event hsm) := by
    intro hevent hmemory
    obtain ⟨hanswer, hstate⟩ := step_of_no_request h hevent
    rw [WiredHsm.step_eq_direct h] at hanswer hstate
    have hnobody := asked_of_no_request algorithm hevent
      (WiredHsm.direct event (shipped strategy hsm)).1
    refine ⟨?_, ?_, ?_, ?_⟩
    · rw [hnobody, hanswer, Option.elim_none]
    · rw [hnobody, Option.elim_none, ← hmemory, ← hstate]
      rfl
    · rw [← hstate]
      rfl
    · rw [← hstate]
      rfl
  cases event with
  | encrypt sessionId slotId name input output =>
      apply answers_request rfl rfl rfl
      simp only [Hsm.step, HsmApiImpl.encrypt]
      rw [crypt_eq h .encrypt (·.encrypt) (·.encrypt) rfl]
      split <;> rfl
  | decrypt sessionId slotId name input output =>
      apply answers_request rfl rfl rfl
      simp only [Hsm.step, HsmApiImpl.decrypt]
      rw [crypt_eq h .decrypt (·.decrypt) (·.decrypt) rfl]
      split <;> rfl
  | init | deinit =>
      apply hother rfl
      simp only [WiredHsm.direct]
      split <;> rfl
  | isReady | createSession _ | closeSession _ | isSessionValid _ | importKey _ _ _ _
  | deleteKey _ | getKeySlotInfo _ _ | clearAllKeys | getVersion | store _ _ =>
      exact hother rfl rfl

end

/-! ## Runs -/

/-- The shipped firmware does not look at the memory. -/
theorem direct_of_sameWorld {strategy : Strategy} {hsm hsm' : WiredHsm strategy}
    (hapi : hsm.api = hsm'.api) (hworld : hsm.world = hsm'.world) (event : Event) :
    (WiredHsm.direct event hsm).1 = (WiredHsm.direct event hsm').1 ∧
      (WiredHsm.direct event hsm).2.api = (WiredHsm.direct event hsm').2.api ∧
      (WiredHsm.direct event hsm).2.world = (WiredHsm.direct event hsm').2.world := by
  have hrequest : ∀ required sessionId slotId input output,
      let result := WiredHsm.directCrypt required sessionId slotId input output hsm
      let result' := WiredHsm.directCrypt required sessionId slotId input output hsm'
      result.1 = result'.1 ∧ result.2.api = result'.2.api ∧ result.2.world = result'.2.world := by
    intro required sessionId slotId input output
    have hdecision : decision required sessionId slotId input output hsm =
        decision required sessionId slotId input output hsm' := by
      rw [decision, decision, hapi, hworld]
    simp only [WiredHsm.directCrypt, hdecision]
    by_cases hok : decision required sessionId slotId input output hsm' = .ok
    · simp only [if_pos hok, hapi, hworld, and_self]
    · simp only [if_neg hok, hapi, hworld, and_self]
  obtain ⟨api, memory, world⟩ := hsm
  obtain ⟨api', memory', world'⟩ := hsm'
  obtain rfl : api = api' := hapi
  obtain rfl : world = world' := hworld
  cases event with
  | init =>
      simp only [WiredHsm.direct]
      split <;> exact ⟨trivial, rfl, rfl⟩
  | deinit =>
      simp only [WiredHsm.direct]
      split <;> exact ⟨rfl, rfl, rfl⟩
  | encrypt sessionId slotId _ input output => exact hrequest .encrypt sessionId slotId input output
  | decrypt sessionId slotId _ input output => exact hrequest .decrypt sessionId slotId input output
  | isReady | createSession _ | closeSession _ | isSessionValid _ | importKey _ _ _ _
  | deleteKey _ | getKeySlotInfo _ _ | clearAllKeys | getVersion | store _ _ => exact ⟨rfl, rfl, rfl⟩

/-- The two firmwares have the same flag and the same services; the memory is
their own. -/
structure Beside (strategy : Strategy) (hsm : PluggedHsm algorithm) (ref : WiredHsm strategy) :
    Prop where
  isReady : hsm.api.isReady = ref.api.isReady
  world : hsm.world = ref.world
  sound : ∃ map, Sound ref map

section

variable {strategy : Strategy} {hsm : PluggedHsm algorithm} {ref : WiredHsm strategy}

theorem Beside.shipped_api (h : Beside strategy hsm ref) : (shipped strategy hsm).api = ref.api :=
  HsmApiImpl.ext h.isReady

theorem Beside.sound_shipped (h : Beside strategy hsm ref) :
    ∃ map, Sound (shipped strategy hsm) map := by
  obtain ⟨map, hsound⟩ := h.sound
  have hworld : (shipped strategy hsm).world = ref.world := h.world
  refine ⟨map, ?_, ?_, ?_⟩
  · rw [h.shipped_api, hworld]
    exact hsound.sessions
  · rw [h.shipped_api, hworld]
    exact hsound.keystore
  · rw [hworld]
    exact hsound.represents

/-- The call on both sides. -/
theorem Beside.call (h : Beside strategy hsm ref) (event : Event) :
    (machine algorithm).reply event hsm =
        (asked algorithm event ((WiredHsm.machine strategy).reply event ref)).elim
          ((WiredHsm.machine strategy).reply event ref) (fun call => .status (call hsm.memory).1) ∧
      ((machine algorithm).next event hsm).memory =
        (asked algorithm event ((WiredHsm.machine strategy).reply event ref)).elim
          (stored event hsm.memory) (fun call => (call hsm.memory).2) := by
  obtain ⟨map, hshipped⟩ := h.sound_shipped
  obtain ⟨map', hsound⟩ := h.sound
  have hsame := direct_of_sameWorld h.shipped_api h.world event
  have hcall := step_answers hshipped event
  rw [hsound.reply_eq_direct, ← hsame.1]
  exact ⟨hcall.answer, hcall.memory⟩

theorem Beside.next (h : Beside strategy hsm ref) (event : Event) :
    Beside strategy ((machine algorithm).next event hsm)
      ((WiredHsm.machine strategy).next event ref) := by
  obtain ⟨map, hshipped⟩ := h.sound_shipped
  obtain ⟨map', hsound⟩ := h.sound
  obtain ⟨-, hapi, hworld⟩ := direct_of_sameWorld h.shipped_api h.world event
  have hcall := step_answers hshipped event
  refine ⟨?_, ?_, _, hsound.next event⟩
  · rw [hsound.next_eq_direct, ← hapi]
    exact hcall.isReady
  · rw [hsound.next_eq_direct, ← hworld]
    exact hcall.world

theorem Beside.run (h : Beside strategy hsm ref) (events : List Event) :
    Beside strategy ((machine algorithm).run events hsm)
      ((WiredHsm.machine strategy).run events ref) := by
  induction events generalizing hsm ref with
  | nil => exact h
  | cons event events ih => exact ih (h.next event)

end

theorem beside_run (strategy : Strategy) (algorithm : ICryptoAlgorithm)
    (accessCount : Fin kMaxKeySlots → UInt32) (mem mem' : Memory) (events : List Event) :
    Beside strategy ((machine algorithm).run events (powerOn algorithm accessCount mem))
      ((WiredHsm.machine strategy).run events (WiredHsm.powerOn strategy accessCount mem')) := by
  apply Beside.run
  exact ⟨rfl, rfl, none, WiredHsm.sound_powerOn strategy accessCount mem'⟩

/--
**Any cipher.**  After any run, a firmware with any cipher has the sessions, the
slots, the counters and the flags that the shipped firmware has after the same
calls.  The next call is answered as by the shipped firmware, unless that grants a
request; then the cipher gives the answer.  The memory is changed by the caller's
own stores, and by the cipher in requests that are granted.
-/
theorem same_services (strategy : Strategy) (algorithm : ICryptoAlgorithm)
    (accessCount : Fin kMaxKeySlots → UInt32) (mem : Memory) (events : List Event)
    (event : Event) :
    let hsm := (machine algorithm).run events (powerOn algorithm accessCount mem)
    let ref := (WiredHsm.machine strategy).run events (WiredHsm.powerOn strategy accessCount mem)
    let call := asked algorithm event ((WiredHsm.machine strategy).reply event ref)
    hsm.world = ref.world ∧ hsm.api.isReady = ref.api.isReady ∧
      (machine algorithm).reply event hsm =
        call.elim ((WiredHsm.machine strategy).reply event ref)
          (fun call => .status (call hsm.memory).1) ∧
      ((machine algorithm).next event hsm).memory =
        call.elim (stored event hsm.memory) (fun call => (call hsm.memory).2) := by
  intro hsm ref call
  have hbeside : Beside strategy hsm ref :=
    beside_run strategy algorithm accessCount mem mem events
  obtain ⟨hreply, hmemory⟩ := hbeside.call event
  exact ⟨hbeside.world, hbeside.isReady, hreply, hmemory⟩

/-! ## Atomicity -/

/-- The cipher does not fail on buffers that fit. -/
def NeverFails (algorithm : ICryptoAlgorithm) : Prop :=
  ∀ input output mem, ¬ BadBuffers input output →
    (algorithm.encrypt input output mem).1 = .ok ∧ (algorithm.decrypt input output mem).1 = .ok

/-- A failed call leaves everything as it was, in every state reached from power-on. -/
def Atomic (algorithm : ICryptoAlgorithm) : Prop :=
  ∀ accessCount mem events event,
    let hsm := (machine algorithm).run events (powerOn algorithm accessCount mem)
    Failed ((machine algorithm).reply event hsm) → (machine algorithm).next event hsm = hsm

/-- The cipher is asked in a request that is granted. -/
theorem asked_eq_some {algorithm : ICryptoAlgorithm} {event : Event} {answer : Answer}
    {call : Memory → Status × Memory} (h : asked algorithm event answer = some call) :
    answer = .status .ok ∧ ∃ required sessionId slotId input output,
      (∀ (strategy : Strategy) (hsm : WiredHsm strategy), WiredHsm.direct event hsm =
        WiredHsm.directCrypt required sessionId slotId input output hsm) ∧
      (call = algorithm.encrypt input output ∨ call = algorithm.decrypt input output) := by
  have hok : answer = .status .ok := by
    cases answer with
    | status code =>
        by_contra hne
        rw [asked_of_refused algorithm event fun hcode => hne (congrArg Answer.status hcode)] at h
        cases h
    | session _ _ | info _ _ | truth _ | version _ | stored => cases event <;> cases h
  subst hok
  cases event with
  | encrypt sessionId slotId _ input output =>
      exact ⟨rfl, .encrypt, sessionId, slotId, input, output, fun _ _ => rfl,
        .inl (Option.some.inj h).symm⟩
  | decrypt sessionId slotId _ input output =>
      exact ⟨rfl, .decrypt, sessionId, slotId, input, output, fun _ _ => rfl,
        .inr (Option.some.inj h).symm⟩
  | init | deinit | isReady | createSession _ | closeSession _ | isSessionValid _
  | importKey _ _ _ _ | deleteKey _ | getKeySlotInfo _ _ | clearAllKeys | getVersion
  | store _ _ => cases h

/-- With a cipher that does not fail, only refused calls fail. -/
theorem Beside.atomic {strategy : Strategy} {hsm : PluggedHsm algorithm} {ref : WiredHsm strategy}
    (h : Beside strategy hsm ref) (hnever : NeverFails algorithm) {event : Event}
    (hfailed : Failed ((machine algorithm).reply event hsm)) :
    (machine algorithm).next event hsm = hsm := by
  obtain ⟨map, hsound⟩ := h.sound
  obtain ⟨hreply, hmemory⟩ := h.call event
  have hnext := h.next event
  cases hasked : asked algorithm event ((WiredHsm.machine strategy).reply event ref) with
  | some call =>
      obtain ⟨hok, required, sessionId, slotId, input, output, hdirect, hcall⟩ :=
        asked_eq_some hasked
      rw [hsound.reply_eq_direct, hdirect, WiredHsm.directCrypt, Answer.status.injEq] at hok
      have hgood := (WiredHsm.decision_eq_ok_iff.mp hok).2.1
      have hserved : (call hsm.memory).1 = .ok := by
        rcases hcall with rfl | rfl
        · exact (hnever input output hsm.memory hgood).1
        · exact (hnever input output hsm.memory hgood).2
      rw [hreply, hasked, Option.elim_some, hserved] at hfailed
      exact absurd rfl (WiredHsm.failed_status.mp hfailed)
  | none =>
      rw [hasked, Option.elim_none] at hreply hmemory
      rw [hreply] at hfailed
      have hsame : (WiredHsm.machine strategy).next event ref = ref := by
        rw [hsound.reply_eq_direct] at hfailed
        rw [hsound.next_eq_direct]
        exact ((WiredHsm.direct_frame event ref).1 hfailed).1
      have hkept : stored event hsm.memory = hsm.memory := by
        cases event with
        | store _ _ => exact absurd hfailed (WiredHsm.not_failed rfl)
        | init | deinit | isReady | createSession _ | closeSession _ | isSessionValid _
        | encrypt _ _ _ _ _ | decrypt _ _ _ _ _ | importKey _ _ _ _ | deleteKey _
        | getKeySlotInfo _ _ | clearAllKeys | getVersion => rfl
      rw [hsame] at hnext
      have hapi : ((machine algorithm).next event hsm).api = hsm.api :=
        HsmApiImpl.ext (hnext.isReady.trans h.isReady.symm)
      have hworld : ((machine algorithm).next event hsm).world = hsm.world :=
        hnext.world.trans h.world.symm
      rw [hkept] at hmemory
      generalize (machine algorithm).next event hsm = hsm' at hapi hmemory hworld ⊢
      obtain ⟨api, memory, world⟩ := hsm
      obtain ⟨api', memory', world'⟩ := hsm'
      obtain rfl : api' = api := hapi
      obtain rfl : memory' = memory := hmemory
      obtain rfl : world' = world := hworld
      rfl

/-- One session and one key that may be used both ways. -/
def openingCalls : List Event := [.init, .createSession 0, .importKey 0 .none [0] 0xFF]

/-- Of a cipher that fails, the counter of the slot tells: the access was counted. -/
theorem served_of_atomic (hatomic : Atomic algorithm) (event : Event) {required : KeyPermission}
    {input output : Span} (hgood : ¬ BadBuffers input output)
    (hrequired : required = .encrypt ∨ required = .decrypt)
    (hdirect : ∀ hsm : WiredHsm .aes128, WiredHsm.direct event hsm =
      WiredHsm.directCrypt required 1 0 input output hsm)
    {call : Memory → Status × Memory} (hasked : asked algorithm event (.status .ok) = some call)
    (mem : Memory) : (call mem).1 = .ok := by
  by_contra hfails
  have hbeside := beside_run .aes128 algorithm (fun _ => 0) mem (fun _ => 0) openingCalls
  have hmemory : ((machine algorithm).run openingCalls
      (powerOn algorithm (fun _ => 0) mem)).memory = mem := rfl
  have hready : ((WiredHsm.machine .aes128).run openingCalls
      (WiredHsm.powerOn .aes128 (fun _ => 0) (fun _ => 0))).api.isReady = true := by decide +kernel
  have hactive : ((WiredHsm.machine .aes128).run openingCalls
      (WiredHsm.powerOn .aes128 (fun _ => 0) (fun _ => 0))).world.sessions.isSessionValid 1 =
        true := by decide +kernel
  have hgrants : grants ((WiredHsm.machine .aes128).run openingCalls
      (WiredHsm.powerOn .aes128 (fun _ => 0) (fun _ => 0))).world.keystore 0 required = true := by
    rcases hrequired with rfl | rfl <;> decide +kernel
  have hcounts : ((((WiredHsm.machine .aes128).run openingCalls
      (WiredHsm.powerOn .aes128 (fun _ => 0) (fun _ => 0))).world.keystore.getKey 0 {}).2.2.keySlots
        0).accessCount ≠ (((WiredHsm.machine .aes128).run openingCalls
      (WiredHsm.powerOn .aes128 (fun _ => 0) (fun _ => 0))).world.keystore.keySlots 0).accessCount :=
    by decide +kernel
  have hthen := hatomic (fun _ => 0) mem openingCalls event
  generalize (machine algorithm).run openingCalls (powerOn algorithm (fun _ => 0) mem) = hsm
    at hbeside hmemory hthen
  generalize (WiredHsm.machine .aes128).run openingCalls
    (WiredHsm.powerOn .aes128 (fun _ => 0) (fun _ => 0)) = ref
    at hbeside hready hactive hgrants hcounts
  obtain ⟨map, hsound⟩ := hbeside.sound
  have hok : decision required 1 0 input output ref = .ok :=
    WiredHsm.decision_eq_ok_iff.mpr ⟨hready, hgood, hactive, by decide, hgrants⟩
  have hreply : (WiredHsm.machine .aes128).reply event ref = .status .ok := by
    rw [hsound.reply_eq_direct, hdirect, WiredHsm.directCrypt, hok]
  have hnext : ((WiredHsm.machine .aes128).next event ref).world.keystore =
      (ref.world.keystore.getKey 0 {}).2.2 := by
    rw [hsound.next_eq_direct, hdirect, WiredHsm.directCrypt, if_pos hok]
  have hfailed : Failed ((machine algorithm).reply event hsm) := by
    rw [(hbeside.call event).1, hreply, hasked, Option.elim_some, hmemory]
    exact WiredHsm.failed_status.mpr hfails
  have hworld : hsm.world = ((WiredHsm.machine .aes128).next event ref).world := by
    rw [← (hbeside.next event).world, hthen hfailed]
  rw [hbeside.world] at hworld
  rw [← hnext, ← hworld] at hcounts
  exact hcounts rfl

/--
**When errors are atomic.**  With a given cipher a failed call leaves everything as
it was, in every reachable state, if and only if the cipher does not fail on buffers
that fit.
-/
theorem atomic_iff (algorithm : ICryptoAlgorithm) : Atomic algorithm ↔ NeverFails algorithm := by
  constructor
  · intro hatomic input output mem hgood
    constructor
    · exact served_of_atomic hatomic (.encrypt 1 0 .none input output) hgood (.inl rfl)
        (fun _ => rfl) rfl mem
    · exact served_of_atomic hatomic (.decrypt 1 0 .none input output) hgood (.inr rfl)
        (fun _ => rfl) rfl mem
  · intro hnever accessCount mem events event hsm hfailed
    exact (beside_run .aes128 algorithm accessCount mem mem events).atomic hnever hfailed

end PluggedHsm

end Ehsm
