import Ehsm.Hsm.History

/-!
# Key bytes do not reach the API boundary

Two runs that make the same calls, except for the bytes of the keys they import,
cannot be told apart from outside.  The relation carried along the two runs is
equality up to the key bytes of occupied slots; on it the decisions agree,
because they read the records only, and the outputs agree, because the cipher
never sees a key.

## Main results

* `WiredHsm.indistinguishable` — one step of the two runs.
* `WiredHsm.noninterference` — equal answers, equal memory, and states that agree
  up to the bytes of stored keys.
-/

namespace Ehsm

open Reactive

/-! ## Agreement up to key bytes -/

/-- Two slots differ at most in key bytes, and in those only when occupied. -/
structure KeySlotStorage.Agrees (slot slot' : KeySlotStorage) : Prop where
  info : slot.info = slot'.info
  accessCount : slot.accessCount = slot'.accessCount
  size : slot.key.size = slot'.key.size
  algorithm : slot.key.algorithm = slot'.key.algorithm
  data : slot.info.isOccupied = false → slot.key.data = slot'.key.data

theorem KeySlotStorage.Agrees.refl (slot : KeySlotStorage) : slot.Agrees slot :=
  ⟨rfl, rfl, rfl, rfl, fun _ => rfl⟩

namespace KeystoreService

structure Agrees (ks ks' : KeystoreService) : Prop where
  isInitialized : ks.isInitialized = ks'.isInitialized
  slots : ∀ i, (ks.keySlots i).Agrees (ks'.keySlots i)

section

variable {ks ks' : KeystoreService}

theorem Agrees.refl (ks : KeystoreService) : ks.Agrees ks :=
  ⟨rfl, fun i => .refl (ks.keySlots i)⟩

theorem Agrees.setSlot (h : ks.Agrees ks') (i : Fin kMaxKeySlots) {slot slot' : KeySlotStorage}
    (hslot : slot.Agrees slot') : (ks.setSlot i slot).Agrees (ks'.setSlot i slot') := by
  refine ⟨h.isInitialized, ?_⟩
  intro j
  by_cases hj : j = i
  · rw [hj, setSlot_self, setSlot_self]
    exact hslot
  · rw [ks.setSlot_ne _ hj, ks'.setSlot_ne _ hj]
    exact h.slots j

theorem Agrees.init (h : ks.Agrees ks') : ks.init.2.Agrees ks'.init.2 := by
  cases hinit : ks.isInitialized with
  | true =>
      rw [init_of_initialized ks hinit, init_of_initialized ks' (h.isInitialized ▸ hinit)]
      exact h
  | false =>
      rw [init_of_not_initialized ks hinit,
        init_of_not_initialized ks' (h.isInitialized ▸ hinit)]
      exact .refl _

theorem Agrees.deinit (h : ks.Agrees ks') : ks.deinit.2.Agrees ks'.deinit.2 := by
  cases hinit : ks.isInitialized with
  | true =>
      rw [deinit_of_initialized ks hinit, deinit_of_initialized ks' (h.isInitialized ▸ hinit)]
      exact .refl _
  | false =>
      have hinit' : ks'.isInitialized = false := h.isInitialized ▸ hinit
      rw [deinit_of_not_initialized ks hinit, deinit_of_not_initialized ks' hinit']
      exact h

theorem Agrees.clearAll (h : ks.Agrees ks') :
    ks.clearAll.1 = ks'.clearAll.1 ∧ ks.clearAll.2.Agrees ks'.clearAll.2 := by
  cases hinit : ks.isInitialized with
  | true =>
      have hinit' : ks'.isInitialized = true := h.isInitialized ▸ hinit
      rw [clearAll_of_initialized ks hinit, clearAll_of_initialized ks' hinit']
      exact ⟨rfl, h.isInitialized, fun _ => .refl _⟩
  | false =>
      have hinit' : ks'.isInitialized = false := h.isInitialized ▸ hinit
      rw [clearAll_of_not_initialized ks hinit, clearAll_of_not_initialized ks' hinit']
      exact ⟨rfl, h⟩

/-- An import answers by the length of the key, not by its bytes. -/
theorem Agrees.importKey (h : ks.Agrees ks') (slotId : UInt8) (algorithm : Algorithm)
    {keyData keyData' : List UInt8} (hlength : keyData.length = keyData'.length)
    (permissions : UInt8) :
    (ks.importKey slotId algorithm keyData permissions).1 =
        (ks'.importKey slotId algorithm keyData' permissions).1 ∧
      (ks.importKey slotId algorithm keyData permissions).2.Agrees
        (ks'.importKey slotId algorithm keyData' permissions).2 := by
  have hempty : keyData.isEmpty = keyData'.isEmpty := by
    rw [Bool.eq_iff_iff, List.isEmpty_iff_length_eq_zero, List.isEmpty_iff_length_eq_zero,
      hlength]
  unfold KeystoreService.importKey
  rw [← h.isInitialized, ← hempty, ← hlength]
  split
  · exact ⟨rfl, h⟩
  split
  · next hslot =>
      split
      · exact ⟨rfl, h⟩
      · dsimp only
        rw [← (h.slots (slotIndex slotId hslot)).info]
        split
        · exact ⟨rfl, h⟩
        · refine ⟨rfl, h.setSlot _ ⟨?_, rfl, hlength, rfl, ?_⟩⟩
          · rw [importedSlot, importedSlot, hlength]
          · exact fun hfree => absurd hfree (by simp [importedSlot])
  · exact ⟨rfl, h⟩

theorem Agrees.deleteKey (h : ks.Agrees ks') (slotId : UInt8) :
    (ks.deleteKey slotId).1 = (ks'.deleteKey slotId).1 ∧
      (ks.deleteKey slotId).2.Agrees (ks'.deleteKey slotId).2 := by
  unfold KeystoreService.deleteKey
  rw [← h.isInitialized]
  split
  · exact ⟨rfl, h⟩
  split
  · next hslot =>
      rw [← (h.slots (slotIndex slotId hslot)).info]
      split
      · exact ⟨rfl, h⟩
      · refine ⟨rfl, h.setSlot _ ?_⟩
        rw [clearedSlot_eq, clearedSlot_eq]
        exact .refl _
  · exact ⟨rfl, h⟩

/-- Reading a key counts alike; the key that is read may differ. -/
theorem Agrees.getKey (h : ks.Agrees ks') (slotId : UInt8) (key : Key) :
    (ks.getKey slotId key).2.2.Agrees (ks'.getKey slotId key).2.2 := by
  unfold KeystoreService.getKey
  rw [← h.isInitialized]
  split
  · exact h
  split
  · next hslot =>
      have hagrees := h.slots (slotIndex slotId hslot)
      dsimp only
      rw [← hagrees.info]
      split
      · exact h
      · refine h.setSlot _ ⟨hagrees.info, ?_, hagrees.size, hagrees.algorithm, hagrees.data⟩
        rw [countAccess, countAccess, hagrees.accessCount]
  · exact h

theorem Agrees.getSlotInfo (h : ks.Agrees ks') (slotId : UInt8) (info : KeySlotInfo) :
    (ks.getSlotInfo slotId info).1 = (ks'.getSlotInfo slotId info).1 ∧
      (ks.getSlotInfo slotId info).2.1 = (ks'.getSlotInfo slotId info).2.1 := by
  unfold KeystoreService.getSlotInfo
  rw [← h.isInitialized]
  split
  · exact ⟨rfl, rfl⟩
  split
  · next hslot => exact ⟨rfl, (h.slots (slotIndex slotId hslot)).info⟩
  · exact ⟨rfl, rfl⟩

end

end KeystoreService

namespace WiredHsm

variable {strategy : Strategy}

/-- Two states of the firmware differ at most in the key bytes of occupied slots. -/
structure Agrees (hsm hsm' : WiredHsm strategy) : Prop where
  api : hsm.api = hsm'.api
  memory : hsm.memory = hsm'.memory
  sessions : hsm.world.sessions = hsm'.world.sessions
  keystore : hsm.world.keystore.Agrees hsm'.world.keystore

/-- Two calls are the same up to the bytes of the key they import. -/
inductive SameButKey : Event → Event → Prop
  | same (event : Event) : SameButKey event event
  | importKey (keySlotId : UInt8) (algorithm : Algorithm) (keyData keyData' : List UInt8)
      (permissions : UInt8) (h : keyData.length = keyData'.length) :
      SameButKey (.importKey keySlotId algorithm keyData permissions)
        (.importKey keySlotId algorithm keyData' permissions)

/-! ## One step of two runs -/

section

variable {hsm hsm' : WiredHsm strategy}

theorem Agrees.setSessions (h : Agrees hsm hsm') (sm : SessionManager) :
    Agrees (hsm.setSessions sm) (hsm'.setSessions sm) :=
  ⟨h.api, h.memory, rfl, h.keystore⟩

theorem Agrees.setKeystore (h : Agrees hsm hsm') {ks ks' : KeystoreService}
    (hks : ks.Agrees ks') : Agrees (hsm.setKeystore ks) (hsm'.setKeystore ks') :=
  ⟨h.api, h.memory, h.sessions, hks⟩

theorem Agrees.decision_eq (h : Agrees hsm hsm') (required : KeyPermission)
    (sessionId : SessionId) (keySlotId : UInt8) (input output : Span) :
    decision required sessionId keySlotId input output hsm =
      decision required sessionId keySlotId input output hsm' := by
  have hgrants : grants hsm.world.keystore keySlotId required =
      grants hsm'.world.keystore keySlotId required := by
    unfold grants
    split
    · next hslot => rw [(h.keystore.slots (slotIndex keySlotId hslot)).info]
    · rfl
  rw [decision, decision, h.api, h.sessions, hgrants]

/-- Requests are decided alike and write the same output. -/
theorem Agrees.directCrypt (h : Agrees hsm hsm') (required : KeyPermission)
    (sessionId : SessionId) (keySlotId : UInt8) (input output : Span) :
    (directCrypt required sessionId keySlotId input output hsm).1 =
        (directCrypt required sessionId keySlotId input output hsm').1 ∧
      Agrees (directCrypt required sessionId keySlotId input output hsm).2
        (directCrypt required sessionId keySlotId input output hsm').2 := by
  unfold WiredHsm.directCrypt
  rw [h.decision_eq]
  refine ⟨rfl, ?_⟩
  dsimp only
  split
  · refine ⟨h.api, ?_, h.sessions, h.keystore.getKey keySlotId {}⟩
    rw [h.memory]
  · exact h

/-- Calls that are the same up to key bytes are answered alike and keep the
agreement. -/
theorem Agrees.direct (h : Agrees hsm hsm') {event event' : Event}
    (hevent : SameButKey event event') :
    (direct event hsm).1 = (direct event' hsm').1 ∧
      Agrees (direct event hsm).2 (direct event' hsm').2 := by
  cases hevent with
  | importKey keySlotId algorithm keyData keyData' permissions hlength =>
      obtain ⟨hstatus, hks⟩ := h.keystore.importKey keySlotId algorithm hlength permissions
      exact ⟨congrArg Answer.status hstatus, h.setKeystore hks⟩
  | same =>
      cases event with
      | init =>
          simp only [WiredHsm.direct]
          rw [← h.api]
          refine ⟨trivial, ?_⟩
          split
          · exact h
          · exact ⟨rfl, h.memory, congrArg (fun sm => sm.init.2) h.sessions, h.keystore.init⟩
      | deinit =>
          simp only [WiredHsm.direct]
          rw [← h.api]
          split
          · exact ⟨rfl, rfl, h.memory, congrArg (fun sm => sm.deinit.2) h.sessions,
              h.keystore.deinit⟩
          · exact ⟨rfl, h⟩
      | isReady => exact ⟨congrArg (fun api => Answer.truth (HsmApiImpl.isReady api)) h.api, h⟩
      | getVersion => exact ⟨rfl, h⟩
      | store address byte =>
          refine ⟨rfl, h.api, ?_, h.sessions, h.keystore⟩
          exact congrArg (fun mem => Memory.write mem address byte) h.memory
      | createSession sessionId =>
          simp only [WiredHsm.direct]
          rw [h.sessions]
          exact ⟨rfl, h.setSessions _⟩
      | closeSession sessionId =>
          simp only [WiredHsm.direct]
          rw [h.sessions]
          exact ⟨rfl, h.setSessions _⟩
      | isSessionValid sessionId =>
          simp only [WiredHsm.direct]
          rw [h.sessions]
          exact ⟨rfl, h⟩
      | encrypt sessionId keySlotId algorithm input output =>
          exact h.directCrypt .encrypt sessionId keySlotId input output
      | decrypt sessionId keySlotId algorithm input output =>
          exact h.directCrypt .decrypt sessionId keySlotId input output
      | importKey keySlotId algorithm keyData permissions =>
          obtain ⟨hstatus, hks⟩ := h.keystore.importKey keySlotId algorithm rfl permissions
          exact ⟨congrArg Answer.status hstatus, h.setKeystore hks⟩
      | deleteKey keySlotId =>
          obtain ⟨hstatus, hks⟩ := h.keystore.deleteKey keySlotId
          exact ⟨congrArg Answer.status hstatus, h.setKeystore hks⟩
      | getKeySlotInfo keySlotId info =>
          obtain ⟨hstatus, hinfo⟩ := h.keystore.getSlotInfo keySlotId info
          exact ⟨congrArg₂ Answer.info hstatus hinfo, h⟩
      | clearAllKeys =>
          obtain ⟨hstatus, hks⟩ := h.keystore.clearAll
          exact ⟨congrArg Answer.status hstatus, h.setKeystore hks⟩

end

/-! ## Two runs -/

/-- Two sound states that agree. -/
def Paired (hsm hsm' : WiredHsm strategy) : Prop :=
  Agrees hsm hsm' ∧ (∃ map, Sound hsm map) ∧ ∃ map', Sound hsm' map'

/-- **One step of the two runs**, as a simulation of the firmware by itself. -/
theorem indistinguishable (strategy : Strategy) :
    Machine.Simulation (machine strategy) (machine strategy) Paired SameButKey Eq := by
  constructor
  · intro event event' hsm hsm' hevent hpaired
    obtain ⟨hagrees, ⟨map, hsound⟩, ⟨map', hsound'⟩⟩ := hpaired
    rw [hsound.reply_eq_direct, hsound'.reply_eq_direct]
    exact (hagrees.direct hevent).1
  · intro event event' hsm hsm' hevent hpaired
    obtain ⟨hagrees, ⟨map, hsound⟩, ⟨map', hsound'⟩⟩ := hpaired
    refine ⟨?_, ⟨_, hsound.next event⟩, ⟨_, hsound'.next event'⟩⟩
    rw [hsound.next_eq_direct, hsound'.next_eq_direct]
    exact (hagrees.direct hevent).2

theorem paired_powerOn (strategy : Strategy) (accessCount : Fin kMaxKeySlots → UInt32)
    (mem : Memory) :
    Paired (powerOn strategy accessCount mem) (powerOn strategy accessCount mem) :=
  ⟨⟨rfl, rfl, rfl, .refl _⟩, ⟨none, sound_powerOn strategy accessCount mem⟩,
    ⟨none, sound_powerOn strategy accessCount mem⟩⟩

/--
**Noninterference.**  Two runs from power-on over the same memory, the calls of
which are the same up to the bytes of imported keys, get the same answers, and
after any number of calls agree in everything, the memory included, except for
the key bytes of occupied slots.
-/
theorem noninterference (strategy : Strategy) (accessCount : Fin kMaxKeySlots → UInt32)
    (mem : Memory) (events events' : List Event)
    (hsame : List.Forall₂ SameButKey events events') :
    (machine strategy).replies events (powerOn strategy accessCount mem) =
        (machine strategy).replies events' (powerOn strategy accessCount mem) ∧
      ∀ n, Agrees ((machine strategy).run (events.take n) (powerOn strategy accessCount mem))
        ((machine strategy).run (events'.take n) (powerOn strategy accessCount mem)) := by
  have hstart := paired_powerOn strategy accessCount mem
  constructor
  · have hreplies := (indistinguishable strategy).replies hsame hstart
    rwa [List.forall₂_eq_eq_eq] at hreplies
  · intro n
    exact ((indistinguishable strategy).run (List.forall₂_take n hsame) hstart).1

/-- Two runs that import and use different keys. -/
theorem noninterference_two_keys :
    (machine .aes128).replies
        [.init, .createSession 0, .importKey 2 .aes128 [1, 2] 1, .encrypt 1 2 .aes128 ⟨0, 4⟩ ⟨4, 4⟩]
        (powerOn .aes128 (fun _ => 0) fun _ => 0) =
      (machine .aes128).replies
        [.init, .createSession 0, .importKey 2 .aes128 [3, 4] 1, .encrypt 1 2 .aes128 ⟨0, 4⟩ ⟨4, 4⟩]
        (powerOn .aes128 (fun _ => 0) fun _ => 0) :=
  (noninterference .aes128 (fun _ => 0) (fun _ => 0) _ _
    (.cons (.same _) (.cons (.same _) (.cons (.importKey 2 .aes128 [1, 2] [3, 4] 1 rfl)
      (.cons (.same _) .nil))))).1

end WiredHsm

end Ehsm
