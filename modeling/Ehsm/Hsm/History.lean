import Ehsm.Hsm.Wiring
import Ehsm.Keystore.History
import Ehsm.Session.Bag

/-!
# Runs of the firmware, seen from its services

On a sound state a call at the API boundary acts on the session manager as at
most one call of its own (`sessionOp`), and likewise on the key store
(`keystoreOp`), the counted key reads inside `encrypt` and `decrypt` apart.
Soundness is preserved, so a run of the firmware runs the two services side by
side, and what is known about their runs holds of it.

## Main results

* `WiredHsm.sound_run` — every reachable state is sound, and an entry of the key
  store is what the latest event of the slot left.
* `WiredHsm.Sound.sessions_run` — the session manager runs the calls projected to it.
-/

namespace Ehsm

open Reactive

namespace WiredHsm

open KeystoreService (SlotEvent)

variable {strategy : Strategy}

/-! ## Projections -/

/-- The call a call makes on the session manager, the queries apart. -/
def sessionOp : Event → Option SessionManager.Op
  | .init => some .init
  | .deinit => some .deinit
  | .createSession sessionId => some (.createSession sessionId)
  | .closeSession sessionId => some (.closeSession sessionId)
  | _ => none

/-- The call a call makes on the key store, the reads apart. -/
def keystoreOp : Event → Option KeystoreService.Op
  | .init => some .init
  | .deinit => some .deinit
  | .importKey keySlotId algorithm keyData permissions =>
      some (.importKey keySlotId algorithm keyData permissions)
  | .deleteKey keySlotId => some (.deleteKey keySlotId)
  | .clearAllKeys => some .clearAll
  | _ => none

/-- What a successful call means for a slot. -/
def slotEvent (slotId : UInt8) (event : Event) (answer : Answer) : Option SlotEvent :=
  match keystoreOp event, answer with
  | some op, .status status => KeystoreService.slotEvent slotId op (.status status)
  | _, _ => none

theorem slotEvent_of_no_op {event : Event} (hop : keystoreOp event = none) (slotId : UInt8)
    (answer : Answer) : slotEvent slotId event answer = none := by
  simp only [slotEvent, hop]

theorem slotEvent_of_op {event : Event} {op : KeystoreService.Op}
    (hop : keystoreOp event = some op) (slotId : UInt8) (status : Status) :
    slotEvent slotId event (.status status) =
      KeystoreService.slotEvent slotId op (.status status) := by
  simp only [slotEvent, hop]

theorem exists_op_of_slotEvent {slotId : UInt8} {event : Event} {answer : Answer} {e : SlotEvent}
    (h : slotEvent slotId event answer = some e) :
    ∃ op status, keystoreOp event = some op ∧ answer = .status status ∧
      KeystoreService.slotEvent slotId op (.status status) = some e := by
  cases hop : keystoreOp event with
  | none => exact absurd h (by simp [slotEvent_of_no_op hop])
  | some op =>
      cases answer with
      | status status =>
          rw [slotEvent_of_op hop] at h
          exact ⟨op, status, rfl, rfl, h⟩
      | session _ _ | info _ _ | truth _ | version _ | stored => simp [slotEvent] at h

/-- The map after a call. -/
def mapAfter (event : Event) (map : Option KeyMap) : Option KeyMap :=
  match keystoreOp event with
  | some op => KeyMap.machine.next op map
  | none => map

theorem mapAfter_of_op {event : Event} {op : KeystoreService.Op} (hop : keystoreOp event = some op)
    (map : Option KeyMap) : mapAfter event map = (KeyMap.step op map).2 := by
  rw [mapAfter, hop]
  rfl

section

variable {hsm : WiredHsm strategy} {map : Option KeyMap}

theorem Sound.next_eq_direct (h : Sound hsm map) (event : Event) :
    (machine strategy).next event hsm = (direct event hsm).2 :=
  congrArg Prod.snd (step_eq_direct h event)

theorem Sound.reply_eq_direct (h : Sound hsm map) (event : Event) :
    (machine strategy).reply event hsm = (direct event hsm).1 :=
  congrArg Prod.fst (step_eq_direct h event)

/-! ## One call -/

/-- The session manager makes the projected call, or none. -/
theorem Sound.sessions_next (h : Sound hsm map) (event : Event) :
    ((machine strategy).next event hsm).world.sessions =
      SessionManager.machine.run (sessionOp event).toList hsm.world.sessions := by
  rw [h.next_eq_direct]
  cases event with
  | init =>
      cases hready : hsm.api.isReady with
      | true =>
          obtain ⟨-, hsessions, -⟩ := h.flag true hready
          simp [direct, hready, sessionOp, SessionManager.machine, Machine.next,
            SessionManager.step, SessionManager.init_of_initialized _ hsessions]
      | false =>
          simp [direct, hready, sessionOp, SessionManager.machine, Machine.next,
            SessionManager.step]
  | deinit =>
      cases hready : hsm.api.isReady with
      | true =>
          simp [direct, hready, sessionOp, SessionManager.machine, Machine.next,
            SessionManager.step]
      | false =>
          obtain ⟨-, hsessions, -⟩ := h.flag false hready
          simp [direct, hready, sessionOp, SessionManager.machine, Machine.next,
            SessionManager.step, SessionManager.deinit_of_not_initialized _ hsessions]
  | createSession sessionId => rfl
  | closeSession sessionId => rfl
  | encrypt sessionId keySlotId algorithm input output =>
      simp only [direct, directCrypt]
      split <;> rfl
  | decrypt sessionId keySlotId algorithm input output =>
      simp only [direct, directCrypt]
      split <;> rfl
  | isReady | isSessionValid _ | importKey _ _ _ _ | deleteKey _ | getKeySlotInfo _ _
  | clearAllKeys | getVersion | store _ _ => rfl

/-- A projected call acts on the key store as itself, and is answered alike. -/
theorem Sound.keystore_next (h : Sound hsm map) {event : Event} {op : KeystoreService.Op}
    (hop : keystoreOp event = some op) :
    ((machine strategy).next event hsm).world.keystore =
        KeystoreService.machine.next op hsm.world.keystore ∧
      ∃ status, (machine strategy).reply event hsm = .status status ∧
        KeystoreService.machine.reply op hsm.world.keystore = .status status := by
  rw [h.next_eq_direct, h.reply_eq_direct]
  cases event with
  | init =>
      obtain rfl := Option.some.inj hop
      cases hready : hsm.api.isReady with
      | true =>
          obtain ⟨-, -, hkeystore⟩ := h.flag true hready
          simp [direct, hready, KeystoreService.machine, Machine.next, Machine.reply,
            KeystoreService.step, KeystoreService.init_of_initialized _ hkeystore]
      | false =>
          obtain ⟨-, -, hkeystore⟩ := h.flag false hready
          simp [direct, hready, KeystoreService.machine, Machine.next, Machine.reply,
            KeystoreService.step, KeystoreService.init_of_not_initialized _ hkeystore]
  | deinit =>
      obtain rfl := Option.some.inj hop
      cases hready : hsm.api.isReady with
      | true =>
          obtain ⟨-, -, hkeystore⟩ := h.flag true hready
          simp [direct, hready, KeystoreService.machine, Machine.next, Machine.reply,
            KeystoreService.step, KeystoreService.deinit_of_initialized _ hkeystore]
      | false =>
          obtain ⟨-, -, hkeystore⟩ := h.flag false hready
          simp [direct, hready, KeystoreService.machine, Machine.next, Machine.reply,
            KeystoreService.step, KeystoreService.deinit_of_not_initialized _ hkeystore]
  | importKey keySlotId algorithm keyData permissions =>
      obtain rfl := Option.some.inj hop
      exact ⟨rfl, _, rfl, rfl⟩
  | deleteKey keySlotId =>
      obtain rfl := Option.some.inj hop
      exact ⟨rfl, _, rfl, rfl⟩
  | clearAllKeys =>
      obtain rfl := Option.some.inj hop
      exact ⟨rfl, _, rfl, rfl⟩
  | isReady | createSession _ | closeSession _ | isSessionValid _ | encrypt _ _ _ _ _
  | decrypt _ _ _ _ _ | getKeySlotInfo _ _ | getVersion | store _ _ =>
      exact absurd hop (Option.some_ne_none op).symm

/-- The other calls leave the key store alone or count a key read. -/
theorem Sound.keystore_of_no_op (h : Sound hsm map) {event : Event}
    (hop : keystoreOp event = none) :
    ((machine strategy).next event hsm).world.keystore = hsm.world.keystore ∨
      ∃ keySlotId, ((machine strategy).next event hsm).world.keystore =
        KeystoreService.machine.next (.getKey keySlotId {}) hsm.world.keystore := by
  rw [h.next_eq_direct]
  cases event with
  | init | deinit | importKey _ _ _ _ | deleteKey _ | clearAllKeys =>
      exact absurd hop (Option.some_ne_none _)
  | encrypt sessionId keySlotId algorithm input output =>
      simp only [direct, directCrypt]
      split
      · exact .inr ⟨keySlotId, rfl⟩
      · exact .inl rfl
  | decrypt sessionId keySlotId algorithm input output =>
      simp only [direct, directCrypt]
      split
      · exact .inr ⟨keySlotId, rfl⟩
      · exact .inl rfl
  | isReady | createSession _ | closeSession _ | isSessionValid _ | getKeySlotInfo _ _
  | getVersion | store _ _ => exact .inl rfl

/-- So they leave the map held. -/
theorem Sound.represents_of_no_op (h : Sound hsm map) {event : Event}
    (hop : keystoreOp event = none) :
    ((machine strategy).next event hsm).world.keystore.Represents map := by
  rcases h.keystore_of_no_op hop with hsame | ⟨keySlotId, hread⟩
  · rw [hsame]
    exact h.represents
  · have hnext := (KeystoreService.represents_getKey keySlotId {} h.represents).2
    have hmap : KeyMap.machine.next (.getKey keySlotId {}) map = map := by
      cases map with
      | none => rfl
      | some m =>
          simp only [KeyMap.machine, Machine.next, KeyMap.step]
          split <;> rfl
    rw [hmap] at hnext
    rw [hread]
    exact hnext

theorem Sound.represents_next (h : Sound hsm map) (event : Event) :
    ((machine strategy).next event hsm).world.keystore.Represents (mapAfter event map) := by
  cases hop : keystoreOp event with
  | none =>
      rw [mapAfter, hop]
      exact h.represents_of_no_op hop
  | some op =>
      rw [mapAfter, hop, (h.keystore_next hop).1]
      exact KeystoreService.simulates.next rfl h.represents

/-- The facade raises and lowers its flag in `init` and `deinit`. -/
theorem Sound.isReady_next (h : Sound hsm map) (event : Event) :
    ((machine strategy).next event hsm).api.isReady =
      match event with
      | .init => true
      | .deinit => false
      | _ => hsm.api.isReady := by
  rw [h.next_eq_direct]
  cases event with
  | init =>
      simp only [direct]
      split
      · next hready => exact hready
      · rfl
  | deinit =>
      simp only [direct]
      split
      · rfl
      · next hready => exact Bool.eq_false_iff.mpr hready
  | encrypt sessionId keySlotId algorithm input output =>
      simp only [direct, directCrypt]
      split <;> rfl
  | decrypt sessionId keySlotId algorithm input output =>
      simp only [direct, directCrypt]
      split <;> rfl
  | isReady | createSession _ | closeSession _ | isSessionValid _ | importKey _ _ _ _
  | deleteKey _ | getKeySlotInfo _ _ | clearAllKeys | getVersion | store _ _ => rfl

/-- Every call leaves a sound state. -/
theorem Sound.next (h : Sound hsm map) (event : Event) :
    Sound ((machine strategy).next event hsm) (mapAfter event map) := by
  have hmap : map.isSome = hsm.api.isReady := by
    rw [← h.represents.isInitialized]
    exact h.keystore
  have hnext := h.represents_next event
  constructor
  · rw [h.isReady_next, h.sessions_next]
    cases event with
    | init => exact SessionManager.isInitialized_next .init hsm.world.sessions
    | deinit => exact SessionManager.isInitialized_next .deinit hsm.world.sessions
    | createSession _ | closeSession _ =>
        exact (SessionManager.isInitialized_next _ hsm.world.sessions).trans h.sessions
    | isReady | isSessionValid _ | encrypt _ _ _ _ _ | decrypt _ _ _ _ _ | importKey _ _ _ _
    | deleteKey _ | getKeySlotInfo _ _ | clearAllKeys | getVersion | store _ _ =>
        exact h.sessions
  · rw [h.isReady_next, hnext.isInitialized]
    cases event with
    | init => exact KeyMap.isSome_next .init map
    | deinit => exact KeyMap.isSome_next .deinit map
    | importKey _ _ _ _ | deleteKey _ | clearAllKeys =>
        exact (KeyMap.isSome_next _ map).trans hmap
    | isReady | isSessionValid _ | encrypt _ _ _ _ _ | decrypt _ _ _ _ _ | createSession _
    | closeSession _ | getKeySlotInfo _ _ | getVersion | store _ _ => exact hmap
  · exact hnext

/-- A call moves each entry as the call's event for it says. -/
theorem Sound.entry_next (h : Sound hsm map) (event : Event) (slotId : UInt8) :
    KeyMap.entry (mapAfter event map) slotId =
      match slotEvent slotId event ((machine strategy).reply event hsm) with
      | some e => e.entry
      | none => KeyMap.entry map slotId := by
  cases hop : keystoreOp event with
  | none => simp [mapAfter, slotEvent, hop]
  | some op =>
      obtain ⟨-, status, hanswer, hreply⟩ := h.keystore_next hop
      have hsame := KeystoreService.simulates.reply (i := op) rfl h.represents
      simp only [mapAfter, slotEvent, hop, hanswer]
      have hentry := KeystoreService.entry_next op map slotId
      rw [← hsame, hreply] at hentry
      exact hentry

end

/-! ## Runs -/

/-- The latest event of a slot in a run from power-on. -/
def lastSlotEvent (strategy : Strategy) (accessCount : Fin kMaxKeySlots → UInt32) (mem : Memory)
    (events : List Event) (slotId : UInt8) : Option SlotEvent :=
  Machine.lastEvent (slotEvent slotId)
    ((machine strategy).trace events (powerOn strategy accessCount mem))

/-- **Every reachable state is sound**, and an entry of the key store is what the
latest event of the slot left. -/
theorem sound_run (strategy : Strategy) (accessCount : Fin kMaxKeySlots → UInt32)
    (mem : Memory) (events : List Event) :
    ∃ map, Sound ((machine strategy).run events (powerOn strategy accessCount mem)) map ∧
      ∀ slotId, KeyMap.entry map slotId =
        (lastSlotEvent strategy accessCount mem events slotId).bind SlotEvent.entry := by
  have hrun := (machine strategy).run_lastEvent
    (R := fun hsm v => ∃ map, Sound hsm map ∧
      ∀ slotId, KeyMap.entry map slotId = (v slotId).bind SlotEvent.entry)
    slotEvent ?_ events (s := powerOn strategy accessCount mem) (v := fun _ => none)
    ⟨none, sound_powerOn strategy accessCount mem, fun _ => rfl⟩
  · simp only [Option.or_none] at hrun
    exact hrun
  · intro event hsm v h
    obtain ⟨map, hsound, hentry⟩ := h
    refine ⟨mapAfter event map, hsound.next event, ?_⟩
    intro slotId
    rw [hsound.entry_next event slotId]
    dsimp only
    cases slotEvent slotId event ((machine strategy).reply event hsm) with
    | none => exact hentry slotId
    | some e => rfl

section

variable {hsm : WiredHsm strategy} {map : Option KeyMap}

theorem Sound.run (h : Sound hsm map) (events : List Event) :
    ∃ map', Sound ((machine strategy).run events hsm) map' :=
  (machine strategy).run_induction (P := fun hsm => ∃ map, Sound hsm map)
    (fun event _ hs => hs.imp' (mapAfter event) fun _ hsound => hsound.next event) events ⟨map, h⟩

/-- The session manager runs the calls projected to it. -/
theorem Sound.sessions_run (h : Sound hsm map) (events : List Event) :
    ((machine strategy).run events hsm).world.sessions =
      SessionManager.machine.run (events.filterMap sessionOp) hsm.world.sessions := by
  rw [List.filterMap_eq_flatMap_toList]
  exact (machine strategy).run_flatMap SessionManager.machine
    (Q := fun hsm => ∃ map, Sound hsm map) (fun hsm => hsm.world.sessions)
    (fun event => (sessionOp event).toList)
    (fun event _ hs => hs.imp' (mapAfter event) fun _ hsound => hsound.next event)
    (fun event _ hs => hs.elim fun _ hsound => hsound.sessions_next event) events ⟨map, h⟩

/-- What every call of the key store preserves, every run of the firmware does. -/
theorem Sound.keystore_run_induction (h : Sound hsm map) {P : KeystoreService → Prop}
    (hstep : ∀ op ks, P ks → P (KeystoreService.machine.next op ks)) (events : List Event)
    (hp : P hsm.world.keystore) : P ((machine strategy).run events hsm).world.keystore := by
  induction events generalizing hsm map with
  | nil => exact hp
  | cons event events ih =>
      apply ih (h.next event)
      cases hop : keystoreOp event with
      | some op =>
          rw [(h.keystore_next hop).1]
          exact hstep op _ hp
      | none =>
          rcases h.keystore_of_no_op hop with hsame | ⟨keySlotId, hread⟩
          · rw [hsame]
            exact hp
          · rw [hread]
            exact hstep _ _ hp

/-- Without `deinit` a ready firmware stays ready. -/
theorem Sound.isReady_run (h : Sound hsm map) (hready : hsm.api.isReady = true)
    (events : List Event) (hevents : ∀ event ∈ events, event ≠ .deinit) :
    ((machine strategy).run events hsm).api.isReady = true := by
  induction events generalizing hsm map with
  | nil => exact hready
  | cons event events ih =>
      refine ih (h.next event) ?_ fun e he => hevents e (List.mem_cons_of_mem _ he)
      rw [h.isReady_next]
      have hne := hevents event List.mem_cons_self
      cases event <;> first | rfl | exact hready | contradiction

end

end WiredHsm

end Ehsm
