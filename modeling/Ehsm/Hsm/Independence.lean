import Ehsm.Crypto.Overlap
import Ehsm.Hsm.Frame
import Ehsm.Reactive.Independence

/-!
# Operations on different slots and sessions

Several clients can use one firmware in turns without noticing each other as long
as they keep to slots, sessions and buffers of their own.  The state is split into
the facade's flag, the session table, the key store's flag, its slots and the
bytes of the caller's memory.  The table is one cell, since any two calls on it
share the search for an entry; a request looks at it through one question only,
whether its own session is active, and a session operation on another id does not
change the answer.

## Main results

* `WiredHsm.footprint` — what each of the operations touches.
* `WiredHsm.independent_commute` — operations on different slots and sessions can
  be made in either order.
-/

namespace Ehsm

open Reactive

namespace KeystoreService

/-! ## Operations on one slot -/

/-- The stores have the same flag and the same slot. -/
structure SameSlot (slotId : UInt8) (ks ks' : KeystoreService) : Prop where
  isInitialized : ks.isInitialized = ks'.isInitialized
  slot : ∀ h : IsValidSlotId slotId,
    ks.keySlots (slotIndex slotId h) = ks'.keySlots (slotIndex slotId h)

/-- The operation depends on the store's flag and one slot, and changes no other. -/
structure ActsOnSlot {ρ : Type*} (slotId : UInt8)
    (call : KeystoreService → ρ × KeystoreService) : Prop where
  frame : ∀ ks, OneSlot slotId ks (call ks).2
  answer : ∀ ks ks', SameSlot slotId ks ks' → (call ks).1 = (call ks').1
  effect : ∀ ks ks', SameSlot slotId ks ks' → SameSlot slotId (call ks).2 (call ks').2

/-- Answer and effect can be compared in one pass over the operation. -/
theorem ActsOnSlot.of_pair {ρ : Type*} {slotId : UInt8}
    {call : KeystoreService → ρ × KeystoreService}
    (hframe : ∀ ks, OneSlot slotId ks (call ks).2)
    (hpair : ∀ ks ks', SameSlot slotId ks ks' →
      (call ks).1 = (call ks').1 ∧ SameSlot slotId (call ks).2 (call ks').2) :
    ActsOnSlot slotId call where
  frame := hframe
  answer := fun ks ks' h => (hpair ks ks' h).1
  effect := fun ks ks' h => (hpair ks ks' h).2

theorem importKey_actsOnSlot (slotId : UInt8) (algorithm : Algorithm) (keyData : List UInt8)
    (permissions : UInt8) :
    ActsOnSlot slotId (importKey slotId algorithm keyData permissions) := by
  apply ActsOnSlot.of_pair
  · exact fun ks => importKey_frame ks slotId algorithm keyData permissions
  · intro ks ks' h
    unfold importKey
    rw [h.isInitialized]
    split
    · exact ⟨rfl, h⟩
    split
    · next hslot =>
        split
        · exact ⟨rfl, h⟩
        · dsimp only
          rw [h.slot hslot]
          split
          · exact ⟨rfl, h⟩
          · refine ⟨rfl, h.isInitialized, ?_⟩
            intro _
            rw [setSlot_self, setSlot_self]
    · exact ⟨rfl, h⟩

theorem deleteKey_actsOnSlot (slotId : UInt8) : ActsOnSlot slotId (deleteKey slotId) := by
  apply ActsOnSlot.of_pair
  · exact fun ks => deleteKey_frame ks slotId
  · intro ks ks' h
    unfold deleteKey
    rw [h.isInitialized]
    split
    · exact ⟨rfl, h⟩
    split
    · next hslot =>
        rw [h.slot hslot]
        split
        · exact ⟨rfl, h⟩
        · refine ⟨rfl, h.isInitialized, ?_⟩
          intro _
          rw [secureClear, secureClear, setSlot_self, setSlot_self, h.slot hslot]
    · exact ⟨rfl, h⟩

theorem getKey_effect {slotId : UInt8} {ks ks' : KeystoreService} (h : SameSlot slotId ks ks')
    (out : Key) : SameSlot slotId (ks.getKey slotId out).2.2 (ks'.getKey slotId out).2.2 := by
  unfold getKey
  rw [h.isInitialized]
  split
  · exact h
  split
  · next hslot =>
      dsimp only
      rw [h.slot hslot]
      split
      · exact h
      · refine ⟨h.isInitialized, ?_⟩
        intro _
        rw [setSlot_self, setSlot_self]
  · exact h

theorem getSlotInfo_answer {slotId : UInt8} {ks ks' : KeystoreService}
    (h : SameSlot slotId ks ks') (out : KeySlotInfo) :
    (ks.getSlotInfo slotId out).1 = (ks'.getSlotInfo slotId out).1 ∧
      (ks.getSlotInfo slotId out).2.1 = (ks'.getSlotInfo slotId out).2.1 := by
  unfold getSlotInfo
  rw [h.isInitialized]
  split
  · exact ⟨rfl, rfl⟩
  split
  · next hslot =>
      rw [h.slot hslot]
      exact ⟨rfl, rfl⟩
  · exact ⟨rfl, rfl⟩

end KeystoreService

namespace WiredHsm

variable {strategy : Strategy}

/-! ## Cells -/

/-- The parts of the state that change independently of each other. -/
inductive Cell where
  | facade
  | sessions
  | keystoreFlag
  | slot (i : Fin kMaxKeySlots)
  | byte (address : Nat)

/-- What a cell contains. -/
abbrev Cell.Value (strategy : Strategy) : Cell → Type
  | .facade => HsmApiImpl (World.services strategy)
  | .sessions => SessionManager
  | .keystoreFlag => Bool
  | .slot _ => KeySlotStorage
  | .byte _ => UInt8

def Cell.get : (cell : Cell) → WiredHsm strategy → cell.Value strategy
  | .facade, hsm => hsm.api
  | .sessions, hsm => hsm.world.sessions
  | .keystoreFlag, hsm => hsm.world.keystore.isInitialized
  | .slot i, hsm => hsm.world.keystore.keySlots i
  | .byte address, hsm => hsm.memory address

/-- The cells are the whole state. -/
theorem eq_of_cells {hsm hsm' : WiredHsm strategy}
    (h : ∀ cell : Cell, cell.get hsm = cell.get hsm') : hsm = hsm' := by
  obtain ⟨api, memory, ⟨sessions, ⟨keySlots, isInitialized⟩⟩⟩ := hsm
  obtain ⟨api', memory', ⟨sessions', ⟨keySlots', isInitialized'⟩⟩⟩ := hsm'
  obtain rfl : api = api' := h .facade
  obtain rfl : sessions = sessions' := h .sessions
  obtain rfl : isInitialized = isInitialized' := h .keystoreFlag
  obtain rfl : keySlots = keySlots' := funext fun i => h (.slot i)
  obtain rfl : memory = memory' := funext fun address => h (.byte address)
  rfl

/-! ## What each operation touches -/

/-- The operations on sessions. -/
inductive SessionOp : Event → Prop where
  | createSession (sessionId : SessionId) : SessionOp (.createSession sessionId)
  | closeSession (sessionId : SessionId) : SessionOp (.closeSession sessionId)
  | isSessionValid (sessionId : SessionId) : SessionOp (.isSessionValid sessionId)

/-- The slot that a key or crypto operation names. -/
def slotNamed : Event → Option UInt8
  | .importKey keySlotId _ _ _ | .deleteKey keySlotId | .getKeySlotInfo keySlotId _
  | .encrypt _ keySlotId _ _ _ | .decrypt _ keySlotId _ _ _ => some keySlotId
  | _ => none

/-- The session, the input and the output of a crypto operation. -/
def request : Event → Option (SessionId × Span × Span)
  | .encrypt sessionId _ _ input output | .decrypt sessionId _ _ input output =>
      some (sessionId, input, output)
  | _ => none

/-- The cells that an operation may change. -/
def writes : Event → Set Cell
  | .createSession _ | .closeSession _ => {.sessions}
  | .importKey keySlotId _ _ _ | .deleteKey keySlotId =>
      {cell | ∃ i : Fin kMaxKeySlots, cell = .slot i ∧ i.val = keySlotId.toNat}
  | .encrypt _ keySlotId _ _ output | .decrypt _ keySlotId _ _ output =>
      {cell | (∃ i : Fin kMaxKeySlots, cell = .slot i ∧ i.val = keySlotId.toNat) ∨
        ∃ address, cell = .byte address ∧ output.Contains address}
  | _ => ∅

/-- The states look the same to a request. -/
structure SameRequest (sessionId : SessionId) (keySlotId : UInt8) (input output : Span)
    (hsm hsm' : WiredHsm strategy) : Prop where
  facade : hsm.api = hsm'.api
  active : hsm.world.sessions.isSessionValid sessionId =
    hsm'.world.sessions.isSessionValid sessionId
  slot : KeystoreService.SameSlot keySlotId hsm.world.keystore hsm'.world.keystore
  bytes : ∀ address, input.Contains address ∨ output.Contains address →
    hsm.memory address = hsm'.memory address

/-- The states look the same to an operation. -/
def LooksSame : Event → WiredHsm strategy → WiredHsm strategy → Prop
  | .createSession _, hsm, hsm' | .closeSession _, hsm, hsm' | .isSessionValid _, hsm, hsm' =>
      hsm.world.sessions = hsm'.world.sessions
  | .importKey keySlotId _ _ _, hsm, hsm' | .deleteKey keySlotId, hsm, hsm'
  | .getKeySlotInfo keySlotId _, hsm, hsm' =>
      KeystoreService.SameSlot keySlotId hsm.world.keystore hsm'.world.keystore
  | .encrypt sessionId keySlotId _ input output, hsm, hsm'
  | .decrypt sessionId keySlotId _ input output, hsm, hsm' =>
      SameRequest sessionId keySlotId input output hsm hsm'
  | _, _, _ => False

/-- The machine without guards. -/
def directMachine (strategy : Strategy) : Machine (WiredHsm strategy) Event Answer := ⟨direct⟩

/-- An operation that acts on one slot touches that slot. -/
theorem footprint_of_actsOnSlot {event : Event} {slotId : UInt8}
    {call : KeystoreService → Status × KeystoreService}
    (hcall : KeystoreService.ActsOnSlot slotId call)
    (hdirect : ∀ hsm : WiredHsm strategy,
      direct event hsm = (.status (call hsm.world.keystore).1,
        hsm.setKeystore (call hsm.world.keystore).2)) :
    Machine.Footprint (directMachine strategy) Cell.get event
      {cell | ∃ i : Fin kMaxKeySlots, cell = .slot i ∧ i.val = slotId.toNat}
      fun hsm hsm' => KeystoreService.SameSlot slotId hsm.world.keystore hsm'.world.keystore := by
  constructor
  · intro hsm cell hcell
    have hframe := hcall.frame hsm.world.keystore
    show cell.get (direct event hsm).2 = _
    rw [hdirect]
    cases cell with
    | facade | sessions | byte _ => rfl
    | keystoreFlag => exact hframe.isInitialized
    | slot i => exact hframe.others i fun hi => hcell ⟨i, rfl, hi⟩
  · intro hsm hsm' hsame
    show (direct event hsm).1 = (direct event hsm').1
    rw [hdirect, hdirect, hcall.answer _ _ hsame]
  · intro hsm hsm' hsame cell hcell
    obtain ⟨i, rfl, hi⟩ := hcell
    show Cell.get (.slot i) (direct event hsm).2 = Cell.get (.slot i) (direct event hsm').2
    obtain ⟨hslot, rfl⟩ := KeystoreService.eq_slotIndex hi
    rw [hdirect, hdirect]
    exact (hcall.effect _ _ hsame).slot hslot

/-- States that look the same to a request get the same decision. -/
theorem SameRequest.decision_eq {sessionId : SessionId} {keySlotId : UInt8} {input output : Span}
    {hsm hsm' : WiredHsm strategy} (h : SameRequest sessionId keySlotId input output hsm hsm')
    (required : KeyPermission) :
    decision required sessionId keySlotId input output hsm =
      decision required sessionId keySlotId input output hsm' := by
  have hgrants : grants hsm.world.keystore keySlotId required =
      grants hsm'.world.keystore keySlotId required := by
    unfold grants
    split
    · next hslot => rw [h.slot.slot hslot]
    · rfl
  rw [decision, decision, h.facade, h.active, hgrants]

/-- A request touches the slot it names and its output. -/
theorem footprint_directCrypt {event : Event} {required : KeyPermission} {sessionId : SessionId}
    {keySlotId : UInt8} {input output : Span}
    (hdirect : ∀ hsm : WiredHsm strategy,
      direct event hsm = directCrypt required sessionId keySlotId input output hsm) :
    Machine.Footprint (directMachine strategy) Cell.get event
      {cell | (∃ i : Fin kMaxKeySlots, cell = .slot i ∧ i.val = keySlotId.toNat) ∨
        ∃ address, cell = .byte address ∧ output.Contains address}
      (SameRequest sessionId keySlotId input output) := by
  constructor
  · intro hsm cell hcell
    obtain ⟨-, hapi, -, hsessions, hcount⟩ :=
      directCrypt_frame required sessionId keySlotId input output hsm
    show cell.get (direct event hsm).2 = _
    rw [hdirect]
    cases cell with
    | facade => exact hapi
    | sessions => exact hsessions
    | keystoreFlag => exact hcount.isInitialized
    | slot i => exact hcount.others i fun hi => hcell (.inl ⟨i, rfl, hi⟩)
    | byte address =>
        have houtside : ¬ output.Contains address := fun hout => hcell (.inr ⟨address, rfl, hout⟩)
        show (directCrypt required sessionId keySlotId input output hsm).2.memory address = _
        rw [directCrypt]
        by_cases hok : decision required sessionId keySlotId input output hsm = .ok
        · have hgood := (decision_eq_ok_iff.mp hok).2.1
          rw [if_pos hok]
          exact xorLoop_outside hgood houtside hsm.memory
        · rw [if_neg hok]
          rfl
  · intro hsm hsm' hsame
    show (direct event hsm).1 = (direct event hsm').1
    rw [hdirect, hdirect]
    exact congrArg Answer.status (hsame.decision_eq required)
  · intro hsm hsm' hsame cell hcell
    have hdecision := hsame.decision_eq required
    show cell.get (direct event hsm).2 = cell.get (direct event hsm').2
    rw [hdirect, hdirect, directCrypt, directCrypt, hdecision]
    by_cases hok : decision required sessionId keySlotId input output hsm' = .ok
    · rw [if_pos hok, if_pos hok]
      rcases hcell with ⟨i, rfl, hi⟩ | ⟨address, rfl, hout⟩
      · obtain ⟨hslot, rfl⟩ := KeystoreService.eq_slotIndex hi
        exact (KeystoreService.getKey_effect hsame.slot {}).slot hslot
      · exact xorLoop_congr hsame.bytes hout
    · rw [if_neg hok, if_neg hok]
      rcases hcell with ⟨i, rfl, hi⟩ | ⟨address, rfl, hout⟩
      · obtain ⟨hslot, rfl⟩ := KeystoreService.eq_slotIndex hi
        exact hsame.slot.slot hslot
      · exact hsame.bytes address (.inr hout)

/-- An operation that acts on the session table touches the table. -/
theorem footprint_of_sessions {event : Event} (answer : SessionManager → Answer)
    (after : SessionManager → SessionManager)
    (hdirect : ∀ hsm : WiredHsm strategy,
      direct event hsm = (answer hsm.world.sessions, hsm.setSessions (after hsm.world.sessions))) :
    Machine.Footprint (directMachine strategy) Cell.get event {.sessions}
      fun hsm hsm' => hsm.world.sessions = hsm'.world.sessions := by
  constructor
  · intro hsm cell hcell
    show cell.get (direct event hsm).2 = _
    rw [hdirect]
    cases cell with
    | sessions => exact absurd rfl hcell
    | facade | keystoreFlag | slot _ | byte _ => rfl
  · intro hsm hsm' hsame
    show (direct event hsm).1 = (direct event hsm').1
    rw [hdirect, hdirect, hsame]
  · intro hsm hsm' hsame cell hcell
    obtain rfl := hcell
    show ((direct event hsm).2).world.sessions = ((direct event hsm').2).world.sessions
    rw [hdirect, hdirect, hsame]
    rfl

/-- A query touches nothing. -/
theorem footprint_of_query {event : Event} {answer : WiredHsm strategy → Answer}
    (hdirect : ∀ hsm : WiredHsm strategy, direct event hsm = (answer hsm, hsm))
    {looksSame : WiredHsm strategy → WiredHsm strategy → Prop}
    (hanswer : ∀ hsm hsm', looksSame hsm hsm' → answer hsm = answer hsm') :
    Machine.Footprint (directMachine strategy) Cell.get event ∅ looksSame := by
  constructor
  · intro hsm cell _
    show cell.get (direct event hsm).2 = _
    rw [hdirect]
  · intro hsm hsm' hsame
    show (direct event hsm).1 = (direct event hsm').1
    rw [hdirect, hdirect, hanswer hsm hsm' hsame]
  · intro _ _ _ cell hcell
    exact absurd hcell (Set.notMem_empty cell)

/-- **What each operation touches.** -/
theorem footprint {event : Event} (hlisted : SessionOp event ∨ (slotNamed event).isSome = true) :
    Machine.Footprint (directMachine strategy) Cell.get event (writes event)
      (LooksSame event) := by
  cases event with
  | init | deinit | isReady | clearAllKeys | getVersion | store _ _ =>
      rcases hlisted with hsession | hslot
      · cases hsession
      · cases hslot
  | createSession sessionId =>
      exact footprint_of_sessions
        (fun sm => .session (sm.createSession sessionId).1 (sm.createSession sessionId).2.1)
        (fun sm => (sm.createSession sessionId).2.2) fun _ => rfl
  | closeSession sessionId =>
      exact footprint_of_sessions (fun sm => .status (sm.closeSession sessionId).1)
        (fun sm => (sm.closeSession sessionId).2) fun _ => rfl
  | isSessionValid sessionId =>
      apply footprint_of_query fun _ => rfl
      intro hsm hsm' hsame
      exact congrArg (fun sm => Answer.truth (sm.isSessionValid sessionId)) hsame
  | encrypt sessionId keySlotId algorithm input output => exact footprint_directCrypt fun _ => rfl
  | decrypt sessionId keySlotId algorithm input output => exact footprint_directCrypt fun _ => rfl
  | importKey keySlotId algorithm keyData permissions =>
      exact footprint_of_actsOnSlot
        (KeystoreService.importKey_actsOnSlot keySlotId algorithm keyData permissions) fun _ => rfl
  | deleteKey keySlotId =>
      exact footprint_of_actsOnSlot (KeystoreService.deleteKey_actsOnSlot keySlotId) fun _ => rfl
  | getKeySlotInfo keySlotId info =>
      apply footprint_of_query fun _ => rfl
      intro hsm hsm' hsame
      obtain ⟨hstatus, hinfo⟩ := KeystoreService.getSlotInfo_answer hsame info
      rw [hstatus, hinfo]

/-! ## Independence -/

/-- The operations considered: on sessions, on keys, and crypto operations. -/
def Listed (event : Event) : Prop := SessionOp event ∨ (slotNamed event).isSome = true

/-- The operation concerns the session: a creation concerns the one it returns. -/
def Concerns (hsm : WiredHsm strategy) (sessionId : SessionId) : Event → Prop
  | .createSession out => (machine strategy).reply (.createSession out) hsm = .session .ok sessionId
  | .closeSession closed => closed = sessionId
  | .isSessionValid asked => asked = sessionId
  | _ => False

/-- The operations have nothing in common: at most one is on sessions, those that
name a slot name different ones, a crypto operation and a session operation
concern different sessions, and no crypto operation has its output in a buffer of
the other. -/
structure Independent (hsm : WiredHsm strategy) (a b : Event) : Prop where
  oneSessionOp : ¬ (SessionOp a ∧ SessionOp b)
  slots : ∀ slotId, ¬ (slotNamed a = some slotId ∧ slotNamed b = some slotId)
  sessions : ∀ sessionId input output, request a = some (sessionId, input, output) →
    ¬ Concerns hsm sessionId b
  sessions' : ∀ sessionId input output, request b = some (sessionId, input, output) →
    ¬ Concerns hsm sessionId a
  buffers : ∀ sessionId input output sessionId' input' output',
    request a = some (sessionId, input, output) → request b = some (sessionId', input', output') →
      output.Disjoint input' ∧ output.Disjoint output' ∧ output'.Disjoint input

theorem Independent.symm {hsm : WiredHsm strategy} {a b : Event} (h : Independent hsm a b) :
    Independent hsm b a := by
  refine ⟨fun hboth => h.oneSessionOp hboth.symm, fun slotId hboth => h.slots slotId hboth.symm,
    h.sessions', h.sessions, ?_⟩
  intro sessionId input output sessionId' input' output' hb ha
  obtain ⟨hin, hout, hin'⟩ := h.buffers sessionId' input' output' sessionId input output ha hb
  exact ⟨hin', fun address hb ha => hout address ha hb, hin⟩

/-- The facade and the flag of the store are not written. -/
theorem facade_notMem_writes (event : Event) :
    Cell.facade ∉ writes event ∧ Cell.keystoreFlag ∉ writes event := by
  cases event <;> simp [writes]

theorem sessionOp_of_mem_writes {event : Event} (h : Cell.sessions ∈ writes event) :
    SessionOp event := by
  cases event with
  | createSession sessionId => exact .createSession sessionId
  | closeSession sessionId => exact .closeSession sessionId
  | init | deinit | isReady | isSessionValid _ | encrypt _ _ _ _ _ | decrypt _ _ _ _ _
  | importKey _ _ _ _ | deleteKey _ | getKeySlotInfo _ _ | clearAllKeys | getVersion
  | store _ _ => simp [writes] at h

theorem slotNamed_of_mem_writes {event : Event} {i : Fin kMaxKeySlots}
    (h : Cell.slot i ∈ writes event) :
    ∃ slotId, slotNamed event = some slotId ∧ i.val = slotId.toNat := by
  cases event with
  | importKey slotId _ _ _ | deleteKey slotId | encrypt _ slotId _ _ _
  | decrypt _ slotId _ _ _ =>
      refine ⟨slotId, rfl, ?_⟩
      simpa [writes] using h
  | init | deinit | isReady | createSession _ | closeSession _ | isSessionValid _
  | getKeySlotInfo _ _ | clearAllKeys | getVersion | store _ _ => simp [writes] at h

theorem request_of_mem_writes {event : Event} {address : Nat}
    (h : Cell.byte address ∈ writes event) :
    ∃ sessionId input output, request event = some (sessionId, input, output) ∧
      output.Contains address := by
  cases event with
  | encrypt sessionId _ _ input output | decrypt sessionId _ _ input output =>
      refine ⟨sessionId, input, output, rfl, ?_⟩
      simpa [writes] using h
  | init | deinit | isReady | createSession _ | closeSession _ | isSessionValid _
  | importKey _ _ _ _ | deleteKey _ | getKeySlotInfo _ _ | clearAllKeys | getVersion
  | store _ _ => simp [writes] at h

section

variable {hsm : WiredHsm strategy} {map : Option KeyMap} {a b : Event}

/-- What an operation does to a cell it does not write: nothing. -/
theorem get_next (hb : Listed b) (cell : Cell) (hcell : cell ∉ writes b) :
    cell.get ((directMachine strategy).next b hsm) = cell.get hsm :=
  (footprint hb).frame hsm cell hcell

theorem sameSlot_next (hb : Listed b) {slotId : UInt8} (hother : slotNamed b ≠ some slotId) :
    KeystoreService.SameSlot slotId ((directMachine strategy).next b hsm).world.keystore
      hsm.world.keystore := by
  refine ⟨get_next hb .keystoreFlag (facade_notMem_writes b).2, ?_⟩
  intro hslot
  apply get_next hb (.slot (slotIndex slotId hslot))
  intro hmem
  obtain ⟨named, hnamed, hval⟩ := slotNamed_of_mem_writes hmem
  rw [UInt8.toNat_inj.mp hval] at hother
  exact hother hnamed

/-- A session operation does not change whether another session is active. -/
theorem Sound.active_next (h : Sound hsm map) (hb : Listed b) {sessionId : SessionId}
    (hother : ¬ Concerns hsm sessionId b) :
    ((directMachine strategy).next b hsm).world.sessions.isSessionValid sessionId =
      hsm.world.sessions.isSessionValid sessionId := by
  by_cases hop : SessionOp b
  · cases hop with
    | createSession out =>
        apply SessionManager.isSessionValid_createSession
        intro hok hid
        apply hother
        rw [Concerns, h.reply_eq_direct, direct, hok, hid]
    | closeSession closed => exact SessionManager.isSessionValid_closeSession _ hother
    | isSessionValid asked => rfl
  · have hsame : ((directMachine strategy).next b hsm).world.sessions = hsm.world.sessions :=
      get_next hb .sessions fun hmem => hop (sessionOp_of_mem_writes hmem)
    rw [hsame]

/-- An operation does not notice an independent one. -/
theorem Sound.looksSame (h : Sound hsm map) (ha : Listed a) (hb : Listed b)
    (hind : Independent hsm a b) : LooksSame a ((directMachine strategy).next b hsm) hsm := by
  have hsessions : SessionOp a →
      ((directMachine strategy).next b hsm).world.sessions = hsm.world.sessions := by
    intro hop
    exact get_next hb .sessions fun hmem =>
      hind.oneSessionOp ⟨hop, sessionOp_of_mem_writes hmem⟩
  have hslot : ∀ slotId, slotNamed a = some slotId →
      KeystoreService.SameSlot slotId ((directMachine strategy).next b hsm).world.keystore
        hsm.world.keystore := by
    intro slotId hnamed
    exact sameSlot_next hb fun hother => hind.slots slotId ⟨hnamed, hother⟩
  have hrequest : ∀ sessionId slotId input output, slotNamed a = some slotId →
      request a = some (sessionId, input, output) →
        SameRequest sessionId slotId input output ((directMachine strategy).next b hsm) hsm := by
    intro sessionId slotId input output hnamed hreq
    refine ⟨get_next hb .facade (facade_notMem_writes b).1,
      h.active_next hb (hind.sessions sessionId input output hreq), hslot slotId hnamed, ?_⟩
    intro address haddress
    apply get_next hb (.byte address)
    intro hmem
    obtain ⟨sessionId', input', output', hreq', hwritten⟩ := request_of_mem_writes hmem
    obtain ⟨-, hout, hin⟩ := hind.buffers _ _ _ _ _ _ hreq hreq'
    rcases haddress with haddress | haddress
    · exact hin address hwritten haddress
    · exact hout address haddress hwritten
  cases a with
  | createSession sessionId => exact hsessions (.createSession sessionId)
  | closeSession sessionId => exact hsessions (.closeSession sessionId)
  | isSessionValid sessionId => exact hsessions (.isSessionValid sessionId)
  | importKey slotId _ _ _ | deleteKey slotId | getKeySlotInfo slotId _ => exact hslot slotId rfl
  | encrypt sessionId slotId _ input output | decrypt sessionId slotId _ input output =>
      exact hrequest sessionId slotId input output rfl rfl
  | init | deinit | isReady | clearAllKeys | getVersion | store _ _ =>
      rcases ha with hop | hnamed
      · cases hop
      · cases hnamed

/-- Independent operations write different cells. -/
theorem Independent.writes_disjoint (hind : Independent hsm a b) :
    ∀ cell ∈ writes a, cell ∉ writes b := by
  intro cell ha hb
  cases cell with
  | facade => exact (facade_notMem_writes a).1 ha
  | keystoreFlag => exact (facade_notMem_writes a).2 ha
  | sessions => exact hind.oneSessionOp ⟨sessionOp_of_mem_writes ha, sessionOp_of_mem_writes hb⟩
  | slot i =>
      obtain ⟨slotId, hnamed, hval⟩ := slotNamed_of_mem_writes ha
      obtain ⟨slotId', hnamed', hval'⟩ := slotNamed_of_mem_writes hb
      have hsame : slotId = slotId' := UInt8.toNat_inj.mp (hval.symm.trans hval')
      subst hsame
      exact hind.slots slotId ⟨hnamed, hnamed'⟩
  | byte address =>
      obtain ⟨_, _, _, hreq, hin⟩ := request_of_mem_writes ha
      obtain ⟨_, _, _, hreq', hin'⟩ := request_of_mem_writes hb
      exact (hind.buffers _ _ _ _ _ _ hreq hreq').2.1 address hin hin'

end

/-- On a sound state the calls without guards are the calls. -/
theorem Sound.commuteAt {hsm : WiredHsm strategy} {map : Option KeyMap} (h : Sound hsm map)
    {a b : Event} (hdirect : (directMachine strategy).CommuteAt a b hsm) :
    (machine strategy).CommuteAt a b hsm := by
  have hnext : ∀ event,
      (machine strategy).next event hsm = (directMachine strategy).next event hsm :=
    h.next_eq_direct
  constructor
  · rw [(h.next b).reply_eq_direct, h.reply_eq_direct, hnext]
    exact hdirect.reply_left
  · rw [(h.next a).reply_eq_direct, h.reply_eq_direct, hnext]
    exact hdirect.reply_right
  · rw [(h.next a).next_eq_direct, (h.next b).next_eq_direct, hnext, hnext]
    exact hdirect.next

/-- The operation leaves the same bytes in its output in both states. -/
def SameOutput (event : Event) (hsm hsm' : WiredHsm strategy) : Prop :=
  ∀ sessionId input output, request event = some (sessionId, input, output) →
    ∀ address, output.Contains address → hsm.memory address = hsm'.memory address

theorem mem_writes_of_request {event : Event} {sessionId : SessionId} {input output : Span}
    (h : request event = some (sessionId, input, output)) {address : Nat}
    (hout : output.Contains address) : Cell.byte address ∈ writes event := by
  cases event with
  | encrypt _ _ _ _ _ | decrypt _ _ _ _ _ =>
      obtain ⟨-, hspans⟩ := Prod.mk.inj (Option.some.inj h)
      obtain ⟨-, rfl⟩ := Prod.mk.inj hspans
      exact .inr ⟨address, rfl, hout⟩
  | init | deinit | isReady | createSession _ | closeSession _ | isSessionValid _
  | importKey _ _ _ _ | deleteKey _ | getKeySlotInfo _ _ | clearAllKeys | getVersion
  | store _ _ => cases h

/-- From states that look the same to it an operation leaves the same output. -/
theorem Sound.sameOutput {hsm hsm' : WiredHsm strategy} {map map' : Option KeyMap}
    (h : Sound hsm map) (h' : Sound hsm' map') {event : Event} (hlisted : Listed event)
    (hsame : LooksSame event hsm hsm') :
    SameOutput event ((machine strategy).next event hsm) ((machine strategy).next event hsm') := by
  intro sessionId input output hreq address hout
  rw [h.next_eq_direct, h'.next_eq_direct]
  exact (footprint hlisted).effect hsm hsm' hsame _ (mem_writes_of_request hreq hout)

/--
**Independent operations commute.**  In every reachable state, with either
strategy, two operations that name different slots, concern different sessions and
use buffers of their own, at most one of them on sessions, can be made in either
order: each gets the same answer and leaves the same output, and the final state is
the same.
-/
theorem independent_commute (strategy : Strategy) (accessCount : Fin kMaxKeySlots → UInt32)
    (mem : Memory) (events : List Event) (a b : Event) (ha : Listed a) (hb : Listed b)
    (hind : Independent ((machine strategy).run events (powerOn strategy accessCount mem)) a b) :
    let hsm := (machine strategy).run events (powerOn strategy accessCount mem)
    (machine strategy).CommuteAt a b hsm ∧
      SameOutput a ((machine strategy).next a ((machine strategy).next b hsm))
        ((machine strategy).next a hsm) ∧
      SameOutput b ((machine strategy).next b ((machine strategy).next a hsm))
        ((machine strategy).next b hsm) := by
  intro hsm
  obtain ⟨map, hsound, -⟩ := sound_run strategy accessCount mem events
  have hsameA := hsound.looksSame ha hb hind
  have hsameB := hsound.looksSame hb ha hind.symm
  have hcommute : (directMachine strategy).CommuteAt a b hsm :=
    (footprint ha).commuteAt (footprint hb) (fun _ _ => eq_of_cells) hsameA hsameB
      hind.writes_disjoint
  refine ⟨hsound.commuteAt hcommute, ?_, ?_⟩
  · apply (hsound.next b).sameOutput hsound ha
    rw [hsound.next_eq_direct]
    exact hsameA
  · apply (hsound.next a).sameOutput hsound hb
    rw [hsound.next_eq_direct]
    exact hsameB

/-- Enciphering under session 1 and opening session 2. -/
theorem encrypt_createSession_commute :
    (machine .aes128).CommuteAt (.encrypt 1 0 .aes128 ⟨0, 4⟩ ⟨8, 4⟩) (.createSession 7)
      ((machine .aes128).run [.init, .createSession 0, .importKey 0 .aes128 [7] 0x03]
        (powerOn .aes128 (fun _ => 0) (fun _ => 0))) := by
  have hfresh : (machine .aes128).reply (.createSession 7)
      ((machine .aes128).run [.init, .createSession 0, .importKey 0 .aes128 [7] 0x03]
        (powerOn .aes128 (fun _ => 0) (fun _ => 0))) = .session .ok 2 := by decide +kernel
  refine (independent_commute .aes128 (fun _ => 0) (fun _ => 0) _
    (.encrypt 1 0 .aes128 ⟨0, 4⟩ ⟨8, 4⟩) (.createSession 7) (.inr rfl)
    (.inl (.createSession 7)) ⟨?_, ?_, ?_, ?_, ?_⟩).1
  · intro hboth
    cases hboth.1
  · intro slotId hboth
    cases hboth.2
  · intro sessionId input output hreq hconcerns
    cases hreq
    rw [Concerns, hfresh] at hconcerns
    exact absurd hconcerns (by decide)
  · intro sessionId input output hreq
    cases hreq
  · intro sessionId input output sessionId' input' output' hreq hreq'
    cases hreq'

end WiredHsm

end Ehsm
