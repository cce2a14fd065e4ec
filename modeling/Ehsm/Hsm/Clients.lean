import Ehsm.Hsm.Independence
import Ehsm.Reactive.Schedule

/-!
# Clients of one firmware

The firmware does not know who calls it.  Suppose nevertheless that several clients
share it and that everything a call names has an owner: slots, session ids and
bytes of memory belong to one client, or to nobody and are then shared.  A client
keeps to the rules if it changes only what it owns and uses only what it owns or
what is shared.  A shared session is closed by nobody, a shared key is used by
anybody and replaced by nobody, and shared memory is only read.  The sessions have been
opened beforehand: the counter for ids and the four entries are common to all, so
nobody opens a session, and nobody shuts down or clears all keys.

Then no client notices any other, although they share the session table, the access
counters of shared keys and the facade.  What makes this more than a matter of
disjoint data: two clients that use one shared key both write its counter, and any
two closings write the one table.

## Main results

* `WiredHsm.separates` — the calls of clients that keep to the rules commute.
* `WiredHsm.clients_isolated` — each client has the firmware to itself.
-/

namespace Ehsm

open Reactive

/-! ## Ownership -/

/-- Who owns what; `none` is what clients share. -/
structure Ownership (κ : Type*) where
  slot : UInt8 → Option κ
  session : SessionId → Option κ
  byte : Nat → Option κ

/-- The client may use what it owns or what is shared. -/
def Usable {κ ρ : Type*} (owner : ρ → Option κ) (c : κ) (r : ρ) : Prop :=
  owner r = some c ∨ owner r = none

/-- What one client owns is nothing another one can use. -/
theorem Usable.ne {κ ρ : Type*} {owner : ρ → Option κ} {c d : κ} {r r' : ρ}
    (h : Usable owner c r) (howned : owner r' = some d) (hcd : c ≠ d) : r ≠ r' := by
  rintro rfl
  rcases h with h | h
  · rw [h] at howned
    exact hcd (Option.some.inj howned)
  · rw [h] at howned
    cases howned

theorem Usable.of_owned {κ ρ : Type*} {owner : ρ → Option κ} {c : κ} {r : ρ}
    (h : owner r = some c) : Usable owner c r := .inl h

namespace Ownership

variable {κ : Type*}

/-- The buffers of a request of the client. -/
structure Buffers (own : Ownership κ) (c : κ) (input output : Span) : Prop where
  input : ∀ address, input.Contains address → Usable own.byte c address
  output : ∀ address, output.Contains address → own.byte address = some c

/-- The calls with which a client keeps to the rules.  Sessions have been opened
before, and nobody shuts down or wipes what all have. -/
def Permits (own : Ownership κ) (c : κ) : Event → Prop
  | .init | .isReady | .getVersion => True
  | .deinit | .createSession _ | .clearAllKeys => False
  | .closeSession sessionId => own.session sessionId = some c
  | .isSessionValid sessionId => Usable own.session c sessionId
  | .encrypt sessionId slotId _ input output | .decrypt sessionId slotId _ input output =>
      Usable own.session c sessionId ∧ Usable own.slot c slotId ∧ own.Buffers c input output
  | .importKey slotId _ _ _ | .deleteKey slotId => own.slot slotId = some c
  | .getKeySlotInfo slotId _ => Usable own.slot c slotId
  | .store address _ => own.byte address = some c

end Ownership

/-! ## Operations of the services that commute -/

namespace SessionManager

theorem closeSession_fields (sm : SessionManager) (sessionId : SessionId) :
    (sm.closeSession sessionId).2.isInitialized = sm.isInitialized ∧
      (sm.closeSession sessionId).2.nextSessionId = sm.nextSessionId ∧
      (sm.closeSession sessionId).2.sessions =
        if sm.isInitialized then
          (updateFirst (holds sessionId) closeEntry sm.sessions).getD sm.sessions
        else sm.sessions := by
  cases hinit : sm.isInitialized with
  | false =>
      rw [sm.closeSession_of_not_initialized sessionId hinit]
      exact ⟨hinit, rfl, rfl⟩
  | true =>
      unfold closeSession
      rw [if_neg (by simp [hinit]), if_pos rfl]
      split
      · next sessions hfound =>
          exact ⟨hinit, rfl, (congrArg (·.getD sm.sessions) hfound).symm⟩
      · next habsent => exact ⟨hinit, rfl, (congrArg (·.getD sm.sessions) habsent).symm⟩

/-- Closings of different sessions find different entries. -/
theorem closeSession_comm (sm : SessionManager) {a b : SessionId} (hab : a ≠ b) :
    ((sm.closeSession a).2.closeSession b).2 = ((sm.closeSession b).2.closeSession a).2 := by
  obtain ⟨hflagA, hnextA, htableA⟩ := sm.closeSession_fields a
  obtain ⟨hflagB, hnextB, htableB⟩ := sm.closeSession_fields b
  obtain ⟨hflagAB, hnextAB, htableAB⟩ := (sm.closeSession a).2.closeSession_fields b
  obtain ⟨hflagBA, hnextBA, htableBA⟩ := (sm.closeSession b).2.closeSession_fields a
  have htables : ((sm.closeSession a).2.closeSession b).2.sessions =
      ((sm.closeSession b).2.closeSession a).2.sessions := by
    rw [htableAB, htableBA, hflagA, hflagB, htableA, htableB]
    cases sm.isInitialized with
    | false => rfl
    | true =>
        simp only [if_true]
        apply updateFirst_comm
        · intro session hholds
          have hid := (holds_iff.mp hholds).1
          simp [holds, hid, hab]
        · exact fun session _ => by simp [holds, closeEntry]
        · exact fun session _ => by simp [holds, closeEntry]
  have hfields : ∀ {x y : SessionManager}, x.sessions = y.sessions →
      x.isInitialized = y.isInitialized → x.nextSessionId = y.nextSessionId → x = y := by
    intro x y hsessions hflag hnext
    obtain ⟨_, _, _, _⟩ := x
    obtain ⟨_, _, _, _⟩ := y
    obtain rfl := hsessions
    obtain rfl := hflag
    obtain rfl := hnext
    rfl
  exact hfields htables (by rw [hflagAB, hflagBA, hflagA, hflagB])
    (by rw [hnextAB, hnextBA, hnextA, hnextB])

/-- On a manager that is up the validity of the id decides how a closing ends. -/
theorem closeSession_status {sm : SessionManager} (h : sm.isInitialized = true)
    (sessionId : SessionId) :
    (sm.closeSession sessionId).1 =
      if sm.isSessionValid sessionId then .ok else .errSessionInvalid := by
  have hiff := sm.closeSession_ok_iff sessionId
  rcases sm.closeSession_cases sessionId h with ⟨-, hres⟩ | ⟨_, _, _, _, _, _, _, hres, _⟩
  · rw [hres] at hiff ⊢
    have hinvalid : ¬ sm.isSessionValid sessionId = true :=
      fun hvalid => absurd (hiff.mpr hvalid) (by simp)
    rw [if_neg hinvalid]
  · rw [hres] at hiff ⊢
    rw [if_pos (hiff.mp rfl)]

end SessionManager

namespace KeystoreService

theorem eq_of_slots {ks ks' : KeystoreService} (hflag : ks.isInitialized = ks'.isInitialized)
    (hslots : ∀ i, ks.keySlots i = ks'.keySlots i) : ks = ks' := by
  obtain ⟨keySlots, isInitialized⟩ := ks
  obtain ⟨keySlots', isInitialized'⟩ := ks'
  obtain rfl : keySlots = keySlots' := funext hslots
  obtain rfl : isInitialized = isInitialized' := hflag
  rfl

theorem getKey_actsOnSlot (slotId : UInt8) :
    ActsOnSlot slotId fun ks => ((), (ks.getKey slotId {}).2.2) :=
  .of_pair (fun ks => (ks.getKey_frame slotId {}).toOneSlot)
    fun _ _ h => ⟨rfl, getKey_effect h {}⟩

/-- A store is not changed, as far as a slot goes, by an operation on another one. -/
theorem ActsOnSlot.sameSlot {ρ : Type*} {a b : UInt8} {call : KeystoreService → ρ × KeystoreService}
    (h : ActsOnSlot b call) (hab : a ≠ b) (ks : KeystoreService) : SameSlot a (call ks).2 ks := by
  refine ⟨(h.frame ks).isInitialized, ?_⟩
  intro hslot
  exact (h.frame ks).others _ fun hval => hab (UInt8.toNat_inj.mp hval)

/-- Operations on different slots commute. -/
theorem ActsOnSlot.comm {ρ π : Type*} {a b : UInt8} {call : KeystoreService → ρ × KeystoreService}
    {call' : KeystoreService → π × KeystoreService} (ha : ActsOnSlot a call)
    (hb : ActsOnSlot b call') (hab : a ≠ b) (ks : KeystoreService) :
    (call' (call ks).2).2 = (call (call' ks).2).2 := by
  have hframeA := ha.frame ks
  have hframeB := hb.frame ks
  have hframeBA := hb.frame (call ks).2
  have hframeAB := ha.frame (call' ks).2
  apply eq_of_slots
  · rw [hframeBA.isInitialized, hframeA.isInitialized, hframeAB.isInitialized,
      hframeB.isInitialized]
  · intro i
    by_cases hia : i.val = a.toNat
    · have hib : i.val ≠ b.toNat := fun hib => hab (UInt8.toNat_inj.mp (hia.symm.trans hib))
      obtain ⟨hslot, rfl⟩ := eq_slotIndex hia
      rw [hframeBA.others _ hib]
      exact ((ha.effect _ _ (hb.sameSlot hab ks)).slot hslot).symm
    · rw [hframeAB.others i hia]
      by_cases hib : i.val = b.toNat
      · obtain ⟨hslot, rfl⟩ := eq_slotIndex hib
        exact (hb.effect _ _ (ha.sameSlot hab.symm ks)).slot hslot
      · rw [hframeBA.others i hib, hframeA.others i hia, hframeB.others i hib]

end KeystoreService

/-- The cipher loop writes the output and reads both buffers. -/
theorem xorLoop_actsOn {input output : Span} (h : ¬ BadBuffers input output) :
    ActsOn {address | input.Contains address ∨ output.Contains address}
      {address | output.Contains address} (xorLoop input output input.size) :=
  ⟨fun mem _ hout => xorLoop_outside h hout mem, fun _ _ hsame _ hout => xorLoop_congr hsame hout⟩

namespace WiredHsm

variable {strategy : Strategy}

/-! ## What a call changes and what it looks at -/

/-- The services, the facade and the memory. -/
inductive Part where
  | facade
  | sessions
  | keystore
  | memory

abbrev Part.Value (strategy : Strategy) : Part → Type
  | .facade => HsmApiImpl (World.services strategy)
  | .sessions => SessionManager
  | .keystore => KeystoreService
  | .memory => Memory

def Part.get : (part : Part) → WiredHsm strategy → part.Value strategy
  | .facade, hsm => hsm.api
  | .sessions, hsm => hsm.world.sessions
  | .keystore, hsm => hsm.world.keystore
  | .memory, hsm => hsm.memory

theorem eq_of_parts {hsm hsm' : WiredHsm strategy}
    (h : ∀ part : Part, part.get hsm = part.get hsm') : hsm = hsm' := by
  obtain ⟨api, memory, ⟨sessions, keystore⟩⟩ := hsm
  obtain ⟨api', memory', ⟨sessions', keystore'⟩⟩ := hsm'
  obtain rfl : api = api' := h .facade
  obtain rfl : sessions = sessions' := h .sessions
  obtain rfl : keystore = keystore' := h .keystore
  obtain rfl : memory = memory' := h .memory
  rfl

/-- What a request does to a part, given the decision on it. -/
def requestUpdate (granted : Prop) [Decidable granted] (slotId : UInt8) (input output : Span) :
    (part : Part) → part.Value strategy → part.Value strategy
  | .keystore, ks => if granted then (ks.getKey slotId {}).2.2 else ks
  | .memory, mem => if granted then xorLoop input output input.size mem else mem
  | .facade, api => api
  | .sessions, sm => sm

/-- What a call of a client does to a part. -/
def update : Event → WiredHsm strategy → (part : Part) → part.Value strategy → part.Value strategy
  | .encrypt sessionId slotId _ input output, hsm, part, x =>
      requestUpdate (decision .encrypt sessionId slotId input output hsm = .ok) slotId input output
        part x
  | .decrypt sessionId slotId _ input output, hsm, part, x =>
      requestUpdate (decision .decrypt sessionId slotId input output hsm = .ok) slotId input output
        part x
  | .closeSession sessionId, _, .sessions, sm => (sm.closeSession sessionId).2
  | .importKey slotId algorithm keyData permissions, _, .keystore, ks =>
      (ks.importKey slotId algorithm keyData permissions).2
  | .deleteKey slotId, _, .keystore, ks => (ks.deleteKey slotId).2
  | .store address byte, _, .memory, mem => mem.write address byte
  | _, _, _, x => x

/-- The states answer what the call looks at alike. -/
def SameTo : Event → WiredHsm strategy → WiredHsm strategy → Prop
  | .closeSession sessionId, hsm, hsm' | .isSessionValid sessionId, hsm, hsm' =>
      hsm.world.sessions.isSessionValid sessionId = hsm'.world.sessions.isSessionValid sessionId
  | .encrypt sessionId slotId _ input output, hsm, hsm' =>
      decision .encrypt sessionId slotId input output hsm =
        decision .encrypt sessionId slotId input output hsm'
  | .decrypt sessionId slotId _ input output, hsm, hsm' =>
      decision .decrypt sessionId slotId input output hsm =
        decision .decrypt sessionId slotId input output hsm'
  | .importKey slotId _ _ _, hsm, hsm' | .deleteKey slotId, hsm, hsm' =>
      KeystoreService.SameSlot slotId hsm.world.keystore hsm'.world.keystore
  | .getKeySlotInfo slotId info, hsm, hsm' =>
      (hsm.world.keystore.getSlotInfo slotId info).1 =
          (hsm'.world.keystore.getSlotInfo slotId info).1 ∧
        (hsm.world.keystore.getSlotInfo slotId info).2.1 =
          (hsm'.world.keystore.getSlotInfo slotId info).2.1
  | _, _, _ => True

/-- The firmware is sound and up. -/
def Serving (hsm : WiredHsm strategy) : Prop := (∃ map, Sound hsm map) ∧ hsm.api.isReady = true

section

variable {κ : Type*} {own : Ownership κ} {c d : κ} {hsm : WiredHsm strategy} {event : Event}

/-- A client that keeps to the rules does not shut the firmware down. -/
theorem Serving.next (h : Serving hsm) (hpermits : own.Permits c event) :
    Serving ((machine strategy).next event hsm) := by
  obtain ⟨⟨map, hsound⟩, hready⟩ := h
  refine ⟨⟨_, hsound.next event⟩, ?_⟩
  rw [hsound.next_eq_direct]
  cases event with
  | deinit | createSession _ | clearAllKeys => exact absurd hpermits not_false
  | init =>
      rw [direct, if_pos hready]
      exact hready
  | encrypt _ _ _ _ _ | decrypt _ _ _ _ _ =>
      simp only [direct, directCrypt]
      split <;> exact hready
  | isReady | closeSession _ | isSessionValid _ | importKey _ _ _ _ | deleteKey _
  | getKeySlotInfo _ _ | getVersion | store _ _ => exact hready

/-- **What each call of a client does.** -/
theorem updates (hpermits : own.Permits c event) :
    Machine.Updates (machine strategy) Serving Part.get event (update event) (SameTo event) := by
  constructor
  · rintro hsm ⟨⟨map, hsound⟩, hready⟩ part
    rw [hsound.next_eq_direct]
    cases event with
    | deinit | createSession _ | clearAllKeys => exact absurd hpermits not_false
    | init =>
        rw [direct, if_pos hready]
        cases part <;> rfl
    | encrypt _ _ _ _ _ | decrypt _ _ _ _ _ =>
        simp only [direct, directCrypt, update]
        split <;> cases part <;> simp [requestUpdate, Part.get, *]
    | isReady | closeSession _ | isSessionValid _ | importKey _ _ _ _ | deleteKey _
    | getKeySlotInfo _ _ | getVersion | store _ _ => cases part <;> rfl
  · rintro hsm hsm' ⟨⟨map, hsound⟩, hready⟩ ⟨⟨map', hsound'⟩, hready'⟩ hsame
    rw [hsound.reply_eq_direct, hsound'.reply_eq_direct]
    cases event with
    | deinit | createSession _ | clearAllKeys => exact absurd hpermits not_false
    | init | getVersion | store _ _ => rfl
    | isReady => exact congrArg Answer.truth (hready.trans hready'.symm)
    | closeSession sessionId =>
        obtain ⟨-, hflag, -⟩ := hsound.flag true hready
        obtain ⟨-, hflag', -⟩ := hsound'.flag true hready'
        rw [SameTo] at hsame
        simp only [direct, SessionManager.closeSession_status hflag,
          SessionManager.closeSession_status hflag', hsame]
    | isSessionValid sessionId => exact congrArg Answer.truth hsame
    | encrypt _ _ _ _ _ | decrypt _ _ _ _ _ => exact congrArg Answer.status hsame
    | importKey slotId algorithm keyData permissions =>
        exact congrArg Answer.status
          ((KeystoreService.importKey_actsOnSlot slotId algorithm keyData permissions).answer _ _
            hsame)
    | deleteKey slotId =>
        exact congrArg Answer.status ((KeystoreService.deleteKey_actsOnSlot slotId).answer _ _ hsame)
    | getKeySlotInfo slotId info =>
        obtain ⟨hstatus, hinfo⟩ := hsame
        simp only [direct, hstatus, hinfo]
  · intro hsm hsm' hsame
    funext part x
    cases event with
    | encrypt _ _ _ _ _ | decrypt _ _ _ _ _ =>
        rw [SameTo] at hsame
        simp only [update, hsame]
    | init | deinit | isReady | createSession _ | closeSession _ | isSessionValid _
    | importKey _ _ _ _ | deleteKey _ | getKeySlotInfo _ _ | clearAllKeys | getVersion
    | store _ _ => cases part <;> rfl

/-! ## The updates of different clients commute -/

theorem update_facade (event : Event) (hsm : WiredHsm strategy)
    (api : HsmApiImpl (World.services strategy)) : update event hsm .facade api = api := by
  cases event <;> rfl

/-- The session table: a client closes its own sessions. -/
theorem update_sessions (hpermits : own.Permits c event) (hsm : WiredHsm strategy) :
    (∀ sm, update event hsm .sessions sm = sm) ∨
      ∃ sessionId, own.session sessionId = some c ∧
        ∀ sm, update event hsm .sessions sm = (sm.closeSession sessionId).2 := by
  cases event with
  | closeSession sessionId => exact .inr ⟨sessionId, hpermits, fun _ => rfl⟩
  | init | deinit | isReady | createSession _ | isSessionValid _ | encrypt _ _ _ _ _
  | decrypt _ _ _ _ _ | importKey _ _ _ _ | deleteKey _ | getKeySlotInfo _ _ | clearAllKeys
  | getVersion | store _ _ => exact .inl fun _ => rfl

/-- The key store: a client uses slots, and changes its own. -/
theorem update_keystore (hpermits : own.Permits c event) (hsm : WiredHsm strategy) :
    (∀ ks, update event hsm .keystore ks = ks) ∨
      (∃ slotId, Usable own.slot c slotId ∧
        ∀ ks, update event hsm .keystore ks = (ks.getKey slotId {}).2.2) ∨
      ∃ slotId, ∃ call : KeystoreService → Status × KeystoreService,
        own.slot slotId = some c ∧ KeystoreService.ActsOnSlot slotId call ∧
          ∀ ks, update event hsm .keystore ks = (call ks).2 := by
  cases event with
  | encrypt sessionId slotId _ input output | decrypt sessionId slotId _ input output =>
      obtain ⟨-, hslot, -⟩ := hpermits
      simp only [update, requestUpdate]
      split
      · exact .inr (.inl ⟨slotId, hslot, fun _ => rfl⟩)
      · exact .inl fun _ => rfl
  | importKey slotId algorithm keyData permissions =>
      exact .inr (.inr ⟨slotId, _, hpermits,
        KeystoreService.importKey_actsOnSlot slotId algorithm keyData permissions, fun _ => rfl⟩)
  | deleteKey slotId =>
      exact .inr (.inr ⟨slotId, _, hpermits, KeystoreService.deleteKey_actsOnSlot slotId,
        fun _ => rfl⟩)
  | init | deinit | isReady | createSession _ | closeSession _ | isSessionValid _
  | getKeySlotInfo _ _ | clearAllKeys | getVersion | store _ _ => exact .inl fun _ => rfl

/-- The memory: a client writes what it owns, and reads what it may use. -/
theorem update_memory (hpermits : own.Permits c event) (hsm : WiredHsm strategy) :
    ∃ reads writes : Set Nat, (∀ address ∈ reads, Usable own.byte c address) ∧
      (∀ address ∈ writes, own.byte address = some c) ∧
        ActsOn reads writes (update event hsm .memory) := by
  have hnone : ∃ reads writes : Set Nat, (∀ address ∈ reads, Usable own.byte c address) ∧
      (∀ address ∈ writes, own.byte address = some c) ∧
        ActsOn reads writes fun mem : Memory => mem :=
    ⟨∅, ∅, fun _ h => absurd h (Set.notMem_empty _), fun _ h => absurd h (Set.notMem_empty _),
      actsOn_id⟩
  have hrequest : ∀ {input output : Span} (granted : Prop) [Decidable granted],
      own.Buffers c input output → (granted → ¬ BadBuffers input output) →
        ∃ reads writes : Set Nat, (∀ address ∈ reads, Usable own.byte c address) ∧
          (∀ address ∈ writes, own.byte address = some c) ∧
            ActsOn reads writes fun mem =>
              if granted then xorLoop input output input.size mem else mem := by
    intro input output granted _ hbuffers hgood
    by_cases hgranted : granted
    · simp only [if_pos hgranted]
      refine ⟨_, _, ?_, hbuffers.output, xorLoop_actsOn (hgood hgranted)⟩
      rintro address (hin | hout)
      · exact hbuffers.input address hin
      · exact .of_owned (hbuffers.output address hout)
    · simp only [if_neg hgranted]
      exact hnone
  cases event with
  | encrypt sessionId slotId _ input output | decrypt sessionId slotId _ input output =>
      exact hrequest _ hpermits.2.2 fun hok => (decision_eq_ok_iff.mp hok).2.1
  | store address byte =>
      refine ⟨∅, {address}, fun _ h => absurd h (Set.notMem_empty _), ?_, actsOn_update address byte⟩
      rintro _ rfl
      exact hpermits
  | init | deinit | isReady | createSession _ | closeSession _ | isSessionValid _
  | importKey _ _ _ _ | deleteKey _ | getKeySlotInfo _ _ | clearAllKeys | getVersion => exact hnone

/-- The updates of different clients commute. -/
theorem update_comm (hcd : c ≠ d) {a b : Event} (ha : own.Permits c a) (hb : own.Permits d b)
    (hsm hsm' : WiredHsm strategy) (part : Part) (x : part.Value strategy) :
    update b hsm part (update a hsm' part x) = update a hsm' part (update b hsm part x) := by
  cases part with
  | facade => simp only [update_facade]
  | sessions =>
      rcases update_sessions ha hsm' with hA | ⟨closed, hownA, hA⟩
      · rw [hA, hA]
      · rcases update_sessions hb hsm with hB | ⟨closed', hownB, hB⟩
        · rw [hB, hB]
        · have hne : closed ≠ closed' := (Usable.of_owned hownA).ne hownB hcd
          rw [hA, hB, hB, hA, x.closeSession_comm hne]
  | keystore =>
      rcases update_keystore ha hsm' with hA | ⟨slotA, huseA, hA⟩ | ⟨slotA, callA, hownA, hactA, hA⟩
      · rw [hA, hA]
      · rcases update_keystore hb hsm with hB | ⟨slotB, huseB, hB⟩ | ⟨slotB, callB, hownB, hactB, hB⟩
        · rw [hB, hB]
        · rw [hA, hB, hB, hA]
          by_cases hslots : slotA = slotB
          · -- both count an access to one key
            rw [hslots]
          · exact (KeystoreService.getKey_actsOnSlot slotA).comm
              (KeystoreService.getKey_actsOnSlot slotB) hslots x
        · have hne : slotA ≠ slotB := huseA.ne hownB hcd
          rw [hA, hB, hB, hA]
          exact (KeystoreService.getKey_actsOnSlot slotA).comm hactB hne x
      · rcases update_keystore hb hsm with hB | ⟨slotB, huseB, hB⟩ | ⟨slotB, callB, hownB, hactB, hB⟩
        · rw [hB, hB]
        · have hne : slotB ≠ slotA := huseB.ne hownA hcd.symm
          rw [hA, hB, hB, hA]
          exact hactA.comm (KeystoreService.getKey_actsOnSlot slotB) hne.symm x
        · have hne : slotA ≠ slotB := (Usable.of_owned hownA).ne hownB hcd
          rw [hA, hB, hB, hA]
          exact hactA.comm hactB hne x
  | memory =>
      obtain ⟨readsA, writesA, hreadsA, hwritesA, hactA⟩ := update_memory ha hsm'
      obtain ⟨readsB, writesB, hreadsB, hwritesB, hactB⟩ := update_memory hb hsm
      apply hactA.comm hactB
      · intro address hA hB
        exact (Usable.of_owned (hwritesA address hA)).ne (hwritesB address hB) hcd rfl
      · intro address hA hB
        exact (hreadsA address hA).ne (hwritesB address hB) hcd rfl
      · intro address hB hA
        exact (hreadsB address hB).ne (hwritesA address hA) hcd.symm rfl

/-! ## Clients do not notice each other -/

section Unnoticed

variable {b : Event} (hserving : Serving hsm) (hcd : c ≠ d) (hb : own.Permits d b)

include hserving hcd hb

/-- Another client does not close the sessions a client may use. -/
theorem active_next {sessionId : SessionId} (h : Usable own.session c sessionId) :
    ((machine strategy).next b hsm).world.sessions.isSessionValid sessionId =
      hsm.world.sessions.isSessionValid sessionId := by
  have heffect : ((machine strategy).next b hsm).world.sessions =
      update b hsm .sessions hsm.world.sessions := (updates hb).effect hsm hserving .sessions
  rw [heffect]
  rcases update_sessions hb hsm with hB | ⟨closed, hownB, hB⟩
  · rw [hB]
  · rw [hB]
    exact SessionManager.isSessionValid_closeSession _ (h.ne hownB hcd).symm

/-- Another client does not touch the slots a client owns. -/
theorem slot_next {slotId : UInt8} (h : own.slot slotId = some c) :
    KeystoreService.SameSlot slotId ((machine strategy).next b hsm).world.keystore
      hsm.world.keystore := by
  have heffect : ((machine strategy).next b hsm).world.keystore =
      update b hsm .keystore hsm.world.keystore := (updates hb).effect hsm hserving .keystore
  rw [heffect]
  rcases update_keystore hb hsm with hB | ⟨slotB, huseB, hB⟩ | ⟨slotB, callB, hownB, hactB, hB⟩
  · rw [hB]
    exact ⟨rfl, fun _ => rfl⟩
  · rw [hB]
    exact (KeystoreService.getKey_actsOnSlot slotB).sameSlot (huseB.ne h hcd.symm).symm _
  · rw [hB]
    exact hactB.sameSlot ((Usable.of_owned h).ne hownB hcd) _

/-- Of the slots that are shared it changes the counters at most. -/
theorem info_next {slotId : UInt8} (h : Usable own.slot c slotId) :
    ((machine strategy).next b hsm).world.keystore.isInitialized =
        hsm.world.keystore.isInitialized ∧
      ∀ hslot : IsValidSlotId slotId,
        (((machine strategy).next b hsm).world.keystore.keySlots (slotIndex slotId hslot)).info =
          (hsm.world.keystore.keySlots (slotIndex slotId hslot)).info := by
  have heffect : ((machine strategy).next b hsm).world.keystore =
      update b hsm .keystore hsm.world.keystore := (updates hb).effect hsm hserving .keystore
  rw [heffect]
  rcases update_keystore hb hsm with hB | ⟨slotB, -, hB⟩ | ⟨slotB, callB, hownB, hactB, hB⟩
  · rw [hB]
    exact ⟨rfl, fun _ => rfl⟩
  · rw [hB]
    have hcount := hsm.world.keystore.getKey_frame slotB {}
    exact ⟨hcount.isInitialized, fun hslot => hcount.info _⟩
  · rw [hB]
    have hsame := hactB.sameSlot (h.ne hownB hcd) hsm.world.keystore
    exact ⟨hsame.isInitialized, fun hslot => congrArg (·.info) (hsame.slot hslot)⟩

theorem decision_next (required : KeyPermission) {sessionId : SessionId} {slotId : UInt8}
    (hsession : Usable own.session c sessionId) (hslot : Usable own.slot c slotId)
    (input output : Span) :
    decision required sessionId slotId input output ((machine strategy).next b hsm) =
      decision required sessionId slotId input output hsm := by
  have hfacade : ((machine strategy).next b hsm).api = hsm.api :=
    ((updates hb).effect hsm hserving .facade).trans (update_facade b hsm hsm.api)
  have hinfo := (info_next hserving hcd hb hslot).2
  have hgrants : grants ((machine strategy).next b hsm).world.keystore slotId required =
      grants hsm.world.keystore slotId required := by
    unfold grants
    split
    · next hvalid => rw [hinfo hvalid]
    · rfl
  rw [decision, decision, hfacade, active_next hserving hcd hb hsession, hgrants]

/-- **A client does not notice what another one does.** -/
theorem sameTo_next {a : Event} (ha : own.Permits c a) :
    SameTo a ((machine strategy).next b hsm) hsm := by
  cases a with
  | deinit | createSession _ | clearAllKeys => exact absurd ha not_false
  | init | isReady | getVersion | store _ _ => trivial
  | closeSession sessionId => exact active_next hserving hcd hb (.of_owned ha)
  | isSessionValid sessionId => exact active_next hserving hcd hb ha
  | encrypt sessionId slotId _ input output | decrypt sessionId slotId _ input output =>
      obtain ⟨hsession, hslot, -⟩ := ha
      exact decision_next hserving hcd hb _ hsession hslot input output
  | importKey slotId _ _ _ | deleteKey slotId => exact slot_next hserving hcd hb ha
  | getKeySlotInfo slotId info =>
      obtain ⟨hflag, hinfo⟩ := info_next hserving hcd hb ha
      rw [SameTo]
      unfold KeystoreService.getSlotInfo
      rw [hflag]
      split
      · exact ⟨rfl, rfl⟩
      split
      · next hvalid => exact ⟨rfl, hinfo hvalid⟩
      · exact ⟨rfl, rfl⟩

end Unnoticed

/-- **Clients that keep to the rules are separate.** -/
theorem separates (strategy : Strategy) (own : Ownership κ) :
    Machine.Separates (machine strategy) Serving own.Permits := by
  constructor
  · exact fun c event hsm hpermits hserving => hserving.next hpermits
  · intro c d a b hsm hcd ha hb hserving
    exact (updates ha).commuteAt (updates hb) (fun _ _ => eq_of_parts) hserving
      (hserving.next ha) (hserving.next hb) (sameTo_next hserving hcd hb ha)
      (sameTo_next hserving hcd.symm ha hb) fun part => update_comm hcd ha hb hsm hsm part _

/-- Another client does not write the bytes a client owns. -/
theorem byte_next {a : Event} {address : Nat} (h : own.byte address = some c) (hdc : d ≠ c)
    (ha : own.Permits d a) (hserving : Serving hsm) :
    ((machine strategy).next a hsm).memory address = hsm.memory address := by
  have heffect : ((machine strategy).next a hsm).memory = update a hsm .memory hsm.memory :=
    (updates ha).effect hsm hserving .memory
  obtain ⟨_, writes, _, hwrites, hact⟩ := update_memory ha hsm
  rw [heffect]
  apply hact.frame
  intro hmem
  exact (Usable.of_owned h).ne (hwrites address hmem) hdc.symm rfl

end

/--
**Each client has the firmware to itself.**  Let clients share a firmware, with
either strategy and from any reachable state that is up, and keep to the rules: they
work in sessions that were opened before, none of them opens a session, shuts down or
clears all keys, and each changes only what it owns and uses only what it owns or what
is shared.  However their calls interleave, each client gets the answers it would get
alone and finds in its own memory what it would find alone; and any other interleaving
of the same calls leads to the same state.
-/
theorem clients_isolated {κ : Type*} [DecidableEq κ] (strategy : Strategy)
    (accessCount : Fin kMaxKeySlots → UInt32) (mem : Memory) (events : List Event)
    (own : Ownership κ) (schedule : List (κ × Event))
    (hrules : ∀ x ∈ schedule, own.Permits x.1 x.2)
    (hready : ((machine strategy).run events
      (powerOn strategy accessCount mem)).api.isReady = true) :
    let hsm := (machine strategy).run events (powerOn strategy accessCount mem)
    (∀ c, Machine.repliesTo (machine strategy) c schedule hsm =
        (machine strategy).replies (Machine.callsOf c schedule) hsm) ∧
      (∀ c address, own.byte address = some c →
        ((machine strategy).run (schedule.map Prod.snd) hsm).memory address =
          ((machine strategy).run (Machine.callsOf c schedule) hsm).memory address) ∧
      ∀ schedule' : List (κ × Event),
        (∀ c, Machine.callsOf c schedule' = Machine.callsOf c schedule) →
          (machine strategy).run (schedule'.map Prod.snd) hsm =
            (machine strategy).run (schedule.map Prod.snd) hsm := by
  intro hsm
  obtain ⟨map, hsound, -⟩ := sound_run strategy accessCount mem events
  have hserving : Serving hsm := ⟨⟨map, hsound⟩, hready⟩
  have hseparates := separates strategy own
  refine ⟨?_, ?_, ?_⟩
  · exact fun c => hseparates.repliesTo_eq c hrules hserving
  · intro c address howned
    apply hseparates.view_eq c (fun hsm => hsm.memory address) _ hrules hserving
    intro d event hsm hdc hpermits hserving
    exact byte_next howned hdc hpermits hserving
  · exact fun schedule' hsame => hseparates.run_eq_of_callsOf hrules hsame hserving

/-- Two clients with a session each use one shared key in turns. -/
theorem clients_isolated_shared_key :
    Machine.repliesTo (machine .aes256) false
        [(false, .encrypt 1 0 .aes256 ⟨0, 4⟩ ⟨0, 4⟩), (true, .encrypt 2 0 .aes256 ⟨8, 4⟩ ⟨8, 4⟩),
          (true, .closeSession 2), (false, .decrypt 1 0 .aes256 ⟨0, 4⟩ ⟨0, 4⟩)]
        ((machine .aes256).run
          [.init, .createSession 0, .createSession 0, .importKey 0 .aes256 [7] 0x03]
          (powerOn .aes256 (fun _ => 0) (fun _ => 0))) =
      (machine .aes256).replies
        [.encrypt 1 0 .aes256 ⟨0, 4⟩ ⟨0, 4⟩, .decrypt 1 0 .aes256 ⟨0, 4⟩ ⟨0, 4⟩]
        ((machine .aes256).run
          [.init, .createSession 0, .createSession 0, .importKey 0 .aes256 [7] 0x03]
          (powerOn .aes256 (fun _ => 0) (fun _ => 0))) := by
  refine (clients_isolated .aes256 (fun _ => 0) (fun _ => 0) _
    { slot := fun _ => none, session := fun sessionId => some (sessionId == 2),
      byte := fun address => some (decide (8 ≤ address)) } _ ?_ (by decide +kernel)).1 false
  intro x hx
  have hbuffers : ∀ (start : Nat) (c : Bool), (∀ address, start ≤ address → address < start + 4 →
      decide (8 ≤ address) = c) → ∀ address, (Span.mk start 4).Contains address →
        some (decide (8 ≤ address)) = some c := by
    intro start c hbytes address hin
    rw [hbytes address hin.1 hin.2]
  simp only [List.mem_cons, List.not_mem_nil, or_false] at hx
  rcases hx with rfl | rfl | rfl | rfl
  · exact ⟨.inl rfl, .inr rfl, fun a h => .inl (hbuffers 0 false (by simp; omega) a h),
      hbuffers 0 false (by simp; omega)⟩
  · exact ⟨.inl rfl, .inr rfl, fun a h => .inl (hbuffers 8 true (by simp; omega) a h),
      hbuffers 8 true (by simp; omega)⟩
  · exact rfl
  · exact ⟨.inl rfl, .inr rfl, fun a h => .inl (hbuffers 0 false (by simp; omega) a h),
      hbuffers 0 false (by simp; omega)⟩

end WiredHsm

end Ehsm
