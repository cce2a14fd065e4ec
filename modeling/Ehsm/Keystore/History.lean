import Ehsm.Keystore.Map
import Mathlib.Data.List.GetD

/-!
# What a slot answers, by its history

Read over a run, the map of `Ehsm.Keystore.Map` is the latest event of each
slot: the key it imported, or nothing.  This module states both what the slots
of a store answer and what is in them in those terms.

## Main results

* `KeystoreService.entry_mapOf` — an entry is what the latest event left.
* `KeystoreService.refines_map` — what every slot answers, by its latest event.
* `KeystoreService.no_residue` — no key byte outlives its key, no slot is torn.
-/

namespace Ehsm

open Reactive

namespace KeystoreService

/-! ## The latest event of a slot -/

/-- What a successful call means for a slot. -/
inductive SlotEvent where
  | imported (key : Import)
  | cleared
  deriving DecidableEq, Repr

/-- The entry an event leaves. -/
def SlotEvent.entry : SlotEvent → Option Import
  | .imported key => some key
  | .cleared => none

theorem bind_entry_eq_some_iff {last : Option SlotEvent} {key : Import} :
    last.bind SlotEvent.entry = some key ↔ last = some (.imported key) := by
  cases last with
  | none => simp
  | some event => cases event <;> simp [SlotEvent.entry]

/-- The event of a call for a slot, if it succeeded and concerns the slot.  An
`init` is none: a repeated one does nothing, and one that starts the store finds
every slot empty since construction or `deinit`. -/
def slotEvent (slotId : UInt8) : Op → Reply → Option SlotEvent
  | .importKey keySlotId algorithm keyData permissions, .status .ok =>
      if keySlotId = slotId then some (.imported ⟨algorithm, keyData, permissions⟩) else none
  | .deleteKey keySlotId, .status .ok => if keySlotId = slotId then some .cleared else none
  | .clearAll, .status .ok => some .cleared
  | .deinit, .status .ok => some .cleared
  | _, _ => none

/-- Only an `importKey` that succeeds is an import. -/
theorem slotEvent_eq_imported_iff {slotId : UInt8} {op : Op} {reply : Reply} {key : Import} :
    slotEvent slotId op reply = some (.imported key) ↔
      op = .importKey slotId key.algorithm key.keyData key.permissions ∧ reply = .status .ok := by
  constructor
  · intro h
    unfold slotEvent at h
    split at h
    · split at h
      · next hslot =>
          cases h
          rw [hslot]
          exact ⟨rfl, rfl⟩
      · contradiction
    · split at h <;> cases h
    · cases h
    · cases h
    · cases h
  · intro h
    obtain ⟨hop, hreply⟩ := h
    rw [hop, hreply]
    exact if_pos rfl

/-- Only a `deleteKey`, a `clearAll` or a `deinit` that succeeds is a clearing. -/
theorem of_slotEvent_eq_cleared {slotId : UInt8} {op : Op} {reply : Reply}
    (h : slotEvent slotId op reply = some .cleared) :
    (op = .deleteKey slotId ∨ op = .clearAll ∨ op = .deinit) ∧ reply = .status .ok := by
  unfold slotEvent at h
  split at h
  · split at h <;> cases h
  · split at h
    · next hslot =>
        rw [hslot]
        exact ⟨.inl rfl, rfl⟩
    · cases h
  · exact ⟨.inr (.inl rfl), rfl⟩
  · exact ⟨.inr (.inr rfl), rfl⟩
  · cases h

/-- One call of the map moves each entry as the call's event for it says. -/
theorem entry_next (op : Op) (st : Option KeyMap) (slotId : UInt8) :
    KeyMap.entry (KeyMap.machine.next op st) slotId =
      match slotEvent slotId op (KeyMap.machine.reply op st) with
      | some event => event.entry
      | none => KeyMap.entry st slotId := by
  simp only [KeyMap.machine, Machine.reply, Machine.next]
  cases st with
  | none => cases op <;> rfl
  | some m =>
      cases op with
      | init | deinit | clearAll | isSlotOccupied _ => rfl
      | importKey keySlotId algorithm keyData permissions =>
          simp only [KeyMap.step]
          by_cases hslot : IsValidSlotId keySlotId
          · rw [dif_pos hslot]
            by_cases hfits : Import.Fits ⟨algorithm, keyData, permissions⟩
            · rw [dif_pos hfits]
              cases hlookup : m.lookup keySlotId with
              | some key => rfl
              | none =>
                  by_cases hs : keySlotId = slotId
                  · subst hs
                    simp [slotEvent, SlotEvent.entry, KeyMap.entry, KeyMap.insert]
                  · simp [slotEvent, KeyMap.entry, KeyMap.insert, hs, Ne.symm hs]
            · rw [dif_neg hfits]
              rfl
          · rw [dif_neg hslot]
            rfl
      | deleteKey keySlotId =>
          simp only [KeyMap.step]
          by_cases hslot : IsValidSlotId keySlotId
          · rw [if_pos hslot]
            cases hlookup : m.lookup keySlotId with
            | none => rfl
            | some key =>
                by_cases hs : keySlotId = slotId
                · subst hs
                  simp [slotEvent, SlotEvent.entry, KeyMap.entry, KeyMap.erase]
                · simp [slotEvent, KeyMap.entry, KeyMap.erase, hs, Ne.symm hs]
          · rw [if_neg hslot]
            rfl
      | getKey keySlotId out =>
          simp only [KeyMap.step]
          cases m.lookup keySlotId <;> rfl
      | getSlotInfo keySlotId out =>
          simp only [KeyMap.step]
          by_cases hslot : IsValidSlotId keySlotId
          · rw [if_pos hslot]
            rfl
          · rw [if_neg hslot]
            rfl

/-- The entry of a slot is what its latest event left. -/
theorem entry_mapOf (accessCount : Fin kMaxKeySlots → UInt32) (ops : List Op) (slotId : UInt8) :
    KeyMap.entry (mapOf ops) slotId =
      (Machine.lastEvent (slotEvent slotId) (machine.trace ops (construct accessCount))).bind
        SlotEvent.entry := by
  have hrun := KeyMap.machine.run_lastEvent
    (R := fun st v => ∀ slotId, KeyMap.entry st slotId = (v slotId).bind SlotEvent.entry)
    slotEvent ?_ ops (s := none) (v := fun _ => none) (fun _ => rfl)
  · have htrace := simulates.trace_eq ops (represents_construct accessCount)
    simp only [Option.or_none] at hrun
    rw [htrace, mapOf, hrun slotId]
  · intro op st v h s
    dsimp only
    rw [entry_next]
    cases slotEvent s op (KeyMap.machine.reply op st) with
    | none => exact h s
    | some event => rfl

/-! ## What a slot answers -/

/-- Every answer of a slot that holds a key. -/
structure AnswersKey (ks : KeystoreService) (slotId : UInt8) (key : Import) : Prop where
  getKey : ∀ out, (ks.getKey slotId out).1 = .ok ∧ (ks.getKey slotId out).2.1 = keyOf (some key)
  getSlotInfo : ∀ out,
    (ks.getSlotInfo slotId out).1 = .ok ∧
      (ks.getSlotInfo slotId out).2.1 = infoOf slotId (some key)
  isSlotOccupied : ks.isSlotOccupied slotId = true
  importKey : ∀ algorithm keyData permissions,
    1 ≤ keyData.length → keyData.length ≤ kMaxKeySize →
      (ks.importKey slotId algorithm keyData permissions).1 = .errKeySlotFull
  deleteKey : (ks.deleteKey slotId).1 = .ok

/-- Every answer of a slot that is free. -/
structure AnswersFree (ks : KeystoreService) (slotId : UInt8) : Prop where
  getKey : ∀ out, ks.getKey slotId out = (.errInvalidKeyId, out, ks)
  getSlotInfo : ∀ out,
    (ks.getSlotInfo slotId out).1 = .ok ∧ (ks.getSlotInfo slotId out).2.1 = infoOf slotId none
  isSlotOccupied : ks.isSlotOccupied slotId = false
  importKey : ∀ algorithm keyData permissions,
    (ks.importKey slotId algorithm keyData permissions).1 = .ok ↔
      1 ≤ keyData.length ∧ keyData.length ≤ kMaxKeySize
  deleteKey : (ks.deleteKey slotId).1 = .errInvalidParam

theorem answersKey_of_holds {ks : KeystoreService} {m : KeyMap} (h : ks.Represents (some m))
    {slotId : UInt8} {key : Import} (hlookup : m.lookup slotId = some key) :
    ks.AnswersKey slotId key := by
  obtain ⟨hslot, -⟩ := m.valid slotId key hlookup
  constructor
  · intro out
    have hreply := (represents_getKey slotId out h).1
    simp only [machine, KeyMap.machine, Machine.reply, step, KeyMap.step, hlookup] at hreply
    exact Reply.key.inj hreply
  · intro out
    have hreply := (represents_getSlotInfo slotId out h).1
    simp only [machine, KeyMap.machine, Machine.reply, step, KeyMap.step, hlookup,
      if_pos hslot] at hreply
    exact Reply.info.inj hreply
  · rw [represents_isSlotOccupied slotId h, KeyMap.entry, Option.bind_some, hlookup]
    rfl
  · intro algorithm keyData permissions hpos hmax
    have hfits : Import.Fits ⟨algorithm, keyData, permissions⟩ := ⟨hpos, hmax⟩
    have hreply := (represents_importKey slotId algorithm keyData permissions h).1
    simp only [machine, KeyMap.machine, Machine.reply, step, KeyMap.step, dif_pos hslot,
      dif_pos hfits, hlookup] at hreply
    exact Reply.status.inj hreply
  · have hreply := (represents_deleteKey slotId h).1
    simp only [machine, KeyMap.machine, Machine.reply, step, KeyMap.step, if_pos hslot,
      hlookup] at hreply
    exact Reply.status.inj hreply

theorem answersFree_of_holds {ks : KeystoreService} {m : KeyMap} (h : ks.Represents (some m))
    {slotId : UInt8} (hslot : IsValidSlotId slotId) (hlookup : m.lookup slotId = none) :
    ks.AnswersFree slotId := by
  constructor
  · intro out
    have hoccupied := h.2.isOccupied hslot
    rw [hlookup] at hoccupied
    simp [KeystoreService.getKey, h.1, hslot, hoccupied]
  · intro out
    have hreply := (represents_getSlotInfo slotId out h).1
    simp only [machine, KeyMap.machine, Machine.reply, step, KeyMap.step, hlookup,
      if_pos hslot] at hreply
    exact Reply.info.inj hreply
  · rw [represents_isSlotOccupied slotId h, KeyMap.entry, Option.bind_some, hlookup]
    rfl
  · intro algorithm keyData permissions
    have hreply := (represents_importKey slotId algorithm keyData permissions h).1
    simp only [machine, KeyMap.machine, Machine.reply, step, KeyMap.step, dif_pos hslot]
      at hreply
    by_cases hfits : Import.Fits ⟨algorithm, keyData, permissions⟩
    · simp only [dif_pos hfits, hlookup] at hreply
      exact iff_of_true (Reply.status.inj hreply) hfits
    · simp only [dif_neg hfits] at hreply
      rw [Reply.status.inj hreply]
      exact iff_of_false (by decide) hfits
  · have hreply := (represents_deleteKey slotId h).1
    simp only [machine, KeyMap.machine, Machine.reply, step, KeyMap.step, if_pos hslot,
      hlookup] at hreply
    exact Reply.status.inj hreply

/--
**The key store is a partial map.**  After any calls that leave the store
initialised, a slot answers as holding the key that its latest event imported,
and as free if that event is none or a clearing.  Later calls without an event
for the slot (calls on other slots, failed calls, repeated `init`s, queries)
leave its record and its key as they are.
-/
theorem refines_map (accessCount : Fin kMaxKeySlots → UInt32) (ops : List Op) (slotId : UInt8)
    (hslot : IsValidSlotId slotId)
    (hinit : (machine.run ops (construct accessCount)).isInitialized = true) :
    let ks := machine.run ops (construct accessCount)
    let last := Machine.lastEvent (slotEvent slotId) (machine.trace ops (construct accessCount))
    (∀ key, last = some (.imported key) → ks.AnswersKey slotId key) ∧
      ((∀ key, last ≠ some (.imported key)) → ks.AnswersFree slotId) ∧
      ∀ later, (∀ x ∈ machine.trace later ks, slotEvent slotId x.1 x.2 = none) →
        ((machine.run later ks).keySlots (slotIndex slotId hslot)).info =
            (ks.keySlots (slotIndex slotId hslot)).info ∧
          ((machine.run later ks).keySlots (slotIndex slotId hslot)).key =
            (ks.keySlots (slotIndex slotId hslot)).key := by
  intro ks last
  have hrep : ks.Represents (mapOf ops) := represents_run accessCount ops
  have hentry : KeyMap.entry (mapOf ops) slotId = last.bind SlotEvent.entry :=
    entry_mapOf accessCount ops slotId
  obtain ⟨m, hm⟩ : ∃ m, mapOf ops = some m := by
    cases hmap : mapOf ops with
    | none =>
        rw [hmap] at hrep
        exact absurd (hrep.1.symm.trans hinit) (by decide)
    | some m => exact ⟨m, rfl⟩
  have hlookup : m.lookup slotId = last.bind SlotEvent.entry := by
    rw [← hentry, hm]
    rfl
  refine ⟨?_, ?_, ?_⟩
  · intro key hlast
    rw [hlast] at hlookup
    exact answersKey_of_holds (hm ▸ hrep) hlookup
  · intro hlast
    have hnone : last.bind SlotEvent.entry = none := by
      match hcase : last with
      | none => rfl
      | some .cleared => rfl
      | some (.imported key) => exact absurd rfl (hlast key)
    exact answersFree_of_holds (hm ▸ hrep) hslot (hlookup.trans hnone)
  · intro later hquiet
    have hlater : (machine.run later ks).Represents (mapOf (ops ++ later)) := by
      have h := represents_run accessCount (ops ++ later)
      rwa [Machine.run_append] at h
    have hsame : KeyMap.entry (mapOf (ops ++ later)) slotId = KeyMap.entry (mapOf ops) slotId := by
      rw [entry_mapOf accessCount, entry_mapOf accessCount, Machine.trace_append,
        Machine.lastEvent_append, Machine.lastEvent_eq_none hquiet, Option.none_or]
    rw [(hlater.slot hslot).1, (hlater.slot hslot).2, hsame]
    exact ⟨(hrep.slot hslot).1.symm, (hrep.slot hslot).2.symm⟩

/-- Two calls on a fresh store fill slot 3. -/
theorem refines_map_slot3 :
    (machine.run [.init, .importKey 3 .aes128 [1, 2] 3] (construct fun _ => 7)).AnswersKey 3
      ⟨.aes128, [1, 2], 3⟩ :=
  (refines_map (fun _ => 7) [.init, .importKey 3 .aes128 [1, 2] 3] 3 (by decide) rfl).1 _ rfl

/-! ## What is in the slots -/

/-- Nothing of a key is in the slot. -/
structure Blank (slot : KeySlotStorage) : Prop where
  data : ∀ j, slot.key.data j = 0
  size : slot.key.size = 0
  keyAlgorithm : slot.key.algorithm = .none
  permissions : slot.info.permissions = 0
  infoAlgorithm : slot.info.algorithm = .none
  keySize : slot.info.keySize = 0

/-- Record and key of slot `i` agree, and only the key's own bytes are set. -/
structure Whole (i : Fin kMaxKeySlots) (slot : KeySlotStorage) : Prop where
  id : slot.info.id.toNat = i
  pos : 1 ≤ slot.info.keySize
  size : slot.info.keySize = slot.key.size
  max : slot.key.size ≤ kMaxKeySize
  algorithm : slot.info.algorithm = slot.key.algorithm
  tail : ∀ j : Fin kMaxKeySize, slot.key.size ≤ j → slot.key.data j = 0

theorem blank_default (count : UInt32) : Blank { accessCount := count } :=
  ⟨fun _ => rfl, rfl, rfl, rfl, rfl, rfl⟩

theorem Represents.blank {ks : KeystoreService} {st : Option KeyMap} (h : ks.Represents st)
    {i : Fin kMaxKeySlots} (hfree : (ks.keySlots i).info.isOccupied = false) :
    Blank (ks.keySlots i) := by
  obtain ⟨slotId, hslot, rfl⟩ := exists_slotIndex i
  obtain ⟨hinfo, hkey⟩ := h.slot hslot
  rw [hinfo, infoOf_isOccupied, Option.isSome_eq_false_iff, Option.isNone_iff_eq_none] at hfree
  rw [hfree] at hinfo hkey
  constructor <;> simp [hinfo, hkey, infoOf, keyOf]

theorem Represents.whole {ks : KeystoreService} {st : Option KeyMap} (h : ks.Represents st)
    {i : Fin kMaxKeySlots} (hfull : (ks.keySlots i).info.isOccupied = true) :
    Whole i (ks.keySlots i) := by
  obtain ⟨slotId, hslot, rfl⟩ := exists_slotIndex i
  obtain ⟨hinfo, hkey⟩ := h.slot hslot
  obtain ⟨m, -, hentry⟩ := h.exists_holds
  rw [hinfo, infoOf_isOccupied, Option.isSome_iff_exists] at hfull
  obtain ⟨key, hsome⟩ := hfull
  obtain ⟨-, hpos, hmax⟩ := m.valid slotId key (by rw [hentry, hsome])
  rw [hsome] at hinfo hkey
  constructor
  · rw [hinfo]
    rfl
  · rw [hinfo]
    exact hpos
  · rw [hinfo, hkey]
    rfl
  · rw [hkey]
    exact hmax
  · rw [hinfo, hkey]
    rfl
  · intro j hj
    rw [hkey] at hj ⊢
    exact List.getD_eq_default _ _ hj

/-- Before `init` and after `deinit` no slot is occupied. -/
theorem Represents.free_of_not_initialized {ks : KeystoreService} {st : Option KeyMap}
    (h : ks.Represents st) (hinit : ks.isInitialized = false) (i : Fin kMaxKeySlots) :
    (ks.keySlots i).info.isOccupied = false := by
  obtain ⟨slotId, hslot, rfl⟩ := exists_slotIndex i
  cases st with
  | none => rw [(h.slot hslot).1, infoOf_isOccupied]; rfl
  | some m => exact absurd (hinit.symm.trans h.1) (by decide)

/--
**No residue and no torn slot.**  After any calls on a constructed store a free
slot holds nothing of a key, an occupied one is whole, and a store that is not
initialised has no occupied slot.  In particular a successful `deleteKey`,
`clearAll` or `deinit` leaves no byte of the keys it removes.
-/
theorem no_residue (accessCount : Fin kMaxKeySlots → UInt32) (ops : List Op) :
    let ks := machine.run ops (construct accessCount)
    (∀ i, (ks.keySlots i).info.isOccupied = false → Blank (ks.keySlots i)) ∧
      (∀ i, (ks.keySlots i).info.isOccupied = true → Whole i (ks.keySlots i)) ∧
      (ks.isInitialized = false → ∀ i, (ks.keySlots i).info.isOccupied = false) ∧
      (∀ slotId (h : IsValidSlotId slotId), (ks.deleteKey slotId).1 = .ok →
        Blank ((ks.deleteKey slotId).2.keySlots (slotIndex slotId h))) ∧
      (ks.clearAll.1 = .ok → ∀ i, Blank (ks.clearAll.2.keySlots i)) ∧
      (ks.deinit.1 = .ok → ∀ i, Blank (ks.deinit.2.keySlots i)) := by
  intro ks
  have hrep : ks.Represents (mapOf ops) := represents_run accessCount ops
  refine ⟨fun i => hrep.blank, fun i => hrep.whole, hrep.free_of_not_initialized, ?_, ?_, ?_⟩
  · intro slotId hslot hok
    rcases ks.deleteKey_cases slotId with ⟨hfail, -⟩ | ⟨_, _, hres⟩
    · exact absurd hok hfail
    · rw [hres, setSlot_self]
      exact blank_default 0
  · intro hok i
    cases hinit : ks.isInitialized with
    | false => simp [clearAll_of_not_initialized ks hinit] at hok
    | true =>
        rw [clearAll_of_initialized ks hinit]
        exact blank_default 0
  · intro hok i
    cases hinit : ks.isInitialized with
    | false => simp [deinit_of_not_initialized ks hinit] at hok
    | true =>
        rw [deinit_of_initialized ks hinit]
        exact blank_default 0

/-! ## The counters of free slots -/

/-- In an initialised store the counter of a free slot is zero. -/
def FreeUncounted (ks : KeystoreService) : Prop :=
  ks.isInitialized = true → ∀ i, (ks.keySlots i).info.isOccupied = false →
    (ks.keySlots i).accessCount = 0

theorem FreeUncounted.setSlot {ks : KeystoreService} (h : ks.FreeUncounted)
    (i : Fin kMaxKeySlots) {slot : KeySlotStorage}
    (hslot : slot.info.isOccupied = false → slot.accessCount = 0) :
    (ks.setSlot i slot).FreeUncounted := by
  intro hinit j hfree
  by_cases hj : j = i
  · subst hj
    rw [setSlot_self] at hfree ⊢
    exact hslot hfree
  · rw [setSlot_ne ks slot hj] at hfree ⊢
    exact h hinit j hfree

/-- Every call keeps the counters of free slots at zero: the only one that counts
is a read of a key that is there. -/
theorem freeUncounted_next (op : Op) (ks : KeystoreService) (h : ks.FreeUncounted) :
    (machine.next op ks).FreeUncounted := by
  cases op with
  | init =>
      show ks.init.2.FreeUncounted
      cases hinit : ks.isInitialized with
      | true => rwa [init_of_initialized ks hinit]
      | false =>
          rw [init_of_not_initialized ks hinit]
          exact fun _ _ _ => rfl
  | deinit =>
      show ks.deinit.2.FreeUncounted
      cases hinit : ks.isInitialized with
      | true =>
          rw [deinit_of_initialized ks hinit]
          exact fun _ _ _ => rfl
      | false => rwa [deinit_of_not_initialized ks hinit]
  | importKey slotId algorithm keyData permissions =>
      show (ks.importKey slotId algorithm keyData permissions).2.FreeUncounted
      rcases ks.importKey_cases slotId algorithm keyData permissions with
        ⟨-, hsame⟩ | ⟨hslot, -, hres⟩
      · rwa [hsame]
      · rw [hres]
        exact h.setSlot _ fun _ => rfl
  | deleteKey slotId =>
      show (ks.deleteKey slotId).2.FreeUncounted
      rcases ks.deleteKey_cases slotId with ⟨-, hsame⟩ | ⟨hslot, -, hres⟩
      · rwa [hsame]
      · rw [hres]
        exact h.setSlot _ fun _ => rfl
  | getKey slotId out =>
      show (ks.getKey slotId out).2.2.FreeUncounted
      unfold getKey
      split
      · exact h
      split
      · next hslot =>
          dsimp only
          split
          · exact h
          · next hoccupied =>
              apply h.setSlot
              intro hfree
              exact absurd hfree (by simpa [countAccess] using hoccupied)
      · exact h
  | getSlotInfo slotId out =>
      show (ks.getSlotInfo slotId out).2.2.FreeUncounted
      rwa [getSlotInfo_keeps]
  | clearAll =>
      show ks.clearAll.2.FreeUncounted
      cases hinit : ks.isInitialized with
      | true =>
          rw [clearAll_of_initialized ks hinit]
          exact fun _ _ _ => rfl
      | false => rwa [clearAll_of_not_initialized ks hinit]
  | isSlotOccupied slotId => exact h

end KeystoreService

end Ehsm
