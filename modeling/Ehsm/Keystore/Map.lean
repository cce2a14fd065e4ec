import Ehsm.Keystore.Service

/-!
# The key store is a partial map

What the store is for: a partial map from slot ids to imported keys, which can
be filled one slot at a time, emptied one slot at a time or all at once, and
read.  `KeyMap` carries in its type what makes an entry possible at all: a valid
slot id and a key that fits the buffer.

The map determines the store up to the access counters: `Holds` says that each
slot's record and key are the ones its entry dictates, an absent entry dictating
the default-constructed record and the all-zero key.  So the absence of residue
and the agreement of record and key are not separate invariants, they are read
off this one relation, which every call preserves (`simulates`).

## Main results

* `KeystoreService.simulates` — the store and the map move in step.
* `KeystoreService.represents_run` — after any calls the store holds the map that
  the same calls make.
-/

namespace Ehsm

open Reactive

/-! ## Imported keys -/

/-- What an import puts into a slot. -/
structure Import where
  algorithm : Algorithm
  keyData : List UInt8
  permissions : UInt8
  deriving DecidableEq, Repr

/-- The key is neither empty nor larger than the buffer. -/
def Import.Fits (key : Import) : Prop :=
  1 ≤ key.keyData.length ∧ key.keyData.length ≤ kMaxKeySize

instance (key : Import) : Decidable key.Fits := by
  unfold Import.Fits
  infer_instance

/-- The key record of an entry: its bytes, then zeros. -/
def keyOf : Option Import → Key
  | none => {}
  | some key =>
      { data := fun i => key.keyData.getD i 0
        size := key.keyData.length
        algorithm := key.algorithm }

/-- The public record of an entry. -/
def infoOf (slotId : UInt8) : Option Import → KeySlotInfo
  | none => {}
  | some key =>
      { id := slotId
        isOccupied := true
        algorithm := key.algorithm
        permissions := key.permissions
        keySize := key.keyData.length }

@[simp] theorem infoOf_isOccupied (slotId : UInt8) (entry : Option Import) :
    (infoOf slotId entry).isOccupied = entry.isSome := by
  cases entry <;> rfl

/-! ## The map -/

/-- A partial map from valid slot ids to keys that fit. -/
structure KeyMap where
  lookup : UInt8 → Option Import
  valid : ∀ slotId key, lookup slotId = some key → IsValidSlotId slotId ∧ key.Fits

namespace KeyMap

open KeystoreService (Op Reply)

def empty : KeyMap where
  lookup := fun _ => none
  valid := fun _ _ h => nomatch h

def insert (m : KeyMap) (slotId : UInt8) (key : Import) (hslot : IsValidSlotId slotId)
    (hfits : key.Fits) : KeyMap where
  lookup := Function.update m.lookup slotId (some key)
  valid := by
    intro s k hlookup
    by_cases hs : s = slotId
    · subst hs
      rw [Function.update_self, Option.some.injEq] at hlookup
      exact ⟨hslot, hlookup ▸ hfits⟩
    · rw [Function.update_of_ne hs] at hlookup
      exact m.valid s k hlookup

def erase (m : KeyMap) (slotId : UInt8) : KeyMap where
  lookup := Function.update m.lookup slotId none
  valid := by
    intro s k hlookup
    by_cases hs : s = slotId
    · subst hs
      rw [Function.update_self] at hlookup
      contradiction
    · rw [Function.update_of_ne hs] at hlookup
      exact m.valid s k hlookup

theorem lookup_of_not_valid (m : KeyMap) {slotId : UInt8} (h : ¬ IsValidSlotId slotId) :
    m.lookup slotId = none := by
  cases hlookup : m.lookup slotId with
  | none => rfl
  | some key => exact absurd (m.valid slotId key hlookup).1 h

/-- The map as a machine; `none` is a map that was not started. -/
def step : Op → Option KeyMap → Reply × Option KeyMap
  | .init, none => (.status .ok, some empty)
  | .init, some m => (.status .ok, some m)
  | .deinit, none => (.status .errNotInitialized, none)
  | .deinit, some _ => (.status .ok, none)
  | .importKey _ _ _ _, none => (.status .errNotInitialized, none)
  | .importKey slotId algorithm keyData permissions, some m =>
      if hslot : IsValidSlotId slotId then
        if hfits : Import.Fits ⟨algorithm, keyData, permissions⟩ then
          match m.lookup slotId with
          | some _ => (.status .errKeySlotFull, some m)
          | none =>
              (.status .ok, some (m.insert slotId ⟨algorithm, keyData, permissions⟩ hslot hfits))
        else (.status .errInvalidParam, some m)
      else (.status .errInvalidKeyId, some m)
  | .deleteKey _, none => (.status .errNotInitialized, none)
  | .deleteKey slotId, some m =>
      if IsValidSlotId slotId then
        match m.lookup slotId with
        | some _ => (.status .ok, some (m.erase slotId))
        | none => (.status .errInvalidParam, some m)
      else (.status .errInvalidKeyId, some m)
  | .getKey _ out, none => (.key .errNotInitialized out, none)
  | .getKey slotId out, some m =>
      match m.lookup slotId with
      | some key => (.key .ok (keyOf (some key)), some m)
      | none => (.key .errInvalidKeyId out, some m)
  | .getSlotInfo _ out, none => (.info .errNotInitialized out, none)
  | .getSlotInfo slotId out, some m =>
      if IsValidSlotId slotId then (.info .ok (infoOf slotId (m.lookup slotId)), some m)
      else (.info .errInvalidKeyId out, some m)
  | .clearAll, none => (.status .errNotInitialized, none)
  | .clearAll, some _ => (.status .ok, some empty)
  | .isSlotOccupied _, none => (.occupied false, none)
  | .isSlotOccupied slotId, some m => (.occupied (m.lookup slotId).isSome, some m)

def machine : Machine (Option KeyMap) Op Reply := ⟨step⟩

/-- Only `init` and `deinit` start and stop the map. -/
theorem isSome_next (op : Op) (st : Option KeyMap) :
    (machine.next op st).isSome =
      match op with
      | .init => true
      | .deinit => false
      | _ => st.isSome := by
  simp only [machine, Machine.next]
  cases st with
  | none => cases op <;> rfl
  | some m =>
      cases op with
      | init | deinit | clearAll | isSlotOccupied _ => rfl
      | importKey slotId algorithm keyData permissions =>
          simp only [step]
          split
          · split
            · split <;> rfl
            · rfl
          · rfl
      | deleteKey slotId =>
          simp only [step]
          split
          · split <;> rfl
          · rfl
      | getKey slotId out =>
          simp only [step]
          split <;> rfl
      | getSlotInfo slotId out =>
          simp only [step]
          split <;> rfl

/-- The entry of a slot; a map that was not started has none. -/
def entry (st : Option KeyMap) (slotId : UInt8) : Option Import :=
  st.bind fun m => m.lookup slotId

end KeyMap

/-! ## The abstraction -/

namespace KeystoreService

/-- Every slot's record and key are the ones its entry dictates. -/
def Holds (ks : KeystoreService) (m : KeyMap) : Prop :=
  ∀ slotId (h : IsValidSlotId slotId),
    (ks.keySlots (slotIndex slotId h)).info = infoOf slotId (m.lookup slotId) ∧
      (ks.keySlots (slotIndex slotId h)).key = keyOf (m.lookup slotId)

/-- A store that is not initialised holds the empty map. -/
def Represents (ks : KeystoreService) : Option KeyMap → Prop
  | none => ks.isInitialized = false ∧ ks.Holds .empty
  | some m => ks.isInitialized = true ∧ ks.Holds m

theorem Represents.isInitialized {ks : KeystoreService} {st : Option KeyMap}
    (h : ks.Represents st) : ks.isInitialized = st.isSome := by
  cases st with
  | none => exact h.1
  | some m => exact h.1

/-- Default-constructed slots hold the empty map. -/
theorem holds_empty {ks : KeystoreService} (count : Fin kMaxKeySlots → UInt32)
    (h : ks.keySlots = fun i => { accessCount := count i }) : ks.Holds .empty := by
  intro slotId hslot
  rw [h]
  exact ⟨rfl, rfl⟩

/-- Writing one slot moves the store to a map that differs in that slot only,
provided the slot is written as the new entry dictates. -/
theorem Holds.setSlot {ks : KeystoreService} {m m' : KeyMap} (hold : ks.Holds m)
    {slotId : UInt8} (hslot : IsValidSlotId slotId) {slot : KeySlotStorage}
    (entry : Option Import) (hm' : m'.lookup = Function.update m.lookup slotId entry)
    (hinfo : slot.info = infoOf slotId entry) (hkey : slot.key = keyOf entry) :
    (ks.setSlot (slotIndex slotId hslot) slot).Holds m' := by
  intro s hs
  rw [hm']
  by_cases hsame : s = slotId
  · subst hsame
    rw [setSlot_self, Function.update_self]
    exact ⟨hinfo, hkey⟩
  · rw [setSlot_other ks slot (Ne.symm hsame), Function.update_of_ne hsame]
    exact hold s hs

/-- Counting an access touches neither the record nor the key. -/
theorem Holds.countAccess {ks : KeystoreService} {m : KeyMap} (hold : ks.Holds m)
    {slotId : UInt8} (hslot : IsValidSlotId slotId) :
    (ks.setSlot (slotIndex slotId hslot)
      (countAccess (ks.keySlots (slotIndex slotId hslot)))).Holds m := by
  obtain ⟨hinfo, hkey⟩ := hold slotId hslot
  exact hold.setSlot hslot (m.lookup slotId) (Function.update_eq_self slotId m.lookup).symm
    hinfo hkey

theorem Holds.isOccupied {ks : KeystoreService} {m : KeyMap} (hold : ks.Holds m)
    {slotId : UInt8} (hslot : IsValidSlotId slotId) :
    (ks.keySlots (slotIndex slotId hslot)).info.isOccupied = (m.lookup slotId).isSome := by
  rw [(hold slotId hslot).1, infoOf_isOccupied]

theorem importKey_bad_iff {algorithm : Algorithm} {keyData : List UInt8} {permissions : UInt8} :
    (keyData.isEmpty = true ∨ kMaxKeySize < keyData.length) ↔
      ¬ Import.Fits ⟨algorithm, keyData, permissions⟩ := by
  rw [List.isEmpty_iff, ← List.length_eq_zero_iff, Import.Fits]
  dsimp only
  omega

/-! ## One call -/

theorem represents_init {ks : KeystoreService} {st : Option KeyMap} (h : ks.Represents st) :
    machine.reply .init ks = KeyMap.machine.reply .init st ∧
      (machine.next .init ks).Represents (KeyMap.machine.next .init st) := by
  simp only [machine, KeyMap.machine, Machine.reply, Machine.next, step]
  cases st with
  | none =>
      rw [init_of_not_initialized ks h.1]
      exact ⟨rfl, rfl, holds_empty (fun _ => 0) rfl⟩
  | some m =>
      rw [init_of_initialized ks h.1]
      exact ⟨rfl, h⟩

theorem represents_deinit {ks : KeystoreService} {st : Option KeyMap} (h : ks.Represents st) :
    machine.reply .deinit ks = KeyMap.machine.reply .deinit st ∧
      (machine.next .deinit ks).Represents (KeyMap.machine.next .deinit st) := by
  simp only [machine, KeyMap.machine, Machine.reply, Machine.next, step]
  cases st with
  | none =>
      rw [ks.deinit_of_not_initialized h.1]
      exact ⟨rfl, h⟩
  | some m =>
      rw [deinit_of_initialized ks h.1]
      exact ⟨rfl, rfl, holds_empty (fun _ => 0) rfl⟩

theorem represents_clearAll {ks : KeystoreService} {st : Option KeyMap} (h : ks.Represents st) :
    machine.reply .clearAll ks = KeyMap.machine.reply .clearAll st ∧
      (machine.next .clearAll ks).Represents (KeyMap.machine.next .clearAll st) := by
  simp only [machine, KeyMap.machine, Machine.reply, Machine.next, step]
  cases st with
  | none =>
      rw [ks.clearAll_of_not_initialized h.1]
      exact ⟨rfl, h⟩
  | some m =>
      rw [clearAll_of_initialized ks h.1]
      exact ⟨rfl, h.1, holds_empty (fun _ => 0) rfl⟩

theorem represents_importKey {ks : KeystoreService} {st : Option KeyMap}
    (slotId : UInt8) (algorithm : Algorithm) (keyData : List UInt8) (permissions : UInt8)
    (h : ks.Represents st) :
    machine.reply (.importKey slotId algorithm keyData permissions) ks =
        KeyMap.machine.reply (.importKey slotId algorithm keyData permissions) st ∧
      (machine.next (.importKey slotId algorithm keyData permissions) ks).Represents
        (KeyMap.machine.next (.importKey slotId algorithm keyData permissions) st) := by
  simp only [machine, KeyMap.machine, Machine.reply, Machine.next, step]
  cases st with
  | none =>
      rw [ks.importKey_of_not_initialized h.1]
      exact ⟨rfl, h⟩
  | some m =>
      obtain ⟨hinit, hold⟩ := h
      rw [importKey, if_neg (by simp [hinit]), KeyMap.step]
      by_cases hslot : IsValidSlotId slotId
      · rw [dif_pos hslot, dif_pos hslot]
        by_cases hfits : Import.Fits ⟨algorithm, keyData, permissions⟩
        · rw [dif_pos hfits, if_neg (fun hbad => importKey_bad_iff.mp hbad hfits)]
          have hoccupied := hold.isOccupied hslot
          obtain ⟨-, hkey⟩ := hold slotId hslot
          cases hlookup : m.lookup slotId with
          | some key =>
              rw [hlookup] at hoccupied
              rw [if_pos (by simp [hoccupied])]
              exact ⟨rfl, hinit, hold⟩
          | none =>
              -- the slot is empty, so the bytes beyond the new key are zero already
              rw [hlookup] at hoccupied hkey
              rw [if_neg (by simp [hoccupied])]
              refine ⟨rfl, hinit, ?_⟩
              refine hold.setSlot hslot (some ⟨algorithm, keyData, permissions⟩) rfl rfl ?_
              rw [importedSlot, hkey]
              rfl
        · rw [dif_neg hfits, if_pos (importKey_bad_iff.mpr hfits)]
          exact ⟨rfl, hinit, hold⟩
      · rw [dif_neg hslot, dif_neg hslot]
        exact ⟨rfl, hinit, hold⟩

theorem represents_deleteKey {ks : KeystoreService} {st : Option KeyMap} (slotId : UInt8)
    (h : ks.Represents st) :
    machine.reply (.deleteKey slotId) ks = KeyMap.machine.reply (.deleteKey slotId) st ∧
      (machine.next (.deleteKey slotId) ks).Represents
        (KeyMap.machine.next (.deleteKey slotId) st) := by
  simp only [machine, KeyMap.machine, Machine.reply, Machine.next, step]
  cases st with
  | none =>
      rw [ks.deleteKey_of_not_initialized h.1]
      exact ⟨rfl, h⟩
  | some m =>
      obtain ⟨hinit, hold⟩ := h
      rw [deleteKey, if_neg (by simp [hinit]), KeyMap.step]
      by_cases hslot : IsValidSlotId slotId
      · rw [dif_pos hslot, if_pos hslot]
        have hoccupied := hold.isOccupied hslot
        cases hlookup : m.lookup slotId with
        | some key =>
            rw [hlookup] at hoccupied
            rw [if_neg (by simp [hoccupied])]
            refine ⟨rfl, hinit, ?_⟩
            exact hold.setSlot hslot none rfl (by simp [infoOf]) (by simp [keyOf])
        | none =>
            rw [hlookup] at hoccupied
            rw [if_pos (by simp [hoccupied])]
            exact ⟨rfl, hinit, hold⟩
      · rw [dif_neg hslot, if_neg hslot]
        exact ⟨rfl, hinit, hold⟩

theorem represents_getKey {ks : KeystoreService} {st : Option KeyMap} (slotId : UInt8)
    (out : Key) (h : ks.Represents st) :
    machine.reply (.getKey slotId out) ks = KeyMap.machine.reply (.getKey slotId out) st ∧
      (machine.next (.getKey slotId out) ks).Represents
        (KeyMap.machine.next (.getKey slotId out) st) := by
  simp only [machine, KeyMap.machine, Machine.reply, Machine.next, step]
  cases st with
  | none =>
      rw [ks.getKey_of_not_initialized h.1]
      exact ⟨rfl, h⟩
  | some m =>
      obtain ⟨hinit, hold⟩ := h
      rw [getKey, if_neg (by simp [hinit]), KeyMap.step]
      by_cases hslot : IsValidSlotId slotId
      · rw [dif_pos hslot]
        have hoccupied := hold.isOccupied hslot
        obtain ⟨-, hkey⟩ := hold slotId hslot
        cases hlookup : m.lookup slotId with
        | some key =>
            rw [hlookup] at hoccupied hkey
            rw [if_neg (by simp [hoccupied]), hkey]
            exact ⟨rfl, hinit, hold.countAccess hslot⟩
        | none =>
            rw [hlookup] at hoccupied
            rw [if_pos (by simp [hoccupied])]
            exact ⟨rfl, hinit, hold⟩
      · rw [dif_neg hslot, m.lookup_of_not_valid hslot]
        exact ⟨rfl, hinit, hold⟩

theorem represents_getSlotInfo {ks : KeystoreService} {st : Option KeyMap} (slotId : UInt8)
    (out : KeySlotInfo) (h : ks.Represents st) :
    machine.reply (.getSlotInfo slotId out) ks =
        KeyMap.machine.reply (.getSlotInfo slotId out) st ∧
      (machine.next (.getSlotInfo slotId out) ks).Represents
        (KeyMap.machine.next (.getSlotInfo slotId out) st) := by
  simp only [machine, KeyMap.machine, Machine.reply, Machine.next, step]
  cases st with
  | none =>
      rw [ks.getSlotInfo_of_not_initialized h.1]
      exact ⟨rfl, h⟩
  | some m =>
      obtain ⟨hinit, hold⟩ := h
      rw [getSlotInfo, if_neg (by simp [hinit]), KeyMap.step]
      by_cases hslot : IsValidSlotId slotId
      · rw [dif_pos hslot, if_pos hslot, (hold slotId hslot).1]
        exact ⟨rfl, hinit, hold⟩
      · rw [dif_neg hslot, if_neg hslot]
        exact ⟨rfl, hinit, hold⟩

/-- Started or not, the store holds some map, and that map has the entries. -/
theorem Represents.exists_holds {ks : KeystoreService} {st : Option KeyMap}
    (h : ks.Represents st) : ∃ m, ks.Holds m ∧ m.lookup = KeyMap.entry st := by
  cases st with
  | none => exact ⟨.empty, h.2, rfl⟩
  | some m => exact ⟨m, h.2, rfl⟩

theorem Represents.slot {ks : KeystoreService} {st : Option KeyMap} (h : ks.Represents st)
    {slotId : UInt8} (hslot : IsValidSlotId slotId) :
    (ks.keySlots (slotIndex slotId hslot)).info = infoOf slotId (KeyMap.entry st slotId) ∧
      (ks.keySlots (slotIndex slotId hslot)).key = keyOf (KeyMap.entry st slotId) := by
  obtain ⟨m, hold, hentry⟩ := h.exists_holds
  rw [← hentry]
  exact hold slotId hslot

theorem represents_isSlotOccupied {ks : KeystoreService} {st : Option KeyMap} (slotId : UInt8)
    (h : ks.Represents st) :
    ks.isSlotOccupied slotId = (KeyMap.entry st slotId).isSome := by
  obtain ⟨m, hold, hentry⟩ := h.exists_holds
  rw [isSlotOccupied, ← hentry]
  by_cases hslot : IsValidSlotId slotId
  · rw [dif_pos hslot, hold.isOccupied hslot]
  · rw [dif_neg hslot, m.lookup_of_not_valid hslot]
    rfl

/-- The store and the map move in step: equal calls get equal replies and leave
the map held. -/
theorem simulates : Machine.Simulation machine KeyMap.machine Represents Eq Eq := by
  apply Machine.Simulation.of_step
  intro op ks st h
  cases op with
  | init => exact represents_init h
  | deinit => exact represents_deinit h
  | importKey slotId algorithm keyData permissions =>
      exact represents_importKey slotId algorithm keyData permissions h
  | deleteKey slotId => exact represents_deleteKey slotId h
  | getKey slotId out => exact represents_getKey slotId out h
  | getSlotInfo slotId out => exact represents_getSlotInfo slotId out h
  | clearAll => exact represents_clearAll h
  | isSlotOccupied slotId =>
      have hreply := congrArg Reply.occupied (represents_isSlotOccupied slotId h)
      cases st with
      | none => exact ⟨hreply, h⟩
      | some m => exact ⟨hreply, h⟩

/-! ## Runs -/

theorem represents_construct (accessCount : Fin kMaxKeySlots → UInt32) :
    (construct accessCount).Represents none :=
  ⟨rfl, holds_empty accessCount rfl⟩

/-- The map after a run of calls on a constructed store. -/
def mapOf (ops : List Op) : Option KeyMap := KeyMap.machine.run ops none

theorem represents_run (accessCount : Fin kMaxKeySlots → UInt32) (ops : List Op) :
    (machine.run ops (construct accessCount)).Represents (mapOf ops) :=
  simulates.run_eq ops (represents_construct accessCount)

end KeystoreService

end Ehsm
