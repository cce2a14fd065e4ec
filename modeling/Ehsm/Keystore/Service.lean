import Ehsm.Types
import Ehsm.Reactive.Machine

/-!
# The key store

`KeystoreService` of `src/services/keystore_service.cpp`: an array of
`kMaxKeySlots` slots, each holding a public record, the key itself and an access
counter, and an initialisation flag.  The record and the key are written
separately, as in the source; that they agree is proved, not assumed.

A key to import is given by its bytes.  The source reads them through a constant
span and never writes to the caller, so nothing else of the span matters.
-/

namespace Ehsm

open Reactive

/-- One slot.  `accessCount` has no initialiser. -/
structure KeySlotStorage where
  info : KeySlotInfo := {}
  key : Key := {}
  accessCount : UInt32

structure KeystoreService where
  keySlots : Fin kMaxKeySlots → KeySlotStorage
  isInitialized : Bool

/-- `isValidSlotId`. -/
abbrev IsValidSlotId (slotId : UInt8) : Prop := slotId.toNat < kMaxKeySlots

/-- The array index of a valid slot id. -/
def slotIndex (slotId : UInt8) (h : IsValidSlotId slotId) : Fin kMaxKeySlots :=
  ⟨slotId.toNat, h⟩

/-- `std::memcpy` into the start of a buffer; the rest of it stays. -/
def memcpy (data : Fin kMaxKeySize → UInt8) (bytes : List UInt8) : Fin kMaxKeySize → UInt8 :=
  fun i => bytes.getD i (data i)

namespace KeystoreService

/-- A constructed store, for whatever values its counters happen to have. -/
def construct (accessCount : Fin kMaxKeySlots → UInt32) : KeystoreService where
  keySlots := fun i => { accessCount := accessCount i }
  isInitialized := false

/-- Write one slot of the array. -/
def setSlot (ks : KeystoreService) (i : Fin kMaxKeySlots) (slot : KeySlotStorage) :
    KeystoreService :=
  { ks with keySlots := Function.update ks.keySlots i slot }

def init (ks : KeystoreService) : Status × KeystoreService :=
  if ks.isInitialized then (.ok, ks)
  else
    (.ok,
      { keySlots := sweep (fun _ _ => { info := {}, key := {}, accessCount := 0 }) ks.keySlots
        isInitialized := true })

/-- What `secureClear` makes of a slot: the key is wiped byte by byte, the record
is replaced by a default one. -/
def clearedSlot (slot : KeySlotStorage) : KeySlotStorage where
  info := {}
  key := slot.key.secureClear
  accessCount := 0

def secureClear (i : Fin kMaxKeySlots) (ks : KeystoreService) : KeystoreService :=
  ks.setSlot i (clearedSlot (ks.keySlots i))

def clearAll (ks : KeystoreService) : Status × KeystoreService :=
  if !ks.isInitialized then (.errNotInitialized, ks)
  else (.ok, (List.finRange kMaxKeySlots).foldl (fun ks i => ks.secureClear i) ks)

def deinit (ks : KeystoreService) : Status × KeystoreService :=
  if !ks.isInitialized then (.errNotInitialized, ks)
  else (.ok, { ks.clearAll.2 with isInitialized := false })

/-- The slot `importKey` writes over an unoccupied one. -/
def importedSlot (keySlotId : UInt8) (algorithm : Algorithm) (keyData : List UInt8)
    (permissions : UInt8) (slot : KeySlotStorage) : KeySlotStorage where
  key :=
    { data := memcpy slot.key.data keyData
      size := keyData.length
      algorithm := algorithm }
  info :=
    { id := keySlotId
      isOccupied := true
      algorithm := algorithm
      permissions := permissions
      keySize := keyData.length }
  accessCount := 0

def importKey (keySlotId : UInt8) (algorithm : Algorithm) (keyData : List UInt8)
    (permissions : UInt8) (ks : KeystoreService) : Status × KeystoreService :=
  if !ks.isInitialized then (.errNotInitialized, ks)
  else if h : IsValidSlotId keySlotId then
    if keyData.isEmpty = true ∨ kMaxKeySize < keyData.length then (.errInvalidParam, ks)
    else
      let slot := ks.keySlots (slotIndex keySlotId h)
      if slot.info.isOccupied then (.errKeySlotFull, ks)
      else
        (.ok, ks.setSlot (slotIndex keySlotId h)
          (importedSlot keySlotId algorithm keyData permissions slot))
  else (.errInvalidKeyId, ks)

def deleteKey (keySlotId : UInt8) (ks : KeystoreService) : Status × KeystoreService :=
  if !ks.isInitialized then (.errNotInitialized, ks)
  else if h : IsValidSlotId keySlotId then
    if !(ks.keySlots (slotIndex keySlotId h)).info.isOccupied then (.errInvalidParam, ks)
    else (.ok, ks.secureClear (slotIndex keySlotId h))
  else (.errInvalidKeyId, ks)

/-- A slot that was read once more; the counter is 32 bits wide. -/
def countAccess (slot : KeySlotStorage) : KeySlotStorage :=
  { slot with accessCount := slot.accessCount + 1 }

def getKey (keySlotId : UInt8) (key : Key) (ks : KeystoreService) :
    Status × Key × KeystoreService :=
  if !ks.isInitialized then (.errNotInitialized, key, ks)
  else if h : IsValidSlotId keySlotId then
    let slot := ks.keySlots (slotIndex keySlotId h)
    if !slot.info.isOccupied then (.errInvalidKeyId, key, ks)
    else (.ok, slot.key, ks.setSlot (slotIndex keySlotId h) (countAccess slot))
  else (.errInvalidKeyId, key, ks)

def getSlotInfo (keySlotId : UInt8) (info : KeySlotInfo) (ks : KeystoreService) :
    Status × KeySlotInfo × KeystoreService :=
  if !ks.isInitialized then (.errNotInitialized, info, ks)
  else if h : IsValidSlotId keySlotId then
    (.ok, (ks.keySlots (slotIndex keySlotId h)).info, ks)
  else (.errInvalidKeyId, info, ks)

def isSlotOccupied (keySlotId : UInt8) (ks : KeystoreService) : Bool :=
  if h : IsValidSlotId keySlotId then
    (ks.keySlots (slotIndex keySlotId h)).info.isOccupied
  else false

/-! ## The store as a machine -/

/-- The calls of `IKeystoreService`.  The reading calls carry the value their
out-parameter has before the call. -/
inductive Op where
  | init
  | deinit
  | importKey (keySlotId : UInt8) (algorithm : Algorithm) (keyData : List UInt8)
      (permissions : UInt8)
  | deleteKey (keySlotId : UInt8)
  | getKey (keySlotId : UInt8) (key : Key)
  | getSlotInfo (keySlotId : UInt8) (info : KeySlotInfo)
  | clearAll
  | isSlotOccupied (keySlotId : UInt8)

/-- What a call answers. -/
inductive Reply where
  | status (status : Status)
  | key (status : Status) (key : Key)
  | info (status : Status) (info : KeySlotInfo)
  | occupied (answer : Bool)

def step : Op → KeystoreService → Reply × KeystoreService
  | .init, ks => (.status ks.init.1, ks.init.2)
  | .deinit, ks => (.status ks.deinit.1, ks.deinit.2)
  | .importKey keySlotId algorithm keyData permissions, ks =>
      (.status (ks.importKey keySlotId algorithm keyData permissions).1,
        (ks.importKey keySlotId algorithm keyData permissions).2)
  | .deleteKey keySlotId, ks =>
      (.status (ks.deleteKey keySlotId).1, (ks.deleteKey keySlotId).2)
  | .getKey keySlotId key, ks =>
      (.key (ks.getKey keySlotId key).1 (ks.getKey keySlotId key).2.1,
        (ks.getKey keySlotId key).2.2)
  | .getSlotInfo keySlotId info, ks =>
      (.info (ks.getSlotInfo keySlotId info).1 (ks.getSlotInfo keySlotId info).2.1,
        (ks.getSlotInfo keySlotId info).2.2)
  | .clearAll, ks => (.status ks.clearAll.1, ks.clearAll.2)
  | .isSlotOccupied keySlotId, ks => (.occupied (ks.isSlotOccupied keySlotId), ks)

def machine : Machine KeystoreService Op Reply := ⟨step⟩

/-! ## What the loops and the slot writes leave -/

theorem slotIndex_inj {a b : UInt8} {ha : IsValidSlotId a} {hb : IsValidSlotId b} :
    slotIndex a ha = slotIndex b hb ↔ a = b := by
  rw [slotIndex, slotIndex, Fin.mk.injEq, UInt8.toNat_inj]

/-- An index with the value of a slot id makes the id valid. -/
theorem eq_slotIndex {slotId : UInt8} {i : Fin kMaxKeySlots} (h : i.val = slotId.toNat) :
    ∃ hslot : IsValidSlotId slotId, i = slotIndex slotId hslot := by
  have hslot : IsValidSlotId slotId := by
    rw [IsValidSlotId, ← h]
    exact i.isLt
  exact ⟨hslot, Fin.ext h⟩

/-- Every index is the index of a valid slot id. -/
theorem exists_slotIndex (i : Fin kMaxKeySlots) :
    ∃ slotId, ∃ h : IsValidSlotId slotId, slotIndex slotId h = i := by
  have hlt : i.val < 256 := Nat.lt_trans i.isLt (by decide)
  have hval : (UInt8.ofNat i.val).toNat = i.val := by
    rw [UInt8.toNat_ofNat']
    exact Nat.mod_eq_of_lt hlt
  obtain ⟨hslot, hindex⟩ := eq_slotIndex hval.symm
  exact ⟨UInt8.ofNat i.val, hslot, hindex.symm⟩

@[simp] theorem setSlot_self (ks : KeystoreService) (i : Fin kMaxKeySlots)
    (slot : KeySlotStorage) : (ks.setSlot i slot).keySlots i = slot := by
  simp [setSlot]

theorem setSlot_ne (ks : KeystoreService) {i j : Fin kMaxKeySlots} (slot : KeySlotStorage)
    (h : j ≠ i) : (ks.setSlot i slot).keySlots j = ks.keySlots j := by
  simp [setSlot, h]

/-- A write to the slot of one id leaves the slot of another id alone. -/
theorem setSlot_other (ks : KeystoreService) {a b : UInt8} {ha : IsValidSlotId a}
    {hb : IsValidSlotId b} (slot : KeySlotStorage) (h : a ≠ b) :
    (ks.setSlot (slotIndex a ha) slot).keySlots (slotIndex b hb) =
      ks.keySlots (slotIndex b hb) := by
  apply setSlot_ne
  intro heq
  exact h (slotIndex_inj.mp heq).symm

@[simp] theorem clearedSlot_eq (slot : KeySlotStorage) :
    clearedSlot slot = { accessCount := 0 } := by
  simp [clearedSlot]

/-- The clearing loop leaves every slot default-constructed. -/
theorem foldl_secureClear (ks : KeystoreService) :
    (List.finRange kMaxKeySlots).foldl (fun ks i => ks.secureClear i) ks =
      { ks with keySlots := fun _ => { accessCount := 0 } } := by
  have hloop : ∀ (is : List (Fin kMaxKeySlots)) (ks : KeystoreService),
      is.foldl (fun ks i => ks.secureClear i) ks =
        { ks with
          keySlots := is.foldl
            (fun slots i => Function.update slots i (clearedSlot (slots i))) ks.keySlots } := by
    intro is
    induction is with
    | nil => intro ks; rfl
    | cons i is ih => intro ks; rw [List.foldl_cons, ih]; rfl
  have hsweep := sweep_eq (fun (_ : Fin kMaxKeySlots) slot => clearedSlot slot) ks.keySlots
  rw [sweep] at hsweep
  rw [hloop, hsweep]
  simp

/-! ## What each operation does -/

theorem init_of_initialized (ks : KeystoreService) (h : ks.isInitialized = true) :
    ks.init = (.ok, ks) := by
  simp [init, h]

theorem init_of_not_initialized (ks : KeystoreService) (h : ks.isInitialized = false) :
    ks.init =
      (.ok, { keySlots := fun _ => { accessCount := 0 }, isInitialized := true }) := by
  simp [init, h, sweep_eq]

/-! On a store that is not initialised every call but `init` fails without
effect, and with the same code. -/

section NotInitialized

variable (ks : KeystoreService) (h : ks.isInitialized = false)

include h

theorem deinit_of_not_initialized : ks.deinit = (.errNotInitialized, ks) := by
  simp [deinit, h]

theorem importKey_of_not_initialized (slotId : UInt8) (algorithm : Algorithm)
    (keyData : List UInt8) (permissions : UInt8) :
    ks.importKey slotId algorithm keyData permissions = (.errNotInitialized, ks) := by
  simp [importKey, h]

theorem deleteKey_of_not_initialized (slotId : UInt8) :
    ks.deleteKey slotId = (.errNotInitialized, ks) := by
  simp [deleteKey, h]

theorem getKey_of_not_initialized (slotId : UInt8) (key : Key) :
    ks.getKey slotId key = (.errNotInitialized, key, ks) := by
  simp [getKey, h]

theorem getSlotInfo_of_not_initialized (slotId : UInt8) (info : KeySlotInfo) :
    ks.getSlotInfo slotId info = (.errNotInitialized, info, ks) := by
  simp [getSlotInfo, h]

theorem clearAll_of_not_initialized : ks.clearAll = (.errNotInitialized, ks) := by
  simp [clearAll, h]

end NotInitialized

theorem clearAll_of_initialized (ks : KeystoreService) (h : ks.isInitialized = true) :
    ks.clearAll = (.ok, { ks with keySlots := fun _ => { accessCount := 0 } }) := by
  simp [clearAll, h, foldl_secureClear]

/-- `deinit` clears before it lowers the flag, so the clearing is effective. -/
theorem deinit_of_initialized (ks : KeystoreService) (h : ks.isInitialized = true) :
    ks.deinit =
      (.ok, { keySlots := fun _ => { accessCount := 0 }, isInitialized := false }) := by
  simp [deinit, h, clearAll_of_initialized]

/-- `importKey` fails without effect, or writes the slot it names. -/
theorem importKey_cases (ks : KeystoreService) (slotId : UInt8) (algorithm : Algorithm)
    (keyData : List UInt8) (permissions : UInt8) :
    ((ks.importKey slotId algorithm keyData permissions).1 ≠ .ok ∧
        (ks.importKey slotId algorithm keyData permissions).2 = ks) ∨
      ∃ h : IsValidSlotId slotId,
        (ks.keySlots (slotIndex slotId h)).info.isOccupied = false ∧
        ks.importKey slotId algorithm keyData permissions =
          (.ok, ks.setSlot (slotIndex slotId h)
            (importedSlot slotId algorithm keyData permissions
              (ks.keySlots (slotIndex slotId h)))) := by
  cases hinit : ks.isInitialized with
  | false =>
      rw [ks.importKey_of_not_initialized hinit]
      exact .inl ⟨by simp, rfl⟩
  | true =>
      rw [importKey, if_neg (by simp [hinit])]
      by_cases hslot : IsValidSlotId slotId
      · rw [dif_pos hslot]
        by_cases hbad : keyData.isEmpty = true ∨ kMaxKeySize < keyData.length
        · rw [if_pos hbad]
          exact .inl ⟨by simp, rfl⟩
        · rw [if_neg hbad]
          cases hoccupied : (ks.keySlots (slotIndex slotId hslot)).info.isOccupied with
          | true => exact .inl ⟨by simp [hoccupied], by simp [hoccupied]⟩
          | false => exact .inr ⟨hslot, hoccupied, by simp [hoccupied]⟩
      · rw [dif_neg hslot]
        exact .inl ⟨by simp, rfl⟩

/-- `deleteKey` fails without effect, or leaves the slot default-constructed. -/
theorem deleteKey_cases (ks : KeystoreService) (slotId : UInt8) :
    ((ks.deleteKey slotId).1 ≠ .ok ∧ (ks.deleteKey slotId).2 = ks) ∨
      ∃ h : IsValidSlotId slotId,
        (ks.keySlots (slotIndex slotId h)).info.isOccupied = true ∧
        ks.deleteKey slotId =
          (.ok, ks.setSlot (slotIndex slotId h) { accessCount := 0 }) := by
  cases hinit : ks.isInitialized with
  | false =>
      rw [ks.deleteKey_of_not_initialized hinit]
      exact .inl ⟨by simp, rfl⟩
  | true =>
      rw [deleteKey, if_neg (by simp [hinit])]
      by_cases hslot : IsValidSlotId slotId
      · rw [dif_pos hslot]
        cases hoccupied : (ks.keySlots (slotIndex slotId hslot)).info.isOccupied with
        | false => exact .inl ⟨by simp, by simp⟩
        | true => exact .inr ⟨hslot, hoccupied, by simp [secureClear]⟩
      · rw [dif_neg hslot]
        exact .inl ⟨by simp, rfl⟩

/-- Reading a record changes nothing. -/
theorem getSlotInfo_keeps (ks : KeystoreService) (slotId : UInt8) (info : KeySlotInfo) :
    (ks.getSlotInfo slotId info).2.2 = ks := by
  unfold getSlotInfo
  split
  · rfl
  · split <;> rfl

/-- A record that cannot be read leaves the out-parameter alone. -/
theorem getSlotInfo_fails (ks : KeystoreService) {slotId : UInt8} {info : KeySlotInfo}
    (h : (ks.getSlotInfo slotId info).1 ≠ .ok) : (ks.getSlotInfo slotId info).2.1 = info := by
  cases hinit : ks.isInitialized with
  | false => rw [ks.getSlotInfo_of_not_initialized hinit]
  | true =>
      rw [getSlotInfo, if_neg (by simp [hinit])] at h ⊢
      by_cases hslot : IsValidSlotId slotId
      · rw [dif_pos hslot] at h
        exact absurd rfl h
      · rw [dif_neg hslot]

/-- Reading a record succeeds on every valid slot id. -/
theorem getSlotInfo_of_valid (ks : KeystoreService) (hinit : ks.isInitialized = true)
    {slotId : UInt8} (h : IsValidSlotId slotId) (info : KeySlotInfo) :
    ks.getSlotInfo slotId info = (.ok, (ks.keySlots (slotIndex slotId h)).info, ks) := by
  rw [getSlotInfo, if_neg (by simp [hinit]), dif_pos h]

/-- Reading a key succeeds on every occupied slot, and is counted. -/
theorem getKey_of_occupied (ks : KeystoreService) (hinit : ks.isInitialized = true)
    {slotId : UInt8} (h : IsValidSlotId slotId)
    (hoccupied : (ks.keySlots (slotIndex slotId h)).info.isOccupied = true) (key : Key) :
    ks.getKey slotId key =
      (.ok, (ks.keySlots (slotIndex slotId h)).key,
        ks.setSlot (slotIndex slotId h) (countAccess (ks.keySlots (slotIndex slotId h)))) := by
  rw [getKey, if_neg (by simp [hinit]), dif_pos h]
  simp [hoccupied]

end KeystoreService

end Ehsm
