import Ehsm.Keystore.History

/-!
# What the slot records are meant to say

Two properties of the slot records that the key store does not keep.

The size table `getKeySizeForAlgorithm` is not consulted by `importKey`, which
only compares the data with the buffer.  So a stored key has the size its
algorithm asks for exactly when the caller saw to it; for the RSA entries of the
table, which exceed the buffer, no caller can.

The id in a record is written by `importKey` alone.  A record that is reset, in
`init` or in `secureClear`, names slot 0 whatever slot it is in.

## Main results

* `KeystoreService.well_sized_iff` — when all keys of a run have the size of the table.
* `KeystoreService.Represents.namesSlot_iff` — which records name their own slot.
-/

namespace Ehsm

open Reactive

namespace KeystoreService

/-! ## Key sizes -/

/-- The size is the one of the table, where the table has one. -/
def SizeFits (algorithm : Algorithm) (size : Nat) : Prop :=
  getKeySizeForAlgorithm algorithm ≠ 0 → size = getKeySizeForAlgorithm algorithm

instance (algorithm : Algorithm) (size : Nat) : Decidable (SizeFits algorithm size) := by
  unfold SizeFits
  infer_instance

/-- Every key in the store has the size of its algorithm. -/
def WellSized (ks : KeystoreService) : Prop :=
  ∀ i, (ks.keySlots i).info.isOccupied = true →
    SizeFits (ks.keySlots i).info.algorithm (ks.keySlots i).key.size

/-- All that `importKey` checks: the flag, the slot id, the length of the data
against the buffer, and that the slot is free. -/
structure Accepts (ks : KeystoreService) (slotId : UInt8) (keyData : List UInt8) : Prop where
  isInitialized : ks.isInitialized = true
  slot : IsValidSlotId slotId
  pos : 1 ≤ keyData.length
  max : keyData.length ≤ kMaxKeySize
  free : ks.isSlotOccupied slotId = false

theorem importKey_eq_ok_iff (ks : KeystoreService) (slotId : UInt8) (algorithm : Algorithm)
    (keyData : List UInt8) (permissions : UInt8) :
    (ks.importKey slotId algorithm keyData permissions).1 = .ok ↔ ks.Accepts slotId keyData := by
  have hfits : (keyData.isEmpty = true ∨ kMaxKeySize < keyData.length) ↔
      ¬ Import.Fits ⟨algorithm, keyData, permissions⟩ := importKey_bad_iff
  constructor
  · intro hok
    unfold importKey at hok
    split at hok
    · contradiction
    next hinit =>
    split at hok
    · next hslot =>
        split at hok
        · contradiction
        next hbad =>
        have hlength := not_not.mp (mt hfits.mpr hbad)
        cases hoccupied : (ks.keySlots (slotIndex slotId hslot)).info.isOccupied with
        | true => simp [hoccupied] at hok
        | false =>
            refine ⟨by simpa using hinit, hslot, hlength.1, hlength.2, ?_⟩
            rw [isSlotOccupied, dif_pos hslot, hoccupied]
    · contradiction
  · intro h
    have hinit : ¬ (!ks.isInitialized) = true := by simp [h.isInitialized]
    have hfree := h.free
    rw [isSlotOccupied, dif_pos h.slot] at hfree
    have hgood : ¬ (keyData.isEmpty = true ∨ kMaxKeySize < keyData.length) :=
      fun hbad => hfits.mp hbad ⟨h.pos, h.max⟩
    rw [importKey, if_neg hinit, dif_pos h.slot, if_neg hgood]
    exact congrArg Prod.fst (if_neg (by simp [hfree]))

/-- A size beyond the buffer cannot be met: whatever is accepted for such an
algorithm has the wrong one. -/
theorem Accepts.not_sizeFits {ks : KeystoreService} {slotId : UInt8} {keyData : List UInt8}
    (h : ks.Accepts slotId keyData) {algorithm : Algorithm}
    (hlarge : kMaxKeySize < getKeySizeForAlgorithm algorithm) :
    ¬ SizeFits algorithm keyData.length := by
  intro hfits
  have hsize := hfits (by omega)
  have hmax := h.max
  omega

section

variable {ks : KeystoreService} {st : Option KeyMap}

/-- Sizes are right in the store when they are in the map it holds. -/
theorem Represents.wellSized_iff (h : ks.Represents st) :
    ks.WellSized ↔ ∀ slotId key, KeyMap.entry st slotId = some key →
      SizeFits key.algorithm key.keyData.length := by
  constructor
  · intro hsized slotId key hentry
    obtain ⟨m, -, hlookup⟩ := h.exists_holds
    have hslot : IsValidSlotId slotId := (m.valid slotId key (by rw [hlookup, hentry])).1
    obtain ⟨hinfo, hkey⟩ := h.slot hslot
    have hslotSized := hsized (slotIndex slotId hslot)
    rw [hinfo, hkey, hentry] at hslotSized
    exact hslotSized rfl
  · intro hentries i hoccupied
    obtain ⟨slotId, hslot, rfl⟩ := exists_slotIndex i
    obtain ⟨hinfo, hkey⟩ := h.slot hslot
    rw [hinfo, infoOf_isOccupied, Option.isSome_iff_exists] at hoccupied
    obtain ⟨key, hentry⟩ := hoccupied
    rw [hinfo, hkey, hentry]
    exact hentries slotId key hentry

/-- An import that the store accepts brings data of the size of the table. -/
def SizedImport (op : Op) (ks : KeystoreService) : Prop :=
  ∀ slotId algorithm keyData permissions, op = .importKey slotId algorithm keyData permissions →
    ks.Accepts slotId keyData → SizeFits algorithm keyData.length

/-- A call keeps the sizes right exactly when it is no accepted import of a wrong
size. -/
theorem Represents.wellSized_next_iff (h : ks.Represents st) (hsized : ks.WellSized) (op : Op) :
    WellSized (machine.next op ks) ↔ SizedImport op ks := by
  have hnext : (machine.next op ks).Represents (KeyMap.machine.next op st) :=
    simulates.next rfl h
  have hreply : machine.reply op ks = KeyMap.machine.reply op st := simulates.reply rfl h
  rw [hnext.wellSized_iff]
  rw [h.wellSized_iff] at hsized
  constructor
  · intro hentries slotId algorithm keyData permissions hop haccepts
    have hok := (importKey_eq_ok_iff ks slotId algorithm keyData permissions).mpr haccepts
    have hevent : slotEvent slotId op (machine.reply op ks) =
        some (.imported ⟨algorithm, keyData, permissions⟩) := by
      rw [slotEvent_eq_imported_iff]
      refine ⟨hop, ?_⟩
      rw [hop]
      exact congrArg Reply.status hok
    have hentry := entry_next op st slotId
    rw [← hreply, hevent] at hentry
    exact hentries slotId _ hentry
  · intro himport slotId key hentry
    rw [entry_next, ← hreply] at hentry
    cases hevent : slotEvent slotId op (machine.reply op ks) with
    | none =>
        rw [hevent] at hentry
        exact hsized slotId key hentry
    | some event =>
        rw [hevent] at hentry
        cases event with
        | cleared => contradiction
        | imported other =>
            obtain rfl := Option.some.inj hentry
            obtain ⟨hop, hstatus⟩ := slotEvent_eq_imported_iff.mp hevent
            rw [hop] at hstatus
            have hok := Reply.status.inj hstatus
            exact himport _ _ _ _ hop ((importKey_eq_ok_iff ks _ _ _ _).mp hok)

end

/--
**Well-sized keys, exactly.**  Throughout a run of any calls the stored keys have
the sizes of the table if and only if every import that the store accepts brings
data of that size.  For one import in a reachable state: only the right size is
accepted, and a wrong one fails without effect, if and only if the size is right
or another check fails.
-/
theorem well_sized_iff (accessCount : Fin kMaxKeySlots → UInt32) (ops : List Op) :
    (machine.Always WellSized ops (construct accessCount) ↔
        machine.Steps SizedImport ops (construct accessCount)) ∧
      ∀ slotId algorithm keyData permissions,
        let ks := machine.run ops (construct accessCount)
        let result := ks.importKey slotId algorithm keyData permissions
        (result.1 = .ok → SizeFits algorithm keyData.length) ∧
            (¬ SizeFits algorithm keyData.length → result.1 ≠ .ok ∧ result.2 = ks) ↔
          (ks.Accepts slotId keyData → SizeFits algorithm keyData.length) := by
  constructor
  · apply machine.always_iff_steps (Q := fun ks => ∃ st, ks.Represents st)
    · intro op ks hrep
      obtain ⟨st, hrep⟩ := hrep
      exact ⟨_, simulates.next (i := op) rfl hrep⟩
    · intro op ks hrep hsized
      obtain ⟨st, hrep⟩ := hrep
      exact hrep.wellSized_next_iff hsized op
    · exact ⟨none, represents_construct accessCount⟩
    · intro i hoccupied
      contradiction
  · intro slotId algorithm keyData permissions ks result
    have hok : result.1 = .ok ↔ ks.Accepts slotId keyData :=
      ks.importKey_eq_ok_iff slotId algorithm keyData permissions
    rw [hok]
    constructor
    · intro h
      exact h.1
    · intro h
      refine ⟨h, ?_⟩
      intro hwrong
      have hfail : result.1 ≠ .ok := fun hresult => hwrong (h (hok.mp hresult))
      refine ⟨hfail, ?_⟩
      rcases ks.importKey_cases slotId algorithm keyData permissions with ⟨-, hsame⟩ | ⟨_, _, hres⟩
      · exact hsame
      · exact absurd (congrArg Prod.fst hres) hfail

/-- The failing run: one byte as an AES-128 key. -/
theorem one_byte_aes128 :
    let ks := machine.run [.init] (construct fun _ => 0)
    (ks.importKey 0 .aes128 [7] 0x01).1 = .ok ∧
      getKeySizeForAlgorithm .aes128 = 16 ∧ [(7 : UInt8)].length = 1 ∧
      ¬ WellSized (machine.run [.init, .importKey 0 .aes128 [7] 0x01] (construct fun _ => 0)) := by
  intro ks
  refine ⟨rfl, rfl, rfl, ?_⟩
  intro hsized
  have hslot : SizeFits .aes128 1 := hsized 0 rfl
  exact absurd hslot (by decide)

/-! ## Slot ids -/

/-- The record of slot `i` has the id `i`. -/
def NamesSlot (ks : KeystoreService) (i : Fin kMaxKeySlots) : Prop :=
  (ks.keySlots i).info.id.toNat = i

/-- A free slot has the default record, whose id is 0. -/
theorem Represents.namesSlot_iff {ks : KeystoreService} {st : Option KeyMap}
    (h : ks.Represents st) (i : Fin kMaxKeySlots) :
    ks.NamesSlot i ↔ i = 0 ∨ (ks.keySlots i).info.isOccupied = true := by
  obtain ⟨slotId, hslot, rfl⟩ := exists_slotIndex i
  rw [NamesSlot, (h.slot hslot).1, infoOf_isOccupied]
  cases KeyMap.entry st slotId with
  | some key => exact iff_of_true rfl (.inr rfl)
  | none =>
      have hzero : slotIndex slotId hslot = 0 ↔ 0 = slotId.toNat := by
        rw [Fin.ext_iff]
        exact eq_comm
      rw [hzero]
      exact (or_iff_left (by decide)).symm

/-- What a query reports for a slot is its record. -/
theorem Represents.getSlotInfo_id_iff {ks : KeystoreService} {st : Option KeyMap}
    (h : ks.Represents st) (hinit : ks.isInitialized = true) {slotId : UInt8}
    (hslot : IsValidSlotId slotId) (out : KeySlotInfo) :
    (ks.getSlotInfo slotId out).2.1.id = slotId ↔
      slotId = 0 ∨ ks.isSlotOccupied slotId = true := by
  rw [ks.getSlotInfo_of_valid hinit hslot, isSlotOccupied, dif_pos hslot]
  have hnames := h.namesSlot_iff (slotIndex slotId hslot)
  rw [NamesSlot, show ((slotIndex slotId hslot : Fin kMaxKeySlots) : Nat) = slotId.toNat from rfl,
    UInt8.toNat_inj] at hnames
  rw [hnames]
  have hzero : slotIndex slotId hslot = 0 ↔ slotId = 0 := by
    rw [Fin.ext_iff, ← UInt8.toNat_inj]
    rfl
  rw [hzero]

/-- Every record of an initialised store names its slot. -/
def NamesSlots (ks : KeystoreService) : Prop :=
  ks.isInitialized = true → ∀ i, ks.NamesSlot i

/-- An `init` that starts the store leaves seven records that name slot 0, so the
records name their slots throughout a run exactly when the run never starts it. -/
theorem namesSlots_throughout_iff (ops : List Op) {ks : KeystoreService}
    (h : ks.Represents none) :
    machine.Always NamesSlots ops ks ↔ ∀ op ∈ ops, op ≠ .init := by
  have hdown : ks.NamesSlots := fun hinit => absurd (h.1.symm.trans hinit) (by decide)
  induction ops generalizing ks with
  | nil => exact iff_of_true hdown (by simp)
  | cons op ops ih =>
      have hnext : (machine.next op ks).Represents (KeyMap.machine.next op none) :=
        simulates.next rfl h
      rw [List.forall_mem_cons, Machine.Always]
      by_cases hop : op = .init
      · refine iff_of_false ?_ fun hnone => hnone.1 hop
        intro hall
        subst hop
        have hnamesAll : NamesSlots (machine.next .init ks) := Machine.Always.head machine hall.2
        have hnames := (hnext.namesSlot_iff 1).mp (hnamesAll hnext.1 1)
        have hfree : ((machine.next .init ks).keySlots 1).info.isOccupied = false := by
          have hslot := (hnext.slot (show IsValidSlotId 1 by decide)).1
          exact congrArg KeySlotInfo.isOccupied hslot
        rw [hfree] at hnames
        exact absurd hnames (by decide)
      · have hstill : KeyMap.machine.next op none = none := by
          cases op <;> first | rfl | contradiction
        rw [hstill] at hnext
        have hdown' : NamesSlots (machine.next op ks) :=
          fun hinit => absurd (hnext.1.symm.trans hinit) (by decide)
        exact and_congr (iff_of_true hdown hop) (ih hnext hdown')

end KeystoreService

end Ehsm
