import Ehsm.Hsm.History
import Ehsm.Keystore.Records

/-!
# A slot over a run

What a slot goes through between two of its events.  A filled slot keeps its key
until a clearing, whatever else is called; all that moves is the access counter,
which is 32 bits wide and counts the requests that used the key.  The counter is
raised where the key is fetched, two layers below the decision on the request,
but a request that reaches that point cannot fail any more.

The ids in the slot records fare worse: only an import writes one.

## Main results

* `WiredHsm.Sound.run_held` — a filled slot over a run without a clearing.
* `WiredHsm.access_count_exact` — what the counter of a slot says.
* `WiredHsm.slot_identity_iff` — when a record names its own slot.
-/

namespace Ehsm

open Reactive

namespace WiredHsm

open KeystoreService (SlotEvent slotEvent_eq_imported_iff)

variable {strategy : Strategy}

/-! ## One call -/

/-- The call used the key of the slot: a request naming it that was granted. -/
def isUse (slotId : UInt8) (event : Event) (answer : Answer) : Bool :=
  match event with
  | .encrypt _ keySlotId _ _ _ | .decrypt _ keySlotId _ _ _ =>
      keySlotId == slotId && answer == .status .ok
  | _ => false

section

variable {hsm : WiredHsm strategy} {map : Option KeyMap}

/-- The slot a valid id names. -/
def slotOf (hsm : WiredHsm strategy) (slotId : UInt8) (hslot : IsValidSlotId slotId) :
    KeySlotStorage :=
  hsm.world.keystore.keySlots (slotIndex slotId hslot)

/-- A granted request counts one access to the slot it names. -/
theorem Sound.slotOf_directCrypt (h : Sound hsm map) (required : KeyPermission)
    (sessionId : SessionId) (keySlotId : UInt8) (input output : Span) {slotId : UInt8}
    (hslot : IsValidSlotId slotId) :
    slotOf (directCrypt required sessionId keySlotId input output hsm).2 slotId hslot =
      if keySlotId = slotId ∧ decision required sessionId keySlotId input output hsm = .ok then
        KeystoreService.countAccess (slotOf hsm slotId hslot)
      else slotOf hsm slotId hslot := by
  rw [directCrypt]
  by_cases hok : decision required sessionId keySlotId input output hsm = .ok
  · obtain ⟨hready, -, -, hvalid, hgrants⟩ := decision_eq_ok_iff.mp hok
    obtain ⟨-, -, hkeystore⟩ := h.flag true hready
    have hoccupied := occupied_of_grants h.represents hvalid hgrants
    have hkey := KeystoreService.getKey_of_occupied _ hkeystore hvalid hoccupied {}
    rw [if_pos hok, slotOf, hkey]
    by_cases hsame : keySlotId = slotId
    · subst hsame
      rw [if_pos ⟨rfl, hok⟩]
      exact KeystoreService.setSlot_self _ _ _
    · rw [if_neg fun hboth => hsame hboth.1]
      exact KeystoreService.setSlot_other _ _ hsame
  · rw [if_neg hok, if_neg fun hboth => hok hboth.2]

/-- On a ready firmware a call without an event for a slot leaves the slot alone,
but for the count of a use. -/
theorem Sound.slotOf_next (h : Sound hsm map) (hready : hsm.api.isReady = true) (event : Event)
    {slotId : UInt8} (hslot : IsValidSlotId slotId)
    (hquiet : slotEvent slotId event ((machine strategy).reply event hsm) = none) :
    slotOf ((machine strategy).next event hsm) slotId hslot =
      if isUse slotId event ((machine strategy).reply event hsm) = true then
        KeystoreService.countAccess (slotOf hsm slotId hslot)
      else slotOf hsm slotId hslot := by
  obtain ⟨-, -, hkeystore⟩ := h.flag true hready
  rw [h.reply_eq_direct] at hquiet ⊢
  rw [h.next_eq_direct]
  cases event with
  | init =>
      rw [direct, if_pos hready]
      rfl
  | deinit =>
      rw [direct, if_pos hready] at hquiet
      contradiction
  | clearAllKeys =>
      rw [direct, KeystoreService.clearAll_of_initialized _ hkeystore] at hquiet
      contradiction
  | encrypt sessionId keySlotId algorithm input output =>
      rw [direct, h.slotOf_directCrypt .encrypt sessionId keySlotId input output hslot]
      simp [isUse, directCrypt]
  | decrypt sessionId keySlotId algorithm input output =>
      rw [direct, h.slotOf_directCrypt .decrypt sessionId keySlotId input output hslot]
      simp [isUse, directCrypt]
  | importKey keySlotId algorithm keyData permissions =>
      rw [direct] at hquiet ⊢
      show ((hsm.world.keystore.importKey keySlotId algorithm keyData permissions).2).keySlots _ = _
      rcases hsm.world.keystore.importKey_cases keySlotId algorithm keyData permissions with
        ⟨-, hsame⟩ | ⟨hvalid, -, hres⟩
      · rw [hsame]
        rfl
      · rw [hres] at hquiet ⊢
        apply KeystoreService.setSlot_other
        intro hsame
        have himported : slotEvent slotId (.importKey keySlotId algorithm keyData permissions)
            (.status .ok) = some (.imported ⟨algorithm, keyData, permissions⟩) := if_pos hsame
        exact absurd (himported.symm.trans hquiet) (Option.some_ne_none _)
  | deleteKey keySlotId =>
      rw [direct] at hquiet ⊢
      show ((hsm.world.keystore.deleteKey keySlotId).2).keySlots _ = _
      rcases hsm.world.keystore.deleteKey_cases keySlotId with ⟨-, hsame⟩ | ⟨hvalid, -, hres⟩
      · rw [hsame]
        rfl
      · rw [hres] at hquiet ⊢
        apply KeystoreService.setSlot_other
        intro hsame
        have hcleared : slotEvent slotId (.deleteKey keySlotId) (.status .ok) = some .cleared :=
          if_pos hsame
        exact absurd (hcleared.symm.trans hquiet) (Option.some_ne_none _)
  | isReady | createSession _ | closeSession _ | isSessionValid _ | getKeySlotInfo _ _
  | getVersion | store _ _ => rfl

/-- A slot is filled only while the firmware is ready. -/
theorem Sound.isReady_of_entry (h : Sound hsm map) {slotId : UInt8} {key : Import}
    (hentry : KeyMap.entry map slotId = some key) : hsm.api.isReady = true := by
  rw [← h.keystore, h.represents.isInitialized]
  cases map with
  | none => contradiction
  | some m => rfl

/-- Only a valid slot is ever filled. -/
theorem Sound.valid_of_entry (h : Sound hsm map) {slotId : UInt8} {key : Import}
    (hentry : KeyMap.entry map slotId = some key) : IsValidSlotId slotId := by
  obtain ⟨m, -, hlookup⟩ := h.represents.exists_holds
  rw [← hlookup] at hentry
  exact (m.valid slotId key hentry).1

/-- Only an `importKey` that succeeds is an import. -/
theorem slotEvent_eq_imported {slotId : UInt8} {event : Event} {answer : Answer} {key : Import}
    (h : slotEvent slotId event answer = some (.imported key)) :
    event = .importKey slotId key.algorithm key.keyData key.permissions ∧
      answer = .status .ok := by
  obtain ⟨op, status, hop, rfl, hevent⟩ := exists_op_of_slotEvent h
  obtain ⟨himport, hok⟩ := slotEvent_eq_imported_iff.mp hevent
  rw [KeystoreService.Reply.status.inj hok]
  refine ⟨?_, rfl⟩
  rw [himport] at hop
  cases event with
  | importKey _ _ _ _ =>
      cases hop
      rfl
  | init | deinit | deleteKey _ | clearAllKeys | isReady | createSession _ | closeSession _
  | isSessionValid _ | encrypt _ _ _ _ _ | decrypt _ _ _ _ _ | getKeySlotInfo _ _ | getVersion
  | store _ _ => cases hop

/-- An import into a filled slot fails, so the only event such a slot can meet is
a clearing. -/
theorem Sound.quiet_of_held (h : Sound hsm map) {slotId : UInt8} {key : Import}
    (hentry : KeyMap.entry map slotId = some key) (event : Event)
    (hkept : slotEvent slotId event ((machine strategy).reply event hsm) ≠ some .cleared) :
    slotEvent slotId event ((machine strategy).reply event hsm) = none := by
  cases hevent : slotEvent slotId event ((machine strategy).reply event hsm) with
  | none => rfl
  | some e =>
      cases e with
      | cleared => exact absurd hevent hkept
      | imported other =>
          obtain ⟨himport, hok⟩ := slotEvent_eq_imported hevent
          rw [himport, h.reply_eq_direct] at hok
          have haccepts := (KeystoreService.importKey_eq_ok_iff _ _ _ _ _).mp
            (Answer.status.inj hok)
          have hoccupied := KeystoreService.represents_isSlotOccupied slotId h.represents
          rw [haccepts.free, hentry] at hoccupied
          contradiction

/-- An import that succeeds leaves the key in the slot and nothing counted. -/
theorem Sound.import_next (h : Sound hsm map) {event : Event} {slotId : UInt8} {key : Import}
    (hslot : IsValidSlotId slotId)
    (hevent : slotEvent slotId event ((machine strategy).reply event hsm) =
      some (.imported key)) :
    KeyMap.entry (mapAfter event map) slotId = some key ∧
      (slotOf ((machine strategy).next event hsm) slotId hslot).accessCount = 0 := by
  constructor
  · rw [h.entry_next, hevent]
    rfl
  · obtain ⟨himport, hok⟩ := slotEvent_eq_imported hevent
    subst himport
    rw [h.reply_eq_direct] at hok
    rw [h.next_eq_direct]
    show ((hsm.world.keystore.importKey slotId key.algorithm key.keyData
      key.permissions).2.keySlots _).accessCount = 0
    rcases hsm.world.keystore.importKey_cases slotId key.algorithm key.keyData key.permissions with
      ⟨hfail, -⟩ | ⟨_, -, hres⟩
    · exact absurd (Answer.status.inj hok) hfail
    · rw [hres, KeystoreService.setSlot_self]
      rfl

/-! ## Runs -/

/-- The requests of a trace that used the key of the slot. -/
def uses (slotId : UInt8) (tr : List (Event × Answer)) : Nat :=
  tr.countP fun x => isUse slotId x.1 x.2

/-- Over a run that does not clear it a filled slot keeps its key, and its counter
moves by the uses. -/
theorem Sound.run_held (h : Sound hsm map) {slotId : UInt8} (hslot : IsValidSlotId slotId)
    {key : Import} (hentry : KeyMap.entry map slotId = some key) (events : List Event)
    (hkept : ∀ x ∈ (machine strategy).trace events hsm,
      slotEvent slotId x.1 x.2 ≠ some .cleared) :
    ∃ map', Sound ((machine strategy).run events hsm) map' ∧
      KeyMap.entry map' slotId = some key ∧
      (slotOf ((machine strategy).run events hsm) slotId hslot).accessCount =
        (slotOf hsm slotId hslot).accessCount +
          UInt32.ofNat (uses slotId ((machine strategy).trace events hsm)) := by
  induction events generalizing hsm map with
  | nil => exact ⟨map, h, hentry, (UInt32.add_zero _).symm⟩
  | cons event events ih =>
      rw [Machine.trace_cons] at hkept ⊢
      obtain ⟨hhead, htail⟩ := List.forall_mem_cons.mp hkept
      have hquiet := h.quiet_of_held hentry event hhead
      have hslotNext := h.slotOf_next (h.isReady_of_entry hentry) event hslot hquiet
      have hentryNext := h.entry_next event slotId
      rw [hquiet] at hentryNext
      obtain ⟨map', hsound, hheld, hcount⟩ :=
        ih (h.next event) (hentryNext.trans hentry) htail
      refine ⟨map', hsound, hheld, ?_⟩
      rw [Machine.run_cons, hcount, hslotNext, uses, uses, List.countP_cons]
      cases isUse slotId event ((machine strategy).reply event hsm) with
      | true =>
          rw [if_pos rfl, if_pos rfl, KeystoreService.countAccess, UInt32.ofNat_add,
            UInt32.add_comm (UInt32.ofNat _), ← UInt32.add_assoc]
          rfl
      | false => rfl

end

/-! ## What the counter says -/

/-- The slot is filled, and the call put the key there: an import that succeeded,
and no event of the slot since. -/
structure FilledBy (strategy : Strategy) (slotId : UInt8) (start : WiredHsm strategy)
    (before : List Event) (filling : Event) (after : List Event) : Prop where
  importKey : ∃ algorithm keyData permissions,
    filling = .importKey slotId algorithm keyData permissions
  ok : (machine strategy).reply filling ((machine strategy).run before start) = .status .ok
  quiet : ∀ x ∈ (machine strategy).trace after ((machine strategy).run (before ++ [filling]) start),
    slotEvent slotId x.1 x.2 = none

section

variable {slotId : UInt8} {start : WiredHsm strategy} {before after : List Event} {filling : Event}

/-- The call that fills a slot is an import for the slot. -/
theorem FilledBy.exists_import (h : FilledBy strategy slotId start before filling after) :
    ∃ key, slotEvent slotId filling
      ((machine strategy).reply filling ((machine strategy).run before start)) =
        some (.imported key) := by
  obtain ⟨algorithm, keyData, permissions, hfilling⟩ := h.importKey
  refine ⟨⟨algorithm, keyData, permissions⟩, ?_⟩
  rw [h.ok, hfilling]
  exact if_pos rfl

/-- The counter of the slot starts at zero there, and counts the uses from then on. -/
theorem FilledBy.accessCount (h : FilledBy strategy slotId start before filling after)
    {map : Option KeyMap} (hsound : Sound ((machine strategy).run before start) map)
    (hslot : IsValidSlotId slotId) :
    (slotOf ((machine strategy).run (before ++ filling :: after) start) slotId hslot).accessCount =
      UInt32.ofNat (uses slotId ((machine strategy).trace after
        ((machine strategy).run (before ++ [filling]) start))) := by
  obtain ⟨key, himport⟩ := h.exists_import
  obtain ⟨hheld, hzero⟩ := hsound.import_next hslot himport
  have hquiet := h.quiet
  rw [Machine.run_append] at hquiet
  obtain ⟨map', -, -, hcount⟩ := (hsound.next filling).run_held hslot hheld after fun x hx => by
    rw [hquiet x hx]
    exact (Option.some_ne_none _).symm
  rw [hzero, UInt32.zero_add] at hcount
  rw [Machine.run_append, Machine.run_append]
  exact hcount

end

/-- A slot whose latest event is an import was filled by it. -/
theorem exists_filledBy (accessCount : Fin kMaxKeySlots → UInt32) (mem : Memory)
    (events : List Event) {slotId : UInt8} {key : Import}
    (hlast : lastSlotEvent strategy accessCount mem events slotId = some (.imported key)) :
    ∃ before filling after, events = before ++ filling :: after ∧
      FilledBy strategy slotId (powerOn strategy accessCount mem) before filling after := by
  obtain ⟨before, filling, after, hevents, hevent, hquiet⟩ :=
    (machine strategy).exists_of_lastEvent_trace events hlast
  obtain ⟨himport, hok⟩ := slotEvent_eq_imported hevent
  exact ⟨before, filling, after, hevents, ⟨_, _, _, himport⟩, hok, hquiet⟩

/--
**The access counter counts the uses.**  After any run of the firmware from
power-on, with either strategy, the counter of an occupied slot is, modulo `2^32`,
the number of requests naming the slot that were granted since the import that
filled it.  In an initialised store the counter of a free slot is zero, and a call
that neither fills or clears a slot nor uses its key leaves the counter alone.
-/
theorem access_count_exact (strategy : Strategy) (accessCount : Fin kMaxKeySlots → UInt32)
    (mem : Memory) (events : List Event) (slotId : UInt8) (hslot : IsValidSlotId slotId) :
    let start := powerOn strategy accessCount mem
    let hsm := (machine strategy).run events start
    let slot := slotOf hsm slotId hslot
    (slot.info.isOccupied = true →
        ∃ before filling after, events = before ++ filling :: after ∧
          FilledBy strategy slotId start before filling after ∧
          slot.accessCount.toNat =
            uses slotId ((machine strategy).trace after
              ((machine strategy).run (before ++ [filling]) start)) % 2 ^ 32) ∧
      (hsm.world.keystore.isInitialized = true →
        (slot.info.isOccupied = false → slot.accessCount = 0) ∧
          ∀ event, slotEvent slotId event ((machine strategy).reply event hsm) = none →
            isUse slotId event ((machine strategy).reply event hsm) = false →
              (slotOf ((machine strategy).next event hsm) slotId hslot).accessCount =
                slot.accessCount) := by
  intro start hsm slot
  obtain ⟨map, hsound, hentry⟩ := sound_run strategy accessCount mem events
  constructor
  · intro hoccupied
    have hsome : (KeyMap.entry map slotId).isSome = true := by
      rw [← infoOf_isOccupied slotId, ← (hsound.represents.slot hslot).1]
      exact hoccupied
    obtain ⟨key, hkey⟩ := Option.isSome_iff_exists.mp hsome
    have hlast : lastSlotEvent strategy accessCount mem events slotId = some (.imported key) := by
      rw [← KeystoreService.bind_entry_eq_some_iff, ← hentry slotId]
      exact hkey
    obtain ⟨before, filling, after, hevents, hfilled⟩ :=
      exists_filledBy accessCount mem events hlast
    refine ⟨before, filling, after, hevents, hfilled, ?_⟩
    obtain ⟨map₀, hsound₀, -⟩ := sound_run strategy accessCount mem before
    have hcount := hfilled.accessCount hsound₀ hslot
    rw [← hevents] at hcount
    show (slotOf ((machine strategy).run events start) slotId hslot).accessCount.toNat = _
    rw [hcount, UInt32.toNat_ofNat']
  · intro hinit
    have hready : hsm.api.isReady = true := hsound.keystore.symm.trans hinit
    constructor
    · intro hfree
      have huncounted : hsm.world.keystore.FreeUncounted :=
        (sound_powerOn strategy accessCount mem).keystore_run_induction
          KeystoreService.freeUncounted_next events fun hup => absurd hup Bool.false_ne_true
      exact huncounted hinit (slotIndex slotId hslot) hfree
    · intro event hquiet hunused
      rw [hsound.slotOf_next hready event hslot hquiet, hunused]
      rfl

/-- One use of a key in slot 2, and a request on slot 3 that is refused. -/
theorem access_count_one :
    let start := powerOn .aes128 (fun _ => 9) (fun _ => 0)
    let events : List Event :=
      [.init, .createSession 0, .importKey 2 .aes128 [7] 0x03,
        .encrypt 1 2 .aes128 ⟨0, 1⟩ ⟨8, 1⟩, .encrypt 1 3 .aes128 ⟨0, 1⟩ ⟨8, 1⟩]
    let hsm := (machine .aes128).run events start
    ∃ before filling after, events = before ++ filling :: after ∧
      FilledBy .aes128 2 start before filling after ∧
      (slotOf hsm 2 (by decide)).accessCount.toNat =
        uses 2 ((machine .aes128).trace after
          ((machine .aes128).run (before ++ [filling]) start)) % 2 ^ 32 :=
  (access_count_exact .aes128 (fun _ => 9) (fun _ => 0) _ 2 (by decide)).1 rfl

/-! ## What the id says -/

/--
**Slot identity, exactly.**  In every reachable state of an initialised store the
record of a slot has the slot's id if and only if the slot is slot 0 or occupied,
and that id is what `getSlotInfo` and the facade's `getKeySlotInfo` report.  So
the records name their slots throughout a run only if the run never starts the
store.
-/
theorem slot_identity_iff (strategy : Strategy) (accessCount : Fin kMaxKeySlots → UInt32)
    (mem : Memory) :
    (∀ ops, let ks := KeystoreService.machine.run ops (.construct accessCount)
      (ks.isInitialized = true →
          (∀ i, ks.NamesSlot i ↔ i = 0 ∨ (ks.keySlots i).info.isOccupied = true) ∧
            ∀ slotId out, IsValidSlotId slotId →
              (ks.getSlotInfo slotId out).1 = .ok ∧
                ((ks.getSlotInfo slotId out).2.1.id = slotId ↔
                  slotId = 0 ∨ ks.isSlotOccupied slotId = true)) ∧
        (KeystoreService.machine.Always KeystoreService.NamesSlots ops (.construct accessCount) ↔
          ∀ op ∈ ops, op ≠ .init)) ∧
      ∀ events, let hsm := (machine strategy).run events (powerOn strategy accessCount mem)
        hsm.api.isReady = true → ∀ slotId out, IsValidSlotId slotId →
          ∃ record, (machine strategy).reply (.getKeySlotInfo slotId out) hsm = .info .ok record ∧
            (record.id = slotId ↔
              slotId = 0 ∨ hsm.world.keystore.isSlotOccupied slotId = true) := by
  constructor
  · intro ops ks
    have hrep : ks.Represents (KeystoreService.mapOf ops) :=
      KeystoreService.represents_run accessCount ops
    refine ⟨?_, KeystoreService.namesSlots_throughout_iff ops
      (KeystoreService.represents_construct accessCount)⟩
    intro hinit
    refine ⟨hrep.namesSlot_iff, ?_⟩
    intro slotId out hslot
    have hinfo := congrArg Prod.fst (ks.getSlotInfo_of_valid hinit hslot out)
    exact ⟨hinfo, hrep.getSlotInfo_id_iff hinit hslot out⟩
  · intro events hsm hready slotId out hslot
    obtain ⟨map, hsound, -⟩ := sound_run strategy accessCount mem events
    obtain ⟨-, -, hinit⟩ := hsound.flag true hready
    have hid := hsound.represents.getSlotInfo_id_iff hinit hslot out
    refine ⟨_, ?_, hid⟩
    rw [hsound.reply_eq_direct, direct, KeystoreService.getSlotInfo_of_valid _ hinit hslot]

/-- The failing run: the record of slot 5 right after `init`. -/
theorem slot5_names_slot0 :
    let ks := KeystoreService.machine.run [.init] (.construct fun _ => 0)
    ks.isInitialized = true ∧ (ks.keySlots 5).info.id = 0 ∧ ¬ ks.NamesSlot 5 ∧
      (ks.getSlotInfo 5 { id := 5 }).1 = .ok ∧ (ks.getSlotInfo 5 { id := 5 }).2.1.id = 0 ∧
      (machine .aes128).reply (.getKeySlotInfo 5 { id := 5 })
          ((machine .aes128).run [.init] (powerOn .aes128 (fun _ => 0) (fun _ => 0))) =
        .info .ok {} := by
  intro ks
  refine ⟨rfl, rfl, ?_, rfl, rfl, rfl⟩
  intro hnames
  have hzero : (0 : Nat) = 5 := hnames
  contradiction

end WiredHsm

end Ehsm
