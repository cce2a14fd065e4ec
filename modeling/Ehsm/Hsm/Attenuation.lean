import Ehsm.Api.Mediation
import Ehsm.Hsm.Vault

/-!
# Fewer permissions

A caller may import its keys with fewer permissions than it could.  What does it
lose?  Two runs of the same calls are compared, which differ in that each key of the
second run has the permissions it has in the first, and perhaps more.  The first run
is answered as the second, except where it is denied the use of a key that the
second may use, and except for the permissions a slot record shows.  Nothing else
depends on a permission, so as long as nothing is denied that the other run is granted,
the caller's memory does not tell that permissions are missing.

## Main results

* `VaultState.simulates_within` — the two runs move in step.
* `WiredHsm.attenuation` — fewer permissions only ever deny.
-/

namespace Ehsm

open Reactive

/-! ## More permissions -/

/-- The permissions of the first are among those of the second. -/
def PermissionsWithin (p q : UInt8) : Prop := p &&& q = p

instance (p q : UInt8) : Decidable (PermissionsWithin p q) := by
  unfold PermissionsWithin
  infer_instance

/-- A bit that is in the first is in the second. -/
theorem PermissionsWithin.bit {p q : UInt8} (h : PermissionsWithin p q) {bits : UInt8}
    (hbit : p &&& bits ≠ 0) : q &&& bits ≠ 0 := by
  intro hzero
  apply hbit
  calc p &&& bits
      _ = p &&& q &&& bits := by rw [h]
      _ = p &&& (q &&& bits) := UInt8.and_assoc p q bits
      _ = 0 := by rw [hzero, UInt8.and_zero]

/-- The same key, perhaps with more permissions. -/
structure Import.Within (key key' : Import) : Prop where
  algorithm : key.algorithm = key'.algorithm
  keyData : key.keyData = key'.keyData
  permissions : PermissionsWithin key.permissions key'.permissions

theorem Import.Within.refl (key : Import) : key.Within key := ⟨rfl, rfl, UInt8.and_self⟩

theorem Import.Within.fits {key key' : Import} (h : key.Within key') : key.Fits ↔ key'.Fits := by
  rw [Import.Fits, Import.Fits, h.keyData]

/-- The same slots are filled, with the same keys. -/
def KeyMap.Within (m m' : KeyMap) : Prop :=
  ∀ slotId, Option.Rel Import.Within (m.lookup slotId) (m'.lookup slotId)

/-- The call of one run and that of the other. -/
inductive Event.Within : Event → Event → Prop where
  | same (event : Event) : Event.Within event event
  | importKey (slotId : UInt8) (algorithm : Algorithm) (keyData : List UInt8) {p q : UInt8}
      (h : PermissionsWithin p q) :
      Event.Within (.importKey slotId algorithm keyData p) (.importKey slotId algorithm keyData q)

/-- The answer to a call of one run and the answer in the other. -/
inductive Answer.Within (event : Event) : Answer → Answer → Prop where
  | same (answer : Answer) : Answer.Within event answer answer
  | denied (h : Hsm.IsRequest event) :
      Answer.Within event (.status .errAuthFailed) (.status .ok)
  | info (code : Status) (record : KeySlotInfo) {q : UInt8}
      (h : PermissionsWithin record.permissions q) :
      Answer.Within event (.info code record) (.info code { record with permissions := q })

/-- A call of one run with its answer, and the same in the other. -/
def Exchange.Within (x x' : Event × Answer) : Prop :=
  x.1.Within x'.1 ∧ x.2.Within x.1 x'.2

/-- The answers where one run is denied what the other is granted. -/
def Answer.denial : Answer × Answer := (.status .errAuthFailed, .status .ok)

/-! ## Vaults -/

namespace KeyMap

variable {m m' : KeyMap}

theorem Within.refl (m : KeyMap) : m.Within m := by
  intro slotId
  cases m.lookup slotId with
  | none => exact .none
  | some key => exact .some (.refl key)

theorem Within.isSome (h : m.Within m') (slotId : UInt8) :
    (m.lookup slotId).isSome = (m'.lookup slotId).isSome := by
  have hrel := h slotId
  generalize m.lookup slotId = entry at hrel ⊢
  generalize m'.lookup slotId = entry' at hrel ⊢
  cases hrel <;> rfl

theorem Within.insert (h : m.Within m') {slotId : UInt8} {key key' : Import}
    (hkey : key.Within key') (hslot : IsValidSlotId slotId) (hfits : key.Fits)
    (hfits' : key'.Fits) :
    (m.insert slotId key hslot hfits).Within (m'.insert slotId key' hslot hfits') := by
  intro other
  by_cases hother : other = slotId
  · subst hother
    simp only [KeyMap.insert, Function.update_self]
    exact .some hkey
  · simp only [KeyMap.insert, Function.update_of_ne hother]
    exact h other

theorem Within.erase (h : m.Within m') (slotId : UInt8) :
    (m.erase slotId).Within (m'.erase slotId) := by
  intro other
  by_cases hother : other = slotId
  · subst hother
    simp only [KeyMap.erase, Function.update_self]
    exact .none
  · simp only [KeyMap.erase, Function.update_of_ne hother]
    exact h other

end KeyMap

namespace Vault

/-- The same sessions, and keys with at least the permissions. -/
structure Within (v v' : Vault) : Prop where
  live : v.live = v'.live
  created : v.created = v'.created
  keys : v.keys.Within v'.keys

theorem Within.refl (v : Vault) : v.Within v := ⟨rfl, rfl, .refl v.keys⟩

variable {v v' : Vault}

theorem Within.createSession (h : v.Within v') (sessionId : SessionId) :
    (v.createSession sessionId).1 = (v'.createSession sessionId).1 ∧
      (v.createSession sessionId).2.1 = (v'.createSession sessionId).2.1 ∧
      (v.createSession sessionId).2.2.Within (v'.createSession sessionId).2.2 := by
  obtain ⟨hlive, hcreated, hkeys⟩ := h
  obtain ⟨live, created, keys, _, _⟩ := v
  obtain ⟨live', created', keys', _, _⟩ := v'
  obtain rfl : live = live' := hlive
  obtain rfl : created = created' := hcreated
  by_cases hroom : live.card < kMaxSessions
  · simp only [Vault.createSession, dif_pos hroom]
    exact ⟨trivial, trivial, rfl, rfl, hkeys⟩
  · simp only [Vault.createSession, dif_neg hroom]
    exact ⟨trivial, trivial, rfl, rfl, hkeys⟩

theorem Within.closeSession (h : v.Within v') (sessionId : SessionId) :
    (v.closeSession sessionId).1 = (v'.closeSession sessionId).1 ∧
      (v.closeSession sessionId).2.Within (v'.closeSession sessionId).2 := by
  obtain ⟨hlive, hcreated, hkeys⟩ := h
  obtain ⟨live, created, keys, _, _⟩ := v
  obtain ⟨live', created', keys', _, _⟩ := v'
  obtain rfl : live = live' := hlive
  obtain rfl : created = created' := hcreated
  by_cases hmem : sessionId ∈ live
  · simp only [Vault.closeSession, if_pos hmem]
    exact ⟨trivial, rfl, rfl, hkeys⟩
  · simp only [Vault.closeSession, if_neg hmem]
    exact ⟨trivial, rfl, rfl, hkeys⟩

theorem Within.importKey (h : v.Within v') (slotId : UInt8) {key key' : Import}
    (hkey : key.Within key') :
    (v.importKey slotId key).1 = (v'.importKey slotId key').1 ∧
      (v.importKey slotId key).2.Within (v'.importKey slotId key').2 := by
  unfold Vault.importKey
  rw [← h.keys.isSome slotId]
  split
  · next hslot =>
      by_cases hfits : key.Fits
      · have hfits' := hkey.fits.mp hfits
        rw [dif_pos hfits, dif_pos hfits']
        split
        · exact ⟨rfl, h⟩
        · exact ⟨rfl, h.live, h.created, h.keys.insert hkey hslot hfits hfits'⟩
      · rw [dif_neg hfits, dif_neg fun hfits' => hfits (hkey.fits.mpr hfits')]
        exact ⟨rfl, h⟩
  · exact ⟨rfl, h⟩

theorem Within.deleteKey (h : v.Within v') (slotId : UInt8) :
    (v.deleteKey slotId).1 = (v'.deleteKey slotId).1 ∧
      (v.deleteKey slotId).2.Within (v'.deleteKey slotId).2 := by
  unfold Vault.deleteKey
  rw [← h.keys.isSome slotId]
  split
  · split
    · exact ⟨rfl, h.live, h.created, h.keys.erase slotId⟩
    · exact ⟨rfl, h⟩
  · exact ⟨rfl, h⟩

theorem Within.slotInfo (h : v.Within v') (event : Event) (slotId : UInt8)
    (info : KeySlotInfo) :
    Answer.Within event (.info (v.slotInfo slotId info).1 (v.slotInfo slotId info).2)
      (.info (v'.slotInfo slotId info).1 (v'.slotInfo slotId info).2) := by
  unfold Vault.slotInfo
  split
  · have hrel := h.keys slotId
    generalize v.keys.lookup slotId = entry at hrel ⊢
    generalize v'.keys.lookup slotId = entry' at hrel ⊢
    cases hrel with
    | none => exact .same _
    | @some key key' hkey =>
        have hrecord : infoOf slotId (some key') =
            { infoOf slotId (some key) with permissions := key'.permissions } := by
          simp only [infoOf, hkey.algorithm, hkey.keyData]
        rw [hrecord]
        exact .info .ok _ hkey.permissions
  · exact .same _

/-- What is permitted with fewer permissions is permitted with more. -/
theorem Within.permits (h : v.Within v') {slotId : UInt8} {required : KeyPermission}
    (hpermits : v.permits slotId required = true) : v'.permits slotId required = true := by
  unfold Vault.permits at hpermits ⊢
  have hrel := h.keys slotId
  generalize v.keys.lookup slotId = entry at hrel hpermits
  generalize v'.keys.lookup slotId = entry' at hrel ⊢
  cases hrel with
  | none => cases hpermits
  | some hkey =>
      rw [bne_iff_ne] at hpermits ⊢
      exact hkey.permissions.bit hpermits

/-- A request gets the same answer, or is denied only with fewer permissions. -/
theorem Within.request (h : v.Within v') (required : KeyPermission) (sessionId : SessionId)
    (slotId : UInt8) (input output : Span) :
    v.request required sessionId slotId input output =
        v'.request required sessionId slotId input output ∨
      (v.request required sessionId slotId input output = .errAuthFailed ∧
        v'.request required sessionId slotId input output = .ok) := by
  unfold Vault.request
  rw [← h.live]
  split
  · exact .inl rfl
  split
  · exact .inl rfl
  split
  · exact .inl rfl
  cases hnarrow : v.permits slotId required with
  | true =>
      rw [h.permits hnarrow]
      exact .inl rfl
  | false =>
      cases hwide : v'.permits slotId required with
      | false => exact .inl rfl
      | true => exact .inr ⟨rfl, rfl⟩

end Vault

namespace VaultState

/-- Both are started or neither is; the memory is left open. -/
def Within (s s' : VaultState) : Prop := Option.Rel Vault.Within s.vault s'.vault

section

variable {s s' : VaultState}

/-- A call that needs the vault, on both sides. -/
theorem Within.guarded (h : Within s s') (event : Event) (refused : Answer)
    (call call' : Vault → Answer × Vault)
    (hcall : ∀ v v', v.Within v' →
      (call v).1.Within event (call' v').1 ∧ (call v).2.Within (call' v').2) :
    (s.guarded refused call).1.Within event (s'.guarded refused call').1 ∧
      Within (s.guarded refused call).2 (s'.guarded refused call').2 ∧
      (s.memory = s'.memory →
        (s.guarded refused call).2.memory = (s'.guarded refused call').2.memory) := by
  obtain ⟨hanswer, hnext⟩ := guarded_rel h (.same refused) hcall
  refine ⟨hanswer, hnext, fun hmemory => ?_⟩
  rw [← guarded_memory, ← guarded_memory]
  exact hmemory

/-- A request on both sides. -/
theorem Within.crypt (h : Within s s') {event : Event} (hrequest : Hsm.IsRequest event)
    (required : KeyPermission) (sessionId : SessionId) (slotId : UInt8) (input output : Span) :
    let result := s.crypt required sessionId slotId input output
    let result' := s'.crypt required sessionId slotId input output
    result.1.Within event result'.1 ∧ Within result.2 result'.2 ∧
      (s.memory = s'.memory → (result.1, result'.1) ≠ Answer.denial →
        result.2.memory = result'.2.memory) := by
  obtain ⟨vault, memory⟩ := s
  obtain ⟨vault', memory'⟩ := s'
  have hrel : Option.Rel Vault.Within vault vault' := h
  cases hrel with
  | none => exact ⟨.same _, .none, fun hmemory _ => hmemory⟩
  | @some v v' hv =>
      have hkept : ∀ (granted : Prop) [Decidable granted] (mem mem' : Memory) (w : Option Vault),
          (if granted then (⟨w, mem⟩ : VaultState) else ⟨w, mem'⟩).vault = w := by
        intro granted _ mem mem' w
        split <;> rfl
      simp only [VaultState.crypt]
      rcases hv.request required sessionId slotId input output with hsame | ⟨hdenied, hgranted⟩
      · rw [hsame]
        refine ⟨.same _, ?_, ?_⟩
        · rw [Within, hkept, hkept]
          exact .some hv
        · intro hmemory _
          rw [hmemory]
          split <;> rfl
      · rw [hdenied, hgranted]
        refine ⟨.denied hrequest, ?_, fun _ hne => absurd rfl hne⟩
        rw [Within, hkept, hkept]
        exact .some hv

/-- The same call on both sides. -/
theorem Within.same_step (h : Within s s') (event : Event) :
    (machine.reply event s).Within event (machine.reply event s') ∧
      Within (machine.next event s) (machine.next event s') ∧
      (s.memory = s'.memory →
        (machine.reply event s, machine.reply event s') ≠ Answer.denial →
          (machine.next event s).memory = (machine.next event s').memory) := by
  have hguarded : ∀ (refused : Answer) {call : Vault → Answer × Vault},
      (∀ v v', v.Within v' →
        (call v).1.Within event (call v').1 ∧ (call v).2.Within (call v').2) →
        (s.guarded refused call).1.Within event (s'.guarded refused call).1 ∧
          Within (s.guarded refused call).2 (s'.guarded refused call).2 ∧
          (s.memory = s'.memory →
            ((s.guarded refused call).1, (s'.guarded refused call).1) ≠ Answer.denial →
              (s.guarded refused call).2.memory = (s'.guarded refused call).2.memory) := by
    intro refused call hcall
    obtain ⟨hanswer, hnext, hmemory⟩ := h.guarded event refused call call hcall
    exact ⟨hanswer, hnext, fun hsame _ => hmemory hsame⟩
  have hanswer : ∀ {answer answer' : Answer}, answer = answer' → answer.Within event answer' := by
    rintro answer _ rfl
    exact .same answer
  cases event with
  | encrypt sessionId slotId _ input output =>
      exact h.crypt (by exact trivial) .encrypt sessionId slotId input output
  | decrypt sessionId slotId _ input output =>
      exact h.crypt (by exact trivial) .decrypt sessionId slotId input output
  | getVersion => exact ⟨.same _, h, fun hmemory _ => hmemory⟩
  | store address byte =>
      exact ⟨.same _, h, fun hmemory _ =>
        congrArg (fun mem => Memory.write mem address byte) hmemory⟩
  | init | deinit | isReady =>
      obtain ⟨vault, memory⟩ := s
      obtain ⟨vault', memory'⟩ := s'
      have hrel : Option.Rel Vault.Within vault vault' := h
      cases hrel with
      | none => exact ⟨.same _, by constructor <;> exact .refl _, fun hmemory _ => hmemory⟩
      | some hv => exact ⟨.same _, by constructor <;> exact hv, fun hmemory _ => hmemory⟩
  | isSessionValid sessionId =>
      refine ⟨hanswer ?_, h, fun hmemory _ => hmemory⟩
      obtain ⟨vault, memory⟩ := s
      obtain ⟨vault', memory'⟩ := s'
      have hrel : Option.Rel Vault.Within vault vault' := h
      cases hrel with
      | none => rfl
      | some hv => exact congrArg (fun live => Answer.truth (decide (sessionId ∈ live))) hv.live
  | createSession sessionId =>
      apply hguarded
      intro v v' hv
      obtain ⟨hcode, hout, hnext⟩ := hv.createSession sessionId
      exact ⟨hanswer (by rw [hcode, hout]), hnext⟩
  | closeSession sessionId =>
      apply hguarded
      intro v v' hv
      obtain ⟨hcode, hnext⟩ := hv.closeSession sessionId
      exact ⟨hanswer (congrArg Answer.status hcode), hnext⟩
  | importKey slotId algorithm keyData permissions =>
      apply hguarded
      intro v v' hv
      obtain ⟨hcode, hnext⟩ := hv.importKey slotId (.refl ⟨algorithm, keyData, permissions⟩)
      exact ⟨hanswer (congrArg Answer.status hcode), hnext⟩
  | deleteKey slotId =>
      apply hguarded
      intro v v' hv
      obtain ⟨hcode, hnext⟩ := hv.deleteKey slotId
      exact ⟨hanswer (congrArg Answer.status hcode), hnext⟩
  | getKeySlotInfo slotId info =>
      apply hguarded
      exact fun v v' hv => ⟨hv.slotInfo _ slotId info, hv⟩
  | clearAllKeys =>
      apply hguarded
      exact fun v v' hv => ⟨.same _, hv.live, hv.created, .refl _⟩

/-- **One call of the two runs.**  As long as nothing is denied in one and granted in the
other the memory stays the same. -/
theorem Within.step (h : Within s s') {event event' : Event} (hevent : event.Within event') :
    (machine.reply event s).Within event (machine.reply event' s') ∧
      Within (machine.next event s) (machine.next event' s') ∧
      (s.memory = s'.memory →
        (machine.reply event s, machine.reply event' s') ≠ Answer.denial →
          (machine.next event s).memory = (machine.next event' s').memory) := by
  cases hevent with
  | same => exact h.same_step event
  | @importKey slotId algorithm keyData p q hpq =>
      have hkey : Import.Within ⟨algorithm, keyData, p⟩ ⟨algorithm, keyData, q⟩ :=
        ⟨rfl, rfl, hpq⟩
      have himport : ∀ v v' : Vault, v.Within v' →
          Answer.Within (.importKey slotId algorithm keyData p)
              (.status (v.importKey slotId ⟨algorithm, keyData, p⟩).1)
              (.status (v'.importKey slotId ⟨algorithm, keyData, q⟩).1) ∧
            (v.importKey slotId ⟨algorithm, keyData, p⟩).2.Within
              (v'.importKey slotId ⟨algorithm, keyData, q⟩).2 := by
        intro v v' hv
        obtain ⟨hcode, hnext⟩ := hv.importKey slotId hkey
        rw [hcode]
        exact ⟨.same _, hnext⟩
      obtain ⟨hanswer, hnext, hmemory⟩ := h.guarded _ (.status .errNotInitialized)
        (fun v => (.status (v.importKey slotId ⟨algorithm, keyData, p⟩).1,
          (v.importKey slotId ⟨algorithm, keyData, p⟩).2))
        (fun v => (.status (v.importKey slotId ⟨algorithm, keyData, q⟩).1,
          (v.importKey slotId ⟨algorithm, keyData, q⟩).2)) himport
      exact ⟨hanswer, hnext, fun hsame _ => hmemory hsame⟩

end

/-- The two runs move in step, call and answer together. -/
theorem simulates_within :
    Machine.Simulation machine.logged machine.logged Within Event.Within Exchange.Within where
  reply := fun hevent h => ⟨hevent, (h.step hevent).1⟩
  next := fun hevent h => (h.step hevent).2.1

/-- Runs in which nothing is denied in the one and granted in the other leave the same
memory. -/
theorem Within.memory_run {events events' : List Event}
    (hevents : List.Forall₂ Event.Within events events') {s s' : VaultState} (h : Within s s')
    (hmemory : s.memory = s'.memory)
    (hallowed : Answer.denial ∉ (machine.replies events s).zip (machine.replies events' s')) :
    (machine.run events s).memory = (machine.run events' s').memory := by
  induction hevents generalizing s s' with
  | nil => exact hmemory
  | cons hevent _ ih =>
      obtain ⟨-, hnext, hsame⟩ := h.step hevent
      rw [Machine.replies_cons, Machine.replies_cons, List.zip_cons_cons, List.mem_cons,
        not_or] at hallowed
      obtain ⟨hhead, hrest⟩ := hallowed
      exact ih hnext (hsame hmemory fun hdenied => hhead hdenied.symm) hrest

end VaultState

/-! ## The firmware -/

namespace WiredHsm

theorem sessionOp_within {events events' : List Event}
    (h : List.Forall₂ Event.Within events events') :
    events.filterMap sessionOp = events'.filterMap sessionOp := by
  induction h with
  | nil => rfl
  | cons hevent _ ih =>
      cases hevent with
      | same event => rw [List.filterMap_cons, List.filterMap_cons, ih]
      | importKey slotId algorithm keyData _ => exact ih

/--
**Fewer permissions only ever deny.**  Let two runs from power-on make the same calls,
but that the keys of the second are imported with at least the permissions they have
in the first.  Then the first run is answered as the second, except for requests it is
denied and the second is granted and for the permissions in a slot record, and the
session tables stay the same.  If no request is denied in the first run and granted in
the second, the two leave the same memory.
-/
theorem attenuation (strategy : Strategy) (accessCount : Fin kMaxKeySlots → UInt32) (mem : Memory)
    (events events' : List Event) (hwithin : List.Forall₂ Event.Within events events') :
    let start := powerOn strategy accessCount mem
    let hsm := (machine strategy).run events start
    let hsm' := (machine strategy).run events' start
    List.Forall₂ Exchange.Within ((machine strategy).trace events start)
        ((machine strategy).trace events' start) ∧
      hsm.world.sessions = hsm'.world.sessions ∧
      (Answer.denial ∉ ((machine strategy).replies events start).zip
          ((machine strategy).replies events' start) →
        hsm.memory = hsm'.memory) := by
  intro start hsm hsm'
  have hstart : VaultState.Within (.start mem) (.start mem) := .none
  have hrefines := refines_start strategy accessCount mem
  have hsimulates := simulates_vault strategy
  have hsound := sound_powerOn strategy accessCount mem
  refine ⟨?_, ?_, ?_⟩
  · rw [hsimulates.trace_eq events hrefines, hsimulates.trace_eq events' hrefines,
      ← Machine.replies_logged, ← Machine.replies_logged]
    exact VaultState.simulates_within.replies hwithin hstart
  · rw [hsound.sessions_run events, hsound.sessions_run events', sessionOp_within hwithin]
  · rw [hsimulates.replies_eq events hrefines, hsimulates.replies_eq events' hrefines]
    intro hallowed
    have hmemory := (hsimulates.run_eq events hrefines).memory
    have hmemory' := (hsimulates.run_eq events' hrefines).memory
    rw [hmemory, hmemory']
    exact hstart.memory_run hwithin rfl hallowed

/-- A key for enciphering only, against one for both directions, and a request that
both runs are denied. -/
theorem attenuation_encrypt_only :
    ((machine .aes128).run
        [.init, .createSession 0, .importKey 2 .aes128 [7] 0x01, .encrypt 1 2 .aes128 ⟨0, 4⟩ ⟨4, 4⟩,
          .decrypt 1 3 .aes128 ⟨4, 4⟩ ⟨0, 4⟩]
        (powerOn .aes128 (fun _ => 0) (fun _ => 0))).memory =
      ((machine .aes128).run
        [.init, .createSession 0, .importKey 2 .aes128 [7] 0x03, .encrypt 1 2 .aes128 ⟨0, 4⟩ ⟨4, 4⟩,
          .decrypt 1 3 .aes128 ⟨4, 4⟩ ⟨0, 4⟩]
        (powerOn .aes128 (fun _ => 0) (fun _ => 0))).memory := by
  refine (attenuation .aes128 (fun _ => 0) (fun _ => 0) _ _ ?_).2.2 (by decide +kernel)
  exact .cons (.same _) (.cons (.same _) (.cons (.importKey 2 .aes128 [7] (by decide))
    (.cons (.same _) (.cons (.same _) .nil))))

end WiredHsm

end Ehsm
