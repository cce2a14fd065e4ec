import Ehsm.Hsm.History

/-!
# What the firmware is for

A vault: a bounded bag of open sessions, a partial map from slots to keys, and the
rule that a key is used only under an open session and as its permissions allow.
The vault knows no flags, no tables, no pointers and no cipher strategy, and what
is always true of it is part of its type: at most `kMaxSessions` sessions, each
with an id that was issued, and keys only in slots that exist.

The firmware refines it: every call is answered as the vault answers it, and the
caller's memory is the same.  What holds of all runs of the vault therefore holds
of all runs of the firmware, whichever strategy it is wired with.

## Main results

* `WiredHsm.simulates_vault` — the firmware and the vault move in step.
* `WiredHsm.refines_vault` — answers, memory and contents after every run.
* `WiredHsm.replies_strategy` — the strategy cannot be told from outside.
-/

namespace Ehsm

open Reactive

/-! ## The vault -/

/-- The contents of a started firmware. -/
structure Vault where
  live : Multiset SessionId
  created : Nat
  keys : KeyMap
  card_live : live.card ≤ kMaxSessions
  issued : ∀ x ∈ live, ∃ k, k < created ∧ x = ticket k

namespace Vault

def empty : Vault where
  live := 0
  created := 0
  keys := .empty
  card_live := by simp
  issued := by simp

/-- Open a session while there is room. -/
def createSession (v : Vault) (sessionId : SessionId) : Status × SessionId × Vault :=
  if h : v.live.card < kMaxSessions then
    (.ok, ticket v.created,
      { live := ticket v.created ::ₘ v.live
        created := v.created + 1
        keys := v.keys
        card_live := by
          rw [Multiset.card_cons]
          exact h
        issued := by
          intro x hx
          rcases Multiset.mem_cons.mp hx with hx | hx
          · exact ⟨v.created, Nat.lt_succ_self _, hx⟩
          · obtain ⟨k, hk, hxk⟩ := v.issued x hx
            exact ⟨k, Nat.lt_succ_of_lt hk, hxk⟩ })
  else (.errSessionInvalid, sessionId, v)

/-- Close one session with the id. -/
def closeSession (v : Vault) (sessionId : SessionId) : Status × Vault :=
  if sessionId ∈ v.live then
    (.ok,
      { v with
        live := v.live.erase sessionId
        card_live := (Multiset.card_le_card (Multiset.erase_le _ _)).trans v.card_live
        issued := fun x hx => v.issued x (Multiset.mem_of_mem_erase hx) })
  else (.errSessionInvalid, v)

def isSessionValid (v : Vault) (sessionId : SessionId) : Bool := decide (sessionId ∈ v.live)

/-- Fill a slot that is free. -/
def importKey (v : Vault) (slotId : UInt8) (key : Import) : Status × Vault :=
  if hslot : IsValidSlotId slotId then
    if hfits : key.Fits then
      if (v.keys.lookup slotId).isSome then (.errKeySlotFull, v)
      else (.ok, { v with keys := v.keys.insert slotId key hslot hfits })
    else (.errInvalidParam, v)
  else (.errInvalidKeyId, v)

/-- Empty a slot that is filled. -/
def deleteKey (v : Vault) (slotId : UInt8) : Status × Vault :=
  if IsValidSlotId slotId then
    if (v.keys.lookup slotId).isSome then (.ok, { v with keys := v.keys.erase slotId })
    else (.errInvalidParam, v)
  else (.errInvalidKeyId, v)

def clearAllKeys (v : Vault) : Status × Vault := (.ok, { v with keys := .empty })

def slotInfo (v : Vault) (slotId : UInt8) (info : KeySlotInfo) : Status × KeySlotInfo :=
  if IsValidSlotId slotId then (.ok, infoOf slotId (v.keys.lookup slotId))
  else (.errInvalidKeyId, info)

/-- The slot has a key with the permission. -/
def permits (v : Vault) (slotId : UInt8) (required : KeyPermission) : Bool :=
  match v.keys.lookup slotId with
  | some key => key.permissions &&& required.toByte != 0
  | none => false

/-- The record of the slot shows what is permitted. -/
theorem permits_iff {v : Vault} {slotId : UInt8} {required : KeyPermission} :
    v.permits slotId required = true ↔
      (infoOf slotId (v.keys.lookup slotId)).permissions &&& required.toByte ≠ 0 := by
  unfold permits
  cases v.keys.lookup slotId with
  | none => simp [infoOf]
  | some key => exact bne_iff_ne

/-- The answer to a request to use a key. -/
def request (v : Vault) (required : KeyPermission) (sessionId : SessionId) (slotId : UInt8)
    (input output : Span) : Status :=
  if input.size = 0 ∨ output.size < input.size then .errInvalidParam
  else if sessionId ∉ v.live then .errSessionInvalid
  else if ¬ IsValidSlotId slotId then .errInvalidKeyId
  else if v.permits slotId required then .ok
  else .errAuthFailed

end Vault

/-! ## The vault as a machine -/

/-- A vault that may not be started, and the caller's memory. -/
structure VaultState where
  vault : Option Vault
  memory : Memory

namespace VaultState

/-- A call that needs the vault, and the answer without one. -/
def guarded (s : VaultState) (refused : Answer) (call : Vault → Answer × Vault) :
    Answer × VaultState :=
  match s.vault with
  | none => (refused, s)
  | some v => ((call v).1, { s with vault := some (call v).2 })

/-- A request enciphers the input into the output, and changes nothing else. -/
def crypt (s : VaultState) (required : KeyPermission) (sessionId : SessionId) (slotId : UInt8)
    (input output : Span) : Answer × VaultState :=
  match s.vault with
  | none => (.status .errNotInitialized, s)
  | some v =>
      (.status (v.request required sessionId slotId input output),
        if v.request required sessionId slotId input output = .ok then
          { s with
            memory := transform (· ^^^ kMockEncryptKey) input.start output.start input.size
              s.memory }
        else s)

def step : Event → VaultState → Answer × VaultState
  | .init, s => (.status .ok, { s with vault := some (s.vault.getD .empty) })
  | .deinit, s =>
      (.status (if s.vault.isSome then .ok else .errNotInitialized), { s with vault := none })
  | .isReady, s => (.truth s.vault.isSome, s)
  | .createSession sessionId, s =>
      s.guarded (.session .errNotInitialized sessionId) fun v =>
        (.session (v.createSession sessionId).1 (v.createSession sessionId).2.1,
          (v.createSession sessionId).2.2)
  | .closeSession sessionId, s =>
      s.guarded (.status .errNotInitialized) fun v =>
        (.status (v.closeSession sessionId).1, (v.closeSession sessionId).2)
  | .isSessionValid sessionId, s =>
      (.truth (s.vault.elim false fun v => v.isSessionValid sessionId), s)
  | .encrypt sessionId slotId _ input output, s => s.crypt .encrypt sessionId slotId input output
  | .decrypt sessionId slotId _ input output, s => s.crypt .decrypt sessionId slotId input output
  | .importKey slotId algorithm keyData permissions, s =>
      s.guarded (.status .errNotInitialized) fun v =>
        (.status (v.importKey slotId ⟨algorithm, keyData, permissions⟩).1,
          (v.importKey slotId ⟨algorithm, keyData, permissions⟩).2)
  | .deleteKey slotId, s =>
      s.guarded (.status .errNotInitialized) fun v =>
        (.status (v.deleteKey slotId).1, (v.deleteKey slotId).2)
  | .getKeySlotInfo slotId info, s =>
      s.guarded (.info .errNotInitialized info) fun v =>
        (.info (v.slotInfo slotId info).1 (v.slotInfo slotId info).2, v)
  | .clearAllKeys, s =>
      s.guarded (.status .errNotInitialized) fun v =>
        (.status v.clearAllKeys.1, v.clearAllKeys.2)
  | .getVersion, s => (.version HsmApiImpl.kVersionString, s)
  | .store address byte, s => (.stored, { s with memory := s.memory.write address byte })

def machine : Machine VaultState Event Answer := ⟨step⟩

/-- Before the first start. -/
def start (mem : Memory) : VaultState := ⟨none, mem⟩

/-- The bag of sessions of the vault, as the session manager holds it. -/
def bag (s : VaultState) : SessionBag :=
  s.vault.elim .offline fun v => .online v.live v.created

/-- The map of keys of the vault, as the key store holds it. -/
def map (s : VaultState) : Option KeyMap := s.vault.map Vault.keys

end VaultState

/-! ## The vault is its bag, its map and the memory -/

namespace Answer

/-- What the caller sees of an answer of the session manager. -/
def ofSession : SessionManager.Reply → Answer
  | .status code => .status code
  | .session code sessionId => .session code sessionId
  | .valid answer => .truth answer

/-- What the caller sees of an answer of the key store. -/
def ofKeystore : KeystoreService.Reply → Answer
  | .status code => .status code
  | .key code _ => .status code
  | .info code record => .info code record
  | .occupied answer => .truth answer

end Answer

namespace VaultState

open WiredHsm (sessionOp keystoreOp mapAfter)

/-- A call changes the bag of sessions as the session manager's own call does. -/
theorem bag_next (event : Event) (s : VaultState) :
    (machine.next event s).bag = SessionBag.machine.run (sessionOp event).toList s.bag := by
  obtain ⟨vault, memory⟩ := s
  cases vault with
  | none => cases event <;> rfl
  | some v =>
      cases event with
      | init | deinit | isReady | isSessionValid _ | getKeySlotInfo _ _ | clearAllKeys | getVersion
      | store _ _ => rfl
      | createSession sessionId =>
          simp only [machine, Machine.next, step, guarded, Vault.createSession, bag, sessionOp,
            Option.toList_some, Machine.run_cons, Machine.run_nil, SessionBag.machine,
            SessionBag.step, Option.elim_some]
          split <;> rfl
      | closeSession sessionId =>
          simp only [machine, Machine.next, step, guarded, Vault.closeSession, bag, sessionOp,
            Option.toList_some, Machine.run_cons, Machine.run_nil, SessionBag.machine,
            SessionBag.step, Option.elim_some]
          split <;> rfl
      | encrypt _ _ _ _ _ | decrypt _ _ _ _ _ =>
          simp only [machine, Machine.next, step, crypt]
          split <;> rfl
      | importKey slotId algorithm keyData permissions =>
          simp only [machine, Machine.next, step, guarded, Vault.importKey]
          split
          · split
            · split <;> rfl
            · rfl
          · rfl
      | deleteKey slotId =>
          simp only [machine, Machine.next, step, guarded, Vault.deleteKey]
          split
          · split <;> rfl
          · rfl

/-- A call changes the map of keys as the key store's own call does. -/
theorem map_next (event : Event) (s : VaultState) :
    (machine.next event s).map = mapAfter event s.map := by
  obtain ⟨vault, memory⟩ := s
  cases vault with
  | none => cases event <;> rfl
  | some v =>
      cases event with
      | init | deinit | isReady | isSessionValid _ | getKeySlotInfo _ _ | clearAllKeys | getVersion
      | store _ _ => rfl
      | createSession sessionId =>
          simp only [machine, Machine.next, step, guarded, Vault.createSession]
          split <;> rfl
      | closeSession sessionId =>
          simp only [machine, Machine.next, step, guarded, Vault.closeSession]
          split <;> rfl
      | encrypt _ _ _ _ _ | decrypt _ _ _ _ _ =>
          simp only [machine, Machine.next, step, crypt]
          split <;> rfl
      | importKey slotId algorithm keyData permissions =>
          rw [WiredHsm.mapAfter_of_op rfl]
          simp only [machine, Machine.next, step, guarded, Vault.importKey, KeyMap.step, map,
            Option.map_some]
          split
          · split
            · cases hlookup : v.keys.lookup slotId with
              | some key => rfl
              | none => rfl
            · rfl
          · rfl
      | deleteKey slotId =>
          rw [WiredHsm.mapAfter_of_op rfl]
          simp only [machine, Machine.next, step, guarded, Vault.deleteKey, KeyMap.step, map,
            Option.map_some]
          split
          · cases hlookup : v.keys.lookup slotId with
            | some key => rfl
            | none => rfl
          · rfl

/-! The vault answers as its bag or its map does. -/

section

variable (s : VaultState)

theorem guarded_memory {refused : Answer} {call : Vault → Answer × Vault} :
    s.memory = (s.guarded refused call).2.memory := by
  unfold guarded
  split <;> rfl

/-- A relation of vaults is kept by a call that needs the vault, if it is kept by what the
call does. -/
theorem guarded_rel {s s' : VaultState} {R : Vault → Vault → Prop} {O : Answer → Answer → Prop}
    (h : Option.Rel R s.vault s'.vault) {refused : Answer} (hrefused : O refused refused)
    {call call' : Vault → Answer × Vault}
    (hcall : ∀ v v', R v v' → O (call v).1 (call' v').1 ∧ R (call v).2 (call' v').2) :
    O (s.guarded refused call).1 (s'.guarded refused call').1 ∧
      Option.Rel R (s.guarded refused call).2.vault (s'.guarded refused call').2.vault := by
  obtain ⟨vault, memory⟩ := s
  obtain ⟨vault', memory'⟩ := s'
  cases h with
  | none => exact ⟨hrefused, .none⟩
  | some hv =>
      obtain ⟨hanswer, hnext⟩ := hcall _ _ hv
      exact ⟨hanswer, .some hnext⟩

theorem reply_createSession (sessionId : SessionId) :
    machine.reply (.createSession sessionId) s =
      .ofSession (SessionBag.machine.reply (.createSession sessionId) s.bag) := by
  obtain ⟨vault, memory⟩ := s
  cases vault with
  | none => rfl
  | some v =>
      simp only [machine, Machine.reply, step, guarded, Vault.createSession, bag,
        SessionBag.machine, SessionBag.step, Option.elim_some]
      split <;> rfl

theorem reply_closeSession (sessionId : SessionId) :
    machine.reply (.closeSession sessionId) s =
      .ofSession (SessionBag.machine.reply (.closeSession sessionId) s.bag) := by
  obtain ⟨vault, memory⟩ := s
  cases vault with
  | none => rfl
  | some v =>
      simp only [machine, Machine.reply, step, guarded, Vault.closeSession, bag,
        SessionBag.machine, SessionBag.step, Option.elim_some]
      split <;> rfl

theorem reply_isSessionValid (sessionId : SessionId) :
    machine.reply (.isSessionValid sessionId) s =
      .ofSession (SessionBag.machine.reply (.isSessionValid sessionId) s.bag) := by
  obtain ⟨vault, memory⟩ := s
  cases vault <;> rfl

theorem reply_importKey (slotId : UInt8) (algorithm : Algorithm) (keyData : List UInt8)
    (permissions : UInt8) :
    machine.reply (.importKey slotId algorithm keyData permissions) s =
      .ofKeystore
        (KeyMap.machine.reply (.importKey slotId algorithm keyData permissions) s.map) := by
  obtain ⟨vault, memory⟩ := s
  cases vault with
  | none => rfl
  | some v =>
      simp only [machine, Machine.reply, step, guarded, Vault.importKey, map, Option.map_some,
        KeyMap.machine, KeyMap.step]
      split
      · split
        · cases hlookup : v.keys.lookup slotId <;> rfl
        · rfl
      · rfl

theorem reply_deleteKey (slotId : UInt8) :
    machine.reply (.deleteKey slotId) s =
      .ofKeystore (KeyMap.machine.reply (.deleteKey slotId) s.map) := by
  obtain ⟨vault, memory⟩ := s
  cases vault with
  | none => rfl
  | some v =>
      simp only [machine, Machine.reply, step, guarded, Vault.deleteKey, map, Option.map_some,
        KeyMap.machine, KeyMap.step]
      split
      · cases hlookup : v.keys.lookup slotId <;> rfl
      · rfl

theorem reply_getKeySlotInfo (slotId : UInt8) (info : KeySlotInfo) :
    machine.reply (.getKeySlotInfo slotId info) s =
      .ofKeystore (KeyMap.machine.reply (.getSlotInfo slotId info) s.map) := by
  obtain ⟨vault, memory⟩ := s
  cases vault with
  | none => rfl
  | some v =>
      simp only [machine, Machine.reply, step, guarded, Vault.slotInfo, map, Option.map_some,
        KeyMap.machine, KeyMap.step]
      split <;> rfl

theorem reply_clearAllKeys :
    machine.reply .clearAllKeys s =
      .ofKeystore (KeyMap.machine.reply .clearAll s.map) := by
  obtain ⟨vault, memory⟩ := s
  cases vault <;> rfl

end

end VaultState

/-! ## The firmware refines the vault -/

namespace WiredHsm

variable {strategy : Strategy}

/-- The services hold the bag and the map of the vault, the memory is the same. -/
structure Refines (hsm : WiredHsm strategy) (s : VaultState) : Prop where
  sound : Sound hsm s.map
  sessions : hsm.world.sessions.Represents s.bag
  memory : hsm.memory = s.memory

section

variable {hsm : WiredHsm strategy} {s : VaultState}

/-- The firmware is ready while the vault is started. -/
theorem Refines.isReady (h : Refines hsm s) : hsm.api.isReady = s.vault.isSome := by
  rw [← h.sound.keystore, h.sound.represents.isInitialized, VaultState.map, Option.isSome_map]

/-- The record of a slot shows the permissions of its key, and none without one. -/
theorem Refines.grants_eq (h : Refines hsm s) {v : Vault} (hv : s.vault = some v)
    {slotId : UInt8} (hslot : IsValidSlotId slotId) (required : KeyPermission) :
    grants hsm.world.keystore slotId required = v.permits slotId required := by
  have hentry : KeyMap.entry s.map slotId = v.keys.lookup slotId := by
    rw [VaultState.map, hv]
    rfl
  rw [grants, dif_pos hslot, (h.sound.represents.slot hslot).1, hentry, Vault.permits]
  cases v.keys.lookup slotId with
  | none => simp [infoOf]
  | some key => rfl

/-- The facade's checks come to the vault's answer. -/
theorem Refines.decision_eq (h : Refines hsm s) (required : KeyPermission)
    (sessionId : SessionId) (slotId : UInt8) (input output : Span) :
    decision required sessionId slotId input output hsm =
      s.vault.elim .errNotInitialized fun v =>
        v.request required sessionId slotId input output := by
  have hready := h.isReady
  have hsessions := h.sessions
  cases hv : s.vault with
  | none =>
      rw [hv] at hready
      rw [decision, hready]
      rfl
  | some v =>
      rw [hv] at hready
      rw [VaultState.bag, hv] at hsessions
      have hactive := SessionManager.isSessionValid_of_represents hsessions sessionId
      rw [decision, verdict, hready, hactive, Option.elim_some, Vault.request]
      simp only [firstFailing, Option.isSome_some, if_true, decide_eq_true_eq, BadBuffers,
        Span.isEmpty_iff]
      by_cases hbad : input.size = 0 ∨ output.size < input.size
      · rw [if_neg (not_not.mpr hbad), if_pos hbad]
      rw [if_pos hbad, if_neg hbad]
      by_cases hlive : sessionId ∈ v.live
      · rw [if_pos hlive, if_neg (not_not.mpr hlive)]
        by_cases hslot : IsValidSlotId slotId
        · rw [if_pos hslot, if_neg (not_not.mpr hslot), h.grants_eq hv hslot]
        · rw [if_neg hslot, if_pos hslot]
      · rw [if_neg hlive, if_pos hlive]

/-- A request on both sides. -/
theorem Refines.directCrypt (h : Refines hsm s) (required : KeyPermission)
    (sessionId : SessionId) (slotId : UInt8) (input output : Span) :
    (directCrypt required sessionId slotId input output hsm).1 =
        (s.crypt required sessionId slotId input output).1 ∧
      (directCrypt required sessionId slotId input output hsm).2.memory =
        (s.crypt required sessionId slotId input output).2.memory := by
  have hdecision := h.decision_eq required sessionId slotId input output
  rw [WiredHsm.directCrypt, VaultState.crypt]
  cases hv : s.vault with
  | none =>
      rw [hv, Option.elim_none] at hdecision
      rw [hdecision]
      exact ⟨rfl, h.memory⟩
  | some v =>
      rw [hv, Option.elim_some] at hdecision
      rw [hdecision]
      refine ⟨rfl, ?_⟩
      dsimp only
      by_cases hok : v.request required sessionId slotId input output = .ok
      · rw [if_pos hok, if_pos hok, xorLoop_eq_transform, h.memory]
      · rw [if_neg hok, if_neg hok]
        exact h.memory

theorem Refines.session_answer (h : Refines hsm s) (op : SessionManager.Op) :
    SessionManager.machine.reply op hsm.world.sessions = SessionBag.machine.reply op s.bag :=
  SessionManager.simulates.reply rfl h.sessions

theorem Refines.keystore_answer (h : Refines hsm s) (op : KeystoreService.Op) :
    KeystoreService.machine.reply op hsm.world.keystore = KeyMap.machine.reply op s.map :=
  KeystoreService.simulates.reply rfl h.sound.represents

/-- **One call on both sides** is answered alike and leaves the same memory. -/
theorem Refines.step (h : Refines hsm s) (event : Event) :
    (direct event hsm).1 = VaultState.machine.reply event s ∧
      (direct event hsm).2.memory = (VaultState.machine.next event s).memory := by
  have hready := h.isReady
  have hmemory := h.memory
  cases event with
  | init =>
      refine ⟨rfl, ?_⟩
      simp only [direct]
      split <;> exact hmemory
  | deinit =>
      simp only [direct, hready, VaultState.machine, Machine.reply, Machine.next, VaultState.step]
      cases s.vault <;> exact ⟨rfl, hmemory⟩
  | isReady => exact ⟨congrArg Answer.truth hready, hmemory⟩
  | getVersion => exact ⟨rfl, hmemory⟩
  | store address byte =>
      exact ⟨rfl, congrArg (fun mem => Memory.write mem address byte) hmemory⟩
  | encrypt sessionId slotId algorithm input output =>
      exact h.directCrypt .encrypt sessionId slotId input output
  | decrypt sessionId slotId algorithm input output =>
      exact h.directCrypt .decrypt sessionId slotId input output
  | createSession sessionId =>
      have hanswer := congrArg Answer.ofSession (h.session_answer (.createSession sessionId))
      exact ⟨hanswer.trans (s.reply_createSession sessionId).symm, hmemory.trans s.guarded_memory⟩
  | closeSession sessionId =>
      have hanswer := congrArg Answer.ofSession (h.session_answer (.closeSession sessionId))
      exact ⟨hanswer.trans (s.reply_closeSession sessionId).symm, hmemory.trans s.guarded_memory⟩
  | isSessionValid sessionId =>
      have hanswer := congrArg Answer.ofSession (h.session_answer (.isSessionValid sessionId))
      exact ⟨hanswer.trans (s.reply_isSessionValid sessionId).symm, hmemory⟩
  | importKey slotId algorithm keyData permissions =>
      have hanswer := congrArg Answer.ofKeystore
        (h.keystore_answer (.importKey slotId algorithm keyData permissions))
      exact ⟨hanswer.trans (s.reply_importKey slotId algorithm keyData permissions).symm,
        hmemory.trans s.guarded_memory⟩
  | deleteKey slotId =>
      have hanswer := congrArg Answer.ofKeystore (h.keystore_answer (.deleteKey slotId))
      exact ⟨hanswer.trans (s.reply_deleteKey slotId).symm, hmemory.trans s.guarded_memory⟩
  | getKeySlotInfo slotId info =>
      have hanswer := congrArg Answer.ofKeystore (h.keystore_answer (.getSlotInfo slotId info))
      exact ⟨hanswer.trans (s.reply_getKeySlotInfo slotId info).symm,
        hmemory.trans s.guarded_memory⟩
  | clearAllKeys =>
      have hanswer := congrArg Answer.ofKeystore (h.keystore_answer .clearAll)
      exact ⟨hanswer.trans s.reply_clearAllKeys.symm, hmemory.trans s.guarded_memory⟩

/-- After one call the services hold the vault that the call leaves. -/
theorem Refines.next (h : Refines hsm s) (event : Event) :
    Refines ((machine strategy).next event hsm) (VaultState.machine.next event s) := by
  constructor
  · rw [VaultState.map_next]
    exact h.sound.next event
  · rw [VaultState.bag_next, h.sound.sessions_next]
    exact SessionManager.simulates.run_eq _ h.sessions
  · rw [h.sound.next_eq_direct]
    exact (h.step event).2

end

/-- **The firmware and the vault move in step**: equal calls get equal answers. -/
theorem simulates_vault (strategy : Strategy) :
    Machine.Simulation (machine strategy) VaultState.machine Refines Eq Eq := by
  apply Machine.Simulation.of_step
  intro event hsm s h
  refine ⟨?_, h.next event⟩
  rw [h.sound.reply_eq_direct]
  exact (h.step event).1

theorem refines_start (strategy : Strategy) (accessCount : Fin kMaxKeySlots → UInt32)
    (mem : Memory) : Refines (powerOn strategy accessCount mem) (.start mem) :=
  ⟨sound_powerOn strategy accessCount mem, SessionManager.represents_construct, rfl⟩

/-- The vault after a run of calls. -/
def vaultAfter (mem : Memory) (events : List Event) : VaultState :=
  VaultState.machine.run events (.start mem)

theorem refines_run (strategy : Strategy) (accessCount : Fin kMaxKeySlots → UInt32)
    (mem : Memory) (events : List Event) :
    Refines ((machine strategy).run events (powerOn strategy accessCount mem))
      (vaultAfter mem events) :=
  (simulates_vault strategy).run_eq events (refines_start strategy accessCount mem)

/--
**The firmware is a vault.**  After any run from power-on, with either strategy and
whatever the access counters held, the answers are those of the vault and the caller's
memory is the same.  While the vault is up, the session table holds its sessions and
the slots hold its keys and nothing else; while it is down, no session is live and the
record and the key of every slot are the default ones.
-/
theorem refines_vault (strategy : Strategy) (accessCount : Fin kMaxKeySlots → UInt32)
    (mem : Memory) (events : List Event) :
    let hsm := (machine strategy).run events (powerOn strategy accessCount mem)
    let s := vaultAfter mem events
    (machine strategy).replies events (powerOn strategy accessCount mem) =
        VaultState.machine.replies events (.start mem) ∧
      hsm.memory = s.memory ∧ hsm.api.isReady = s.vault.isSome ∧
      (∀ v, s.vault = some v →
        hsm.world.sessions.live = v.live ∧
          ∀ slotId (hslot : IsValidSlotId slotId),
            (hsm.world.keystore.keySlots (slotIndex slotId hslot)).info =
                infoOf slotId (v.keys.lookup slotId) ∧
              (hsm.world.keystore.keySlots (slotIndex slotId hslot)).key =
                keyOf (v.keys.lookup slotId)) ∧
      (s.vault = none →
        hsm.world.sessions.live = 0 ∧
          ∀ i, (hsm.world.keystore.keySlots i).info = {} ∧
            (hsm.world.keystore.keySlots i).key = {}) := by
  intro hsm s
  have hrefines : Refines hsm s := refines_run strategy accessCount mem events
  have hsessions := hrefines.sessions
  have hkeys := hrefines.sound.represents
  refine ⟨?_, hrefines.memory, hrefines.isReady, ?_, ?_⟩
  · exact (simulates_vault strategy).replies_eq events (refines_start strategy accessCount mem)
  · intro v hv
    rw [VaultState.bag, hv] at hsessions
    rw [VaultState.map, hv] at hkeys
    refine ⟨hsessions.2.1, ?_⟩
    intro slotId hslot
    exact hkeys.slot hslot
  · intro hv
    rw [VaultState.bag, hv] at hsessions
    rw [VaultState.map, hv] at hkeys
    refine ⟨hsessions.2, ?_⟩
    intro i
    obtain ⟨slotId, hslot, rfl⟩ := KeystoreService.exists_slotIndex i
    exact hkeys.slot hslot

/-- **The strategy cannot be told from outside**, nor can what the access counters
held at power-on: any two firmwares answer every run of calls alike and leave the
same memory. -/
theorem replies_strategy (strategy strategy' : Strategy)
    (accessCount accessCount' : Fin kMaxKeySlots → UInt32) (mem : Memory) (events : List Event) :
    (machine strategy).replies events (powerOn strategy accessCount mem) =
        (machine strategy').replies events (powerOn strategy' accessCount' mem) ∧
      ((machine strategy).run events (powerOn strategy accessCount mem)).memory =
        ((machine strategy').run events (powerOn strategy' accessCount' mem)).memory := by
  have hrefines := refines_start strategy accessCount mem
  have hrefines' := refines_start strategy' accessCount' mem
  constructor
  · rw [(simulates_vault strategy).replies_eq events hrefines,
      (simulates_vault strategy').replies_eq events hrefines']
  · rw [((simulates_vault strategy).run_eq events hrefines).memory,
      ((simulates_vault strategy').run_eq events hrefines').memory]

end WiredHsm

end Ehsm
