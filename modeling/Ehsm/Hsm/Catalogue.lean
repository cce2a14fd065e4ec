import Ehsm.Api.Startup
import Ehsm.Hsm.Frame
import Ehsm.Hsm.Restart

/-!
# Which status codes a call can return

The catalogue of the API: for each call, with the arguments it is given, the status
codes it may be answered with.  Fifteen codes are declared and seven of them are
ever returned.  Which of these, depends on the arguments where they alone rule a
code out: no session has the id `0` or `kInvalidSessionId`, a slot id is valid or
not, buffers fit or do not, a key has an admissible length or not.

The catalogue is exact in every reachable state.  No other code is ever returned,
and no state is a dead end: whatever was done before, each of the codes can still
be brought about.  For a session id this takes up to `2³² − 2` creations.

## Main results

* `WiredHsm.codes_exact` — a code can be returned later on exactly if it is in the
  catalogue of the call.
-/

namespace Ehsm

open Reactive

open WiredHsm (statusOf sessionOp keystoreOp mapAfter)

/-- An id that a creation may return. -/
abbrev Issuable (sessionId : SessionId) : Prop := sessionId ≠ 0 ∧ sessionId ≠ kInvalidSessionId

theorem issuable_ticket (k : Nat) : Issuable (ticket k) := ⟨ticket_ne_zero k, ticket_ne_invalid k⟩

/-- Every other id is issued once the counter has come to it. -/
theorem exists_ticket_eq {sessionId : SessionId} (h : Issuable sessionId) :
    ∃ k, ticket k = sessionId := by
  obtain ⟨hzero, hinvalid⟩ := h
  have hlt := sessionId.toNat_lt
  have hpos : sessionId.toNat ≠ 0 := fun h0 => hzero (UInt32.toNat_inj.mp h0)
  have hlast : sessionId.toNat ≠ 4294967295 := fun h1 => hinvalid (UInt32.toNat_inj.mp h1)
  have hperiod := idPeriod_eq
  refine ⟨sessionId.toNat - 1, UInt32.toNat_inj.mp ?_⟩
  rw [ticket_toNat_of_lt (by omega)]
  omega

/-! ## The catalogue -/

namespace Event

/-- The codes of an `encrypt` or `decrypt` request. -/
def requestCodes (sessionId : SessionId) (slotId : UInt8) (input output : Span) : List Status :=
  .errNotInitialized ::
    if BadBuffers input output then [.errInvalidParam]
    else .errSessionInvalid ::
      if Issuable sessionId then
        if IsValidSlotId slotId then [.errAuthFailed, .ok] else [.errInvalidKeyId]
      else []

/-- The codes that a call can be answered with. -/
def codes : Event → List Status
  | .init => [.ok]
  | .deinit | .clearAllKeys => [.ok, .errNotInitialized]
  | .createSession _ => [.ok, .errNotInitialized, .errSessionInvalid]
  | .closeSession sessionId =>
      .errNotInitialized :: .errSessionInvalid :: if Issuable sessionId then [.ok] else []
  | .encrypt sessionId slotId _ input output | .decrypt sessionId slotId _ input output =>
      requestCodes sessionId slotId input output
  | .importKey slotId algorithm keyData permissions =>
      .errNotInitialized ::
        if IsValidSlotId slotId then
          if Import.Fits ⟨algorithm, keyData, permissions⟩ then [.ok, .errKeySlotFull]
          else [.errInvalidParam]
        else [.errInvalidKeyId]
  | .deleteKey slotId =>
      .errNotInitialized ::
        if IsValidSlotId slotId then [.ok, .errInvalidParam] else [.errInvalidKeyId]
  | .getKeySlotInfo slotId _ =>
      .errNotInitialized :: if IsValidSlotId slotId then [.ok] else [.errInvalidKeyId]
  | .isReady | .isSessionValid _ | .getVersion | .store _ _ => []

/-- The codes in use. -/
theorem codes_subset (event : Event) :
    event.codes ⊆ [.ok, .errInvalidParam, .errSessionInvalid, .errNotInitialized, .errKeySlotFull,
      .errInvalidKeyId, .errAuthFailed] := by
  cases event with
  | init | deinit | isReady | createSession _ | isSessionValid _ | clearAllKeys | getVersion
  | store _ _ => simp [codes]
  | closeSession _ | encrypt _ _ _ _ _ | decrypt _ _ _ _ _ | importKey _ _ _ _ | deleteKey _
  | getKeySlotInfo _ _ =>
      simp only [codes, requestCodes]
      grind

end Event

/-! ## No other code is returned -/

namespace Vault

/-- An open session has an id that was issued. -/
theorem issuable_of_live (v : Vault) {sessionId : SessionId} (h : sessionId ∈ v.live) :
    Issuable sessionId := by
  obtain ⟨k, -, rfl⟩ := v.issued sessionId h
  exact issuable_ticket k

theorem request_mem (v : Vault) (required : KeyPermission) (sessionId : SessionId)
    (slotId : UInt8) (input output : Span) :
    v.request required sessionId slotId input output ∈
      Event.requestCodes sessionId slotId input output := by
  rw [request, Event.requestCodes]
  simp only [BadBuffers, Span.isEmpty_iff]
  by_cases hbad : input.size = 0 ∨ output.size < input.size
  · simp only [if_pos hbad, List.mem_cons, true_or, or_true]
  rw [if_neg hbad, if_neg hbad]
  by_cases hlive : sessionId ∈ v.live
  · rw [if_neg (not_not.mpr hlive), if_pos (v.issuable_of_live hlive)]
    by_cases hslot : IsValidSlotId slotId
    · rw [if_neg (not_not.mpr hslot), if_pos hslot]
      split <;> simp
    · rw [if_pos hslot, if_neg hslot]
      simp
  · rw [if_pos hlive]
    simp

theorem createSession_mem (v : Vault) (sessionId : SessionId) :
    (v.createSession sessionId).1 ∈ (Event.createSession sessionId).codes := by
  rw [createSession]
  split <;> simp [Event.codes]

theorem closeSession_mem (v : Vault) (sessionId : SessionId) :
    (v.closeSession sessionId).1 ∈ (Event.closeSession sessionId).codes := by
  rw [closeSession, Event.codes]
  by_cases hlive : sessionId ∈ v.live
  · rw [if_pos hlive, if_pos (v.issuable_of_live hlive)]
    simp
  · rw [if_neg hlive]
    simp

theorem importKey_mem (v : Vault) (slotId : UInt8) (algorithm : Algorithm)
    (keyData : List UInt8) (permissions : UInt8) :
    (v.importKey slotId ⟨algorithm, keyData, permissions⟩).1 ∈
      (Event.importKey slotId algorithm keyData permissions).codes := by
  rw [importKey, Event.codes]
  split
  · split
    · split <;> simp
    · simp
  · simp

theorem deleteKey_mem (v : Vault) (slotId : UInt8) :
    (v.deleteKey slotId).1 ∈ (Event.deleteKey slotId).codes := by
  rw [deleteKey, Event.codes]
  split
  · split <;> simp
  · simp

theorem slotInfo_mem (v : Vault) (slotId : UInt8) (info : KeySlotInfo) :
    (v.slotInfo slotId info).1 ∈ (Event.getKeySlotInfo slotId info).codes := by
  rw [slotInfo, Event.codes]
  split <;> simp

end Vault

namespace VaultState

/-- A vault that is not started refuses with a code of the catalogue. -/
theorem refused_mem {event : Event} {code : Status}
    (h : event.refusal.bind statusOf = some code) : code ∈ event.codes := by
  cases event with
  | init | isReady | isSessionValid _ | getVersion | store _ _ => cases h
  | deinit | createSession _ | closeSession _ | encrypt _ _ _ _ _ | decrypt _ _ _ _ _
  | importKey _ _ _ _ | deleteKey _ | getKeySlotInfo _ _ | clearAllKeys =>
      cases h
      simp [Event.codes, Event.requestCodes]

theorem reply_of_down {s : VaultState} (hdown : s.vault = none) {event : Event} {answer : Answer}
    (h : event.refusal = some answer) : machine.reply event s = answer := by
  obtain ⟨vault, memory⟩ := s
  obtain rfl : vault = none := hdown
  cases event with
  | init | isReady | isSessionValid _ | getVersion | store _ _ => cases h
  | deinit | createSession _ | closeSession _ | encrypt _ _ _ _ _ | decrypt _ _ _ _ _
  | importKey _ _ _ _ | deleteKey _ | getKeySlotInfo _ _ | clearAllKeys => exact Option.some.inj h

/-- The answer of a vault carries a code of the catalogue. -/
theorem reply_mem (event : Event) (s : VaultState) {code : Status}
    (h : statusOf (machine.reply event s) = some code) : code ∈ event.codes := by
  cases hvault : s.vault with
  | none =>
      cases hrefusal : event.refusal with
      | some answer =>
          rw [reply_of_down hvault hrefusal] at h
          apply refused_mem
          rw [hrefusal]
          exact h
      | none =>
          cases event with
          | init =>
              obtain rfl := Option.some.inj h
              exact List.mem_cons_self
          | isReady | isSessionValid _ | getVersion | store _ _ => cases h
          | deinit | createSession _ | closeSession _ | encrypt _ _ _ _ _ | decrypt _ _ _ _ _
          | importKey _ _ _ _ | deleteKey _ | getKeySlotInfo _ _ | clearAllKeys => cases hrefusal
  | some v =>
      obtain ⟨vault, memory⟩ := s
      obtain rfl : vault = some v := hvault
      cases event with
      | isReady | isSessionValid _ | getVersion | store _ _ => cases h
      | init | deinit | clearAllKeys =>
          obtain rfl := Option.some.inj h
          exact List.mem_cons_self
      | createSession sessionId =>
          obtain rfl := Option.some.inj h
          exact v.createSession_mem sessionId
      | closeSession sessionId =>
          obtain rfl := Option.some.inj h
          exact v.closeSession_mem sessionId
      | encrypt sessionId slotId algorithm input output =>
          obtain rfl := Option.some.inj h
          exact v.request_mem .encrypt sessionId slotId input output
      | decrypt sessionId slotId algorithm input output =>
          obtain rfl := Option.some.inj h
          exact v.request_mem .decrypt sessionId slotId input output
      | importKey slotId algorithm keyData permissions =>
          obtain rfl := Option.some.inj h
          exact v.importKey_mem slotId algorithm keyData permissions
      | deleteKey slotId =>
          obtain rfl := Option.some.inj h
          exact v.deleteKey_mem slotId
      | getKeySlotInfo slotId info =>
          obtain rfl := Option.some.inj h
          exact v.slotInfo_mem slotId info

/-! ## Every code can be brought about -/

/-- The vault is started and holds these sessions, under the next ordinal, and
these keys. -/
structure Holds (s : VaultState) (live : Multiset SessionId) (created : Nat) (keys : KeyMap) :
    Prop where
  bag : s.bag = .online live created
  map : s.map = some keys

section

variable {s : VaultState} {live : Multiset SessionId} {created : Nat} {keys : KeyMap}

theorem Holds.exists_vault (h : Holds s live created keys) :
    ∃ v, s.vault = some v ∧ v.live = live ∧ v.keys = keys := by
  obtain ⟨hbag, hmap⟩ := h
  obtain ⟨vault, memory⟩ := s
  cases vault with
  | none => cases hmap
  | some v =>
      obtain ⟨hlive, -⟩ := SessionBag.online.inj hbag
      exact ⟨v, rfl, hlive, Option.some.inj hmap⟩

/-- A restart empties the vault. -/
theorem holds_restart (s : VaultState) : Holds (machine.run [.deinit, .init] s) 0 0 .empty :=
  ⟨rfl, rfl⟩

theorem Holds.createSession (h : Holds s live created keys) (hroom : live.card < kMaxSessions)
    (out : SessionId) :
    Holds (machine.next (.createSession out) s) (ticket created ::ₘ live) (created + 1) keys := by
  constructor
  · rw [bag_next, h.bag]
    exact SessionBag.next_createSession created out hroom
  · rw [map_next, h.map]
    rfl

theorem Holds.closeSession (h : Holds s live created keys) {sessionId : SessionId}
    (hlive : sessionId ∈ live) :
    Holds (machine.next (.closeSession sessionId) s) (live.erase sessionId) created keys := by
  constructor
  · rw [bag_next, h.bag]
    exact SessionBag.next_closeSession created hlive
  · rw [map_next, h.map]
    rfl

theorem Holds.importKey (h : Holds s live created keys) {slotId : UInt8} {key : Import}
    (hslot : IsValidSlotId slotId) (hfits : key.Fits) (hfree : keys.lookup slotId = none) :
    Holds (machine.next (.importKey slotId key.algorithm key.keyData key.permissions) s) live
      created (keys.insert slotId key hslot hfits) := by
  constructor
  · rw [bag_next, h.bag]
    rfl
  · rw [map_next, h.map, WiredHsm.mapAfter_of_op rfl]
    simp only [KeyMap.step, dif_pos hslot, hfree]
    exact congrArg Prod.snd (dif_pos hfits)

/-- Open and close one session after the other. -/
def rounds (n : Nat) : List Event :=
  (List.range n).flatMap fun k => [.createSession 0, .closeSession (ticket k)]

/-- The rounds move the counter and nothing else. -/
theorem Holds.rounds (h : Holds s 0 0 keys) (n : Nat) :
    Holds (machine.run (rounds n) s) 0 n keys := by
  induction n with
  | zero => exact h
  | succ n ih =>
      have hsplit : VaultState.rounds (n + 1) =
          VaultState.rounds n ++ [.createSession 0, .closeSession (ticket n)] := by
        rw [VaultState.rounds, List.range_succ, List.flatMap_append]
        rfl
      have hopen := ih.createSession (by decide) 0
      have hclosed := hopen.closeSession (Multiset.mem_cons_self _ _)
      rw [Multiset.erase_cons_head] at hclosed
      rw [hsplit, Machine.run_append]
      exact hclosed

end

/-- Some further calls bring the code about. -/
def CanAnswer (event : Event) (code : Status) (s : VaultState) : Prop :=
  ∃ later, statusOf (machine.reply event (machine.run later s)) = some code

theorem CanAnswer.of_run {event : Event} {code : Status} (before : List Event) {s : VaultState}
    (h : CanAnswer event code (machine.run before s)) : CanAnswer event code s := by
  obtain ⟨later, hreply⟩ := h
  exact ⟨before ++ later, by rwa [Machine.run_append]⟩

theorem CanAnswer.now {event : Event} {code : Status} {s : VaultState}
    (h : statusOf (machine.reply event s) = some code) : CanAnswer event code s :=
  ⟨[], h⟩

/-- A session with any id an id counter comes to can be opened. -/
theorem exists_session (s : VaultState) {sessionId : SessionId} (h : Issuable sessionId) :
    ∃ later created, Holds (machine.run later s) {sessionId} created .empty := by
  obtain ⟨k, rfl⟩ := exists_ticket_eq h
  have hopen := ((holds_restart s).rounds k).createSession (by decide) 0
  refine ⟨[.deinit, .init] ++ rounds k ++ [.createSession 0], k + 1, ?_⟩
  rw [Machine.run_append, Machine.run_append]
  exact hopen

/-- The table can be filled. -/
theorem exists_full (s : VaultState) :
    ∃ later live created, Holds (machine.run later s) live created .empty ∧
      live.card = kMaxSessions := by
  have h₁ := (holds_restart s).createSession (by decide) 0
  have h₂ := h₁.createSession (by decide) 0
  have h₃ := h₂.createSession (by decide) 0
  have h₄ := h₃.createSession (by decide) 0
  exact ⟨[.deinit, .init, .createSession 0, .createSession 0, .createSession 0, .createSession 0],
    _, _, h₄, by simp⟩

/-- A key with every permission. -/
def openKey : Import := ⟨.none, [0], 0xFF⟩

theorem openKey_fits : openKey.Fits := by decide

def importOpenKey (slotId : UInt8) : Event :=
  .importKey slotId openKey.algorithm openKey.keyData openKey.permissions

theorem canAnswer_refusal {event : Event} {answer : Answer} (hrefusal : event.refusal = some answer)
    {code : Status} (hcode : statusOf answer = some code) (s : VaultState) :
    CanAnswer event code s := by
  refine ⟨[.deinit], ?_⟩
  rw [reply_of_down rfl hrefusal]
  exact hcode

/-! ### Requests -/

section Request

variable {event : Event} {required : KeyPermission} {sessionId : SessionId} {slotId : UInt8}
  {input output : Span}

/-- A request is answered from the sessions and the keys. -/
theorem Holds.canAnswer {s : VaultState} {live : Multiset SessionId} {created : Nat}
    {keys : KeyMap} (h : Holds s live created keys)
    (hreply : ∀ s v, s.vault = some v → statusOf (machine.reply event s) =
      some (v.request required sessionId slotId input output))
    {code : Status} (hrequest : ∀ v : Vault, v.live = live → v.keys = keys →
      v.request required sessionId slotId input output = code) :
    CanAnswer event code s := by
  obtain ⟨v, hv, hlive, hkeys⟩ := h.exists_vault
  apply CanAnswer.now
  rw [hreply s v hv, hrequest v hlive hkeys]

/-- Under an open session the slot decides. -/
theorem canAnswer_slot (hrequired : required = .encrypt ∨ required = .decrypt)
    (hreply : ∀ s v, s.vault = some v → statusOf (machine.reply event s) =
      some (v.request required sessionId slotId input output))
    (hbuffers : ¬ (input.size = 0 ∨ output.size < input.size)) {code : Status}
    (hcode : code ∈ if IsValidSlotId slotId then [.errAuthFailed, .ok] else [.errInvalidKeyId])
    {s : VaultState} {created : Nat} (h : Holds s {sessionId} created .empty) :
    CanAnswer event code s := by
  have hlive : sessionId ∈ ({sessionId} : Multiset SessionId) := Multiset.mem_singleton_self _
  by_cases hslot : IsValidSlotId slotId
  · rw [if_pos hslot] at hcode
    rcases List.mem_cons.mp hcode with rfl | hcode
    · -- a slot without a key permits nothing
      apply h.canAnswer hreply
      intro v hv hkeys
      have hdenied : v.permits slotId required = false := by
        rw [Vault.permits, hkeys]
        rfl
      rw [Vault.request, if_neg hbuffers, hv, if_neg (not_not.mpr hlive),
        if_neg (not_not.mpr hslot), hdenied]
      rfl
    · obtain rfl := List.mem_singleton.mp hcode
      have hfilled := h.importKey hslot openKey_fits rfl
      apply CanAnswer.of_run [importOpenKey slotId]
      apply hfilled.canAnswer hreply
      intro v hv hkeys
      have hgranted : v.permits slotId required = true := by
        rw [Vault.permits, hkeys]
        simp only [KeyMap.insert, Function.update_self]
        rcases hrequired with rfl | rfl <;> decide
      rw [Vault.request, if_neg hbuffers, hv, if_neg (not_not.mpr hlive),
        if_neg (not_not.mpr hslot), hgranted]
      rfl
  · rw [if_neg hslot] at hcode
    obtain rfl := List.mem_singleton.mp hcode
    apply h.canAnswer hreply
    intro v hv hkeys
    rw [Vault.request, if_neg hbuffers, hv, if_neg (not_not.mpr hlive), if_pos hslot]

theorem canAnswer_request (hrequired : required = .encrypt ∨ required = .decrypt)
    (hreply : ∀ s v, s.vault = some v → statusOf (machine.reply event s) =
      some (v.request required sessionId slotId input output))
    {code : Status} (hne : code ≠ .errNotInitialized)
    (hcode : code ∈ Event.requestCodes sessionId slotId input output) (s : VaultState) :
    CanAnswer event code s := by
  have hempty := holds_restart s
  rw [Event.requestCodes] at hcode
  simp only [BadBuffers, Span.isEmpty_iff] at hcode
  rcases List.mem_cons.mp hcode with rfl | hcode
  · exact absurd rfl hne
  by_cases hbad : input.size = 0 ∨ output.size < input.size
  · rw [if_pos hbad] at hcode
    obtain rfl := List.mem_singleton.mp hcode
    apply CanAnswer.of_run [.deinit, .init]
    apply hempty.canAnswer hreply
    intro v hv hkeys
    rw [Vault.request, if_pos hbad]
  rw [if_neg hbad] at hcode
  rcases List.mem_cons.mp hcode with rfl | hcode
  · apply CanAnswer.of_run [.deinit, .init]
    apply hempty.canAnswer hreply
    intro v hv hkeys
    rw [Vault.request, if_neg hbad, hv, if_pos (Multiset.notMem_zero sessionId)]
  by_cases hissuable : Issuable sessionId
  · rw [if_pos hissuable] at hcode
    obtain ⟨before, created, hsession⟩ := exists_session s hissuable
    exact CanAnswer.of_run before (canAnswer_slot hrequired hreply hbad hcode hsession)
  · rw [if_neg hissuable] at hcode
    exact absurd hcode List.not_mem_nil

end Request

/-! ### Sessions -/

theorem canAnswer_createSession (out : SessionId) {code : Status} (hne : code ≠ .errNotInitialized)
    (hcode : code ∈ (Event.createSession out).codes) (s : VaultState) :
    CanAnswer (.createSession out) code s := by
  have hcases : code = .ok ∨ code = .errSessionInvalid := by
    simpa [Event.codes, hne] using hcode
  rcases hcases with rfl | rfl
  · exact CanAnswer.of_run [.deinit, .init] (CanAnswer.now rfl)
  · obtain ⟨later, live, created, hholds, hfull⟩ := exists_full s
    apply CanAnswer.of_run later
    apply CanAnswer.now
    rw [reply_createSession, hholds.bag]
    simp only [SessionBag.machine, Machine.reply, SessionBag.step,
      if_neg (Nat.not_lt.mpr (Nat.le_of_eq hfull.symm))]
    rfl

theorem canAnswer_closeSession {sessionId : SessionId} {code : Status}
    (hne : code ≠ .errNotInitialized) (hcode : code ∈ (Event.closeSession sessionId).codes)
    (s : VaultState) : CanAnswer (.closeSession sessionId) code s := by
  rw [Event.codes] at hcode
  rcases List.mem_cons.mp hcode with rfl | hcode
  · exact absurd rfl hne
  rcases List.mem_cons.mp hcode with rfl | hcode
  · exact CanAnswer.of_run [.deinit, .init] (CanAnswer.now rfl)
  by_cases hissuable : Issuable sessionId
  · rw [if_pos hissuable] at hcode
    obtain rfl := List.mem_singleton.mp hcode
    obtain ⟨later, created, hholds⟩ := exists_session s hissuable
    apply CanAnswer.of_run later
    apply CanAnswer.now
    rw [reply_closeSession, hholds.bag]
    simp only [SessionBag.machine, Machine.reply, SessionBag.step,
      if_pos (Multiset.mem_singleton_self sessionId)]
    rfl
  · rw [if_neg hissuable] at hcode
    exact absurd hcode List.not_mem_nil

/-! ### Keys -/

theorem canAnswer_importKey {slotId : UInt8} {algorithm : Algorithm} {keyData : List UInt8}
    {permissions : UInt8} {code : Status} (hne : code ≠ .errNotInitialized)
    (hcode : code ∈ (Event.importKey slotId algorithm keyData permissions).codes)
    (s : VaultState) : CanAnswer (.importKey slotId algorithm keyData permissions) code s := by
  have hempty := holds_restart s
  rw [Event.codes] at hcode
  rcases List.mem_cons.mp hcode with rfl | hcode
  · exact absurd rfl hne
  apply CanAnswer.of_run [.deinit, .init]
  by_cases hslot : IsValidSlotId slotId
  · rw [if_pos hslot] at hcode
    by_cases hfits : Import.Fits ⟨algorithm, keyData, permissions⟩
    · rw [if_pos hfits] at hcode
      rcases List.mem_cons.mp hcode with rfl | hcode
      · apply CanAnswer.now
        rw [reply_importKey, hempty.map]
        simp only [KeyMap.machine, Machine.reply, KeyMap.step, dif_pos hslot, dif_pos hfits]
        rfl
      · obtain rfl := List.mem_singleton.mp hcode
        have hfilled := hempty.importKey hslot hfits rfl
        apply CanAnswer.of_run [.importKey slotId algorithm keyData permissions]
        apply CanAnswer.now
        rw [reply_importKey, Machine.run_cons, Machine.run_nil, hfilled.map]
        simp only [KeyMap.machine, Machine.reply, KeyMap.step, dif_pos hslot, dif_pos hfits,
          KeyMap.insert, Function.update_self]
        rfl
    · rw [if_neg hfits] at hcode
      obtain rfl := List.mem_singleton.mp hcode
      apply CanAnswer.now
      rw [reply_importKey, hempty.map]
      simp only [KeyMap.machine, Machine.reply, KeyMap.step, dif_pos hslot, dif_neg hfits]
      rfl
  · rw [if_neg hslot] at hcode
    obtain rfl := List.mem_singleton.mp hcode
    apply CanAnswer.now
    rw [reply_importKey, hempty.map]
    simp only [KeyMap.machine, Machine.reply, KeyMap.step, dif_neg hslot]
    rfl

theorem canAnswer_deleteKey {slotId : UInt8} {code : Status} (hne : code ≠ .errNotInitialized)
    (hcode : code ∈ (Event.deleteKey slotId).codes) (s : VaultState) :
    CanAnswer (.deleteKey slotId) code s := by
  have hempty := holds_restart s
  rw [Event.codes] at hcode
  rcases List.mem_cons.mp hcode with rfl | hcode
  · exact absurd rfl hne
  apply CanAnswer.of_run [.deinit, .init]
  by_cases hslot : IsValidSlotId slotId
  · rw [if_pos hslot] at hcode
    rcases List.mem_cons.mp hcode with rfl | hcode
    · have hfilled := hempty.importKey hslot openKey_fits rfl
      apply CanAnswer.of_run [importOpenKey slotId]
      apply CanAnswer.now
      rw [reply_deleteKey, Machine.run_cons, Machine.run_nil, importOpenKey, hfilled.map]
      simp only [KeyMap.machine, Machine.reply, KeyMap.step, if_pos hslot, KeyMap.insert,
        Function.update_self]
      rfl
    · obtain rfl := List.mem_singleton.mp hcode
      apply CanAnswer.now
      rw [reply_deleteKey, hempty.map]
      simp only [KeyMap.machine, Machine.reply, KeyMap.step, if_pos hslot]
      rfl
  · rw [if_neg hslot] at hcode
    obtain rfl := List.mem_singleton.mp hcode
    apply CanAnswer.now
    rw [reply_deleteKey, hempty.map]
    simp only [KeyMap.machine, Machine.reply, KeyMap.step, if_neg hslot]
    rfl

theorem canAnswer_getKeySlotInfo {slotId : UInt8} {info : KeySlotInfo} {code : Status}
    (hne : code ≠ .errNotInitialized) (hcode : code ∈ (Event.getKeySlotInfo slotId info).codes)
    (s : VaultState) : CanAnswer (.getKeySlotInfo slotId info) code s := by
  have hempty := holds_restart s
  rw [Event.codes] at hcode
  rcases List.mem_cons.mp hcode with rfl | hcode
  · exact absurd rfl hne
  apply CanAnswer.of_run [.deinit, .init]
  apply CanAnswer.now
  rw [reply_getKeySlotInfo, hempty.map]
  simp only [KeyMap.machine, Machine.reply, KeyMap.step]
  split at hcode
  · next hslot =>
      obtain rfl := List.mem_singleton.mp hcode
      rw [if_pos hslot]
      rfl
  · next hslot =>
      obtain rfl := List.mem_singleton.mp hcode
      rw [if_neg hslot]
      rfl

/-- Whatever the state, every code of the catalogue can be brought about. -/
theorem canAnswer (event : Event) {code : Status} (hcode : code ∈ event.codes) (s : VaultState) :
    CanAnswer event code s := by
  by_cases hne : code = .errNotInitialized
  · subst hne
    cases event with
    | init => simp [Event.codes] at hcode
    | isReady | isSessionValid _ | getVersion | store _ _ => cases hcode
    | deinit | createSession _ | closeSession _ | encrypt _ _ _ _ _ | decrypt _ _ _ _ _
    | importKey _ _ _ _ | deleteKey _ | getKeySlotInfo _ _ | clearAllKeys =>
        exact canAnswer_refusal rfl rfl s
  · cases event with
    | isReady | isSessionValid _ | getVersion | store _ _ => cases hcode
    | init =>
        obtain rfl := List.mem_singleton.mp hcode
        exact CanAnswer.now rfl
    | deinit | clearAllKeys =>
        have hok : code = .ok := by simpa [Event.codes, hne] using hcode
        subst hok
        exact CanAnswer.of_run [.init] (CanAnswer.now rfl)
    | createSession out => exact canAnswer_createSession out hne hcode s
    | closeSession sessionId => exact canAnswer_closeSession hne hcode s
    | encrypt sessionId slotId algorithm input output =>
        apply canAnswer_request (.inl rfl) _ hne hcode
        intro s v hv
        simp only [machine, Machine.reply, step, crypt, hv]
        rfl
    | decrypt sessionId slotId algorithm input output =>
        apply canAnswer_request (.inr rfl) _ hne hcode
        intro s v hv
        simp only [machine, Machine.reply, step, crypt, hv]
        rfl
    | importKey slotId algorithm keyData permissions => exact canAnswer_importKey hne hcode s
    | deleteKey slotId => exact canAnswer_deleteKey hne hcode s
    | getKeySlotInfo slotId info => exact canAnswer_getKeySlotInfo hne hcode s

end VaultState

/-! ## The firmware -/

namespace WiredHsm

/--
**The catalogue is exact.**  From every reachable state of the firmware, with either
strategy, a call can be answered with a code after some further calls if and only if
the code is in the catalogue of the call.
-/
theorem codes_exact (strategy : Strategy) (accessCount : Fin kMaxKeySlots → UInt32) (mem : Memory)
    (events : List Event) (event : Event) (code : Status) :
    (∃ later, statusOf ((machine strategy).reply event
        ((machine strategy).run (events ++ later) (powerOn strategy accessCount mem))) =
          some code) ↔ code ∈ event.codes := by
  have hreply : ∀ later, (machine strategy).reply event
      ((machine strategy).run (events ++ later) (powerOn strategy accessCount mem)) =
        VaultState.machine.reply event (VaultState.machine.run later (vaultAfter mem events)) := by
    intro later
    have hrefines := refines_run strategy accessCount mem (events ++ later)
    rw [(simulates_vault strategy).reply rfl hrefines, vaultAfter, Machine.run_append]
    rfl
  constructor
  · rintro ⟨later, hcode⟩
    rw [hreply] at hcode
    exact VaultState.reply_mem event _ hcode
  · intro hcode
    obtain ⟨later, hlater⟩ := VaultState.canAnswer event hcode (vaultAfter mem events)
    exact ⟨later, by rw [hreply, hlater]⟩

end WiredHsm

end Ehsm
