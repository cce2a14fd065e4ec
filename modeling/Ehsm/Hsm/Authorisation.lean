import Ehsm.Hsm.History

/-!
# Who may encrypt and decrypt, and with what

The decision on a request, stated over the history of the run: which session
entries are active, and what the latest event of the slot was.  The decision is
the facade's alone, since nothing it lets through fails later on.

The algorithm of the request takes no part in the decision, and neither do the
algorithm and the size of the stored key.  So a granted request runs whatever
cipher is injected, and it is bound to its algorithm exactly when caller, import
and strategy happen to agree.

## Main results

* `WiredHsm.authorisation_exact` — the answer to every request after every run.
* `WiredHsm.algorithm_binding_iff` — when a request is bound to its algorithm.
-/

namespace Ehsm

open Reactive

namespace WiredHsm

open KeystoreService (SlotEvent)

variable {strategy : Strategy}

/-! ## The conditions of a request -/

/-- Some active entry has the id. -/
def HasSession (sm : SessionManager) (sessionId : SessionId) : Prop :=
  ∃ session ∈ sm.sessions, session.id = sessionId ∧ session.isActive = true

instance (sm : SessionManager) (sessionId : SessionId) : Decidable (HasSession sm sessionId) := by
  unfold HasSession
  infer_instance

/-- The latest event of a slot imported a key with the permission bit. -/
def Granted (required : KeyPermission) (last : Option SlotEvent) : Prop :=
  ∃ key, last = some (.imported key) ∧ key.permissions &&& required.toByte ≠ 0

theorem granted_imported {required : KeyPermission} {key : Import} :
    Granted required (some (.imported key)) ↔ key.permissions &&& required.toByte ≠ 0 := by
  constructor
  · rintro ⟨_, hsame, hbit⟩
    cases hsame
    exact hbit
  · exact fun hbit => ⟨key, rfl, hbit⟩

instance (required : KeyPermission) (last : Option SlotEvent) :
    Decidable (Granted required last) :=
  match last with
  | some (.imported _) => decidable_of_iff _ granted_imported.symm
  | some .cleared => isFalse fun h => nomatch h
  | none => isFalse fun h => nomatch h

/-- Every condition of a request on state and history. -/
structure Authorised (required : KeyPermission) (sessionId : SessionId) (keySlotId : UInt8)
    (input output : Span) (last : Option SlotEvent) (hsm : WiredHsm strategy) : Prop where
  ready : hsm.api.isReady = true
  nonempty : input.size ≠ 0
  fits : input.size ≤ output.size
  session : HasSession hsm.world.sessions sessionId
  slot : keySlotId.toNat < kMaxKeySlots
  granted : Granted required last

/-- The code of the first condition that fails, `ok` if none does. -/
def authorisation (required : KeyPermission) (sessionId : SessionId) (keySlotId : UInt8)
    (input output : Span) (last : Option SlotEvent) (hsm : WiredHsm strategy) : Status :=
  firstFailing
    [ (hsm.api.isReady, .errNotInitialized),
      (decide (input.size ≠ 0 ∧ input.size ≤ output.size), .errInvalidParam),
      (decide (HasSession hsm.world.sessions sessionId), .errSessionInvalid),
      (decide (keySlotId.toNat < kMaxKeySlots), .errInvalidKeyId),
      (decide (Granted required last), .errAuthFailed) ]

theorem authorisation_eq_ok_iff {required : KeyPermission} {sessionId : SessionId}
    {keySlotId : UInt8} {input output : Span} {last : Option SlotEvent}
    {hsm : WiredHsm strategy} :
    authorisation required sessionId keySlotId input output last hsm = .ok ↔
      Authorised required sessionId keySlotId input output last hsm := by
  rw [authorisation, firstFailing_eq_ok_iff (by simp)]
  simp only [List.forall_mem_cons, decide_eq_true_eq]
  constructor
  · rintro ⟨hready, ⟨hnonempty, hfits⟩, hsession, hslot, hgranted, -⟩
    exact ⟨hready, hnonempty, hfits, hsession, hslot, hgranted⟩
  · intro h
    exact ⟨h.ready, ⟨h.nonempty, h.fits⟩, h.session, h.slot, h.granted, by simp⟩

/-! ## The decision over the history -/

section

variable {hsm : WiredHsm strategy} {map : Option KeyMap}

/-- The permission byte in the store is the one of the latest import. -/
theorem grants_iff {ks : KeystoreService} {last : Option SlotEvent} {keySlotId : UInt8}
    (h : ks.Represents map) (hentry : KeyMap.entry map keySlotId = last.bind SlotEvent.entry)
    (hslot : IsValidSlotId keySlotId) (required : KeyPermission) :
    grants ks keySlotId required = true ↔ Granted required last := by
  obtain ⟨hinfo, -⟩ := h.slot hslot
  rw [grants, dif_pos hslot, bne_iff_ne, hinfo, hentry]
  cases last with
  | none => simp [infoOf, Granted]
  | some event =>
      cases event with
      | imported key =>
          rw [granted_imported]
          rfl
      | cleared => simp [SlotEvent.entry, infoOf, Granted]

/-- The facade's decision is the one the history dictates. -/
theorem Sound.decision_eq (h : Sound hsm map) {last : Option SlotEvent} {keySlotId : UInt8}
    (hentry : KeyMap.entry map keySlotId = last.bind SlotEvent.entry)
    (required : KeyPermission) (sessionId : SessionId) (input output : Span) :
    decision required sessionId keySlotId input output hsm =
      authorisation required sessionId keySlotId input output last hsm := by
  have hbuf : (¬ BadBuffers input output) ↔ input.size ≠ 0 ∧ input.size ≤ output.size := by
    rw [BadBuffers, Span.isEmpty_iff]
    omega
  unfold decision authorisation verdict
  cases hready : hsm.api.isReady with
  | false => rfl
  | true =>
      obtain ⟨-, hsessions, -⟩ := h.flag true hready
      have hactive : hsm.world.sessions.isSessionValid sessionId =
          decide (HasSession hsm.world.sessions sessionId) := by
        rw [Bool.eq_iff_iff, SessionManager.isSessionValid_iff, decide_eq_true_eq]
        exact and_iff_right hsessions
      rw [hactive, decide_eq_decide.mpr hbuf]
      by_cases hslot : IsValidSlotId keySlotId
      · have hgrants : grants hsm.world.keystore keySlotId required =
            decide (Granted required last) := by
          rw [Bool.eq_iff_iff, grants_iff h.represents hentry hslot, decide_eq_true_eq]
        rw [hgrants]
      · simp [firstFailing, hslot]

/-- What both requests answer. -/
theorem Sound.reply_request (h : Sound hsm map) (sessionId : SessionId) (keySlotId : UInt8)
    (algorithm : Algorithm) (input output : Span) :
    (machine strategy).reply (.encrypt sessionId keySlotId algorithm input output) hsm =
        .status (decision .encrypt sessionId keySlotId input output hsm) ∧
      (machine strategy).reply (.decrypt sessionId keySlotId algorithm input output) hsm =
        .status (decision .decrypt sessionId keySlotId input output hsm) := by
  rw [h.reply_eq_direct, h.reply_eq_direct]
  exact ⟨rfl, rfl⟩

end

/--
**Authorisation is exact.**  After any run of the firmware from power-on, with
either strategy, every `encrypt` and `decrypt` answers the code of the first of
these conditions that fails, and `ok` if none does: the facade is ready, the
buffers fit, an active entry has the session id, the slot exists, and the latest
event of the slot imported a key with the permission bit.
-/
theorem authorisation_exact (strategy : Strategy) (accessCount : Fin kMaxKeySlots → UInt32)
    (mem : Memory) (events : List Event) (sessionId : SessionId) (keySlotId : UInt8)
    (algorithm : Algorithm) (input output : Span) :
    let hsm := (machine strategy).run events (powerOn strategy accessCount mem)
    let last := lastSlotEvent strategy accessCount mem events keySlotId
    ((machine strategy).reply (.encrypt sessionId keySlotId algorithm input output) hsm =
        .status (authorisation .encrypt sessionId keySlotId input output last hsm) ∧
      (machine strategy).reply (.decrypt sessionId keySlotId algorithm input output) hsm =
        .status (authorisation .decrypt sessionId keySlotId input output last hsm)) ∧
      ((machine strategy).reply (.encrypt sessionId keySlotId algorithm input output) hsm =
          .status .ok ↔
        Authorised .encrypt sessionId keySlotId input output last hsm) ∧
      ((machine strategy).reply (.decrypt sessionId keySlotId algorithm input output) hsm =
          .status .ok ↔
        Authorised .decrypt sessionId keySlotId input output last hsm) := by
  intro hsm last
  obtain ⟨map, hsound, hentry⟩ := sound_run strategy accessCount mem events
  obtain ⟨hencrypt, hdecrypt⟩ :=
    hsound.reply_request sessionId keySlotId algorithm input output
  rw [hsound.decision_eq (hentry keySlotId)] at hencrypt hdecrypt
  refine ⟨⟨hencrypt, hdecrypt⟩, ?_, ?_⟩
  · rw [hencrypt, Answer.status.injEq, authorisation_eq_ok_iff]
  · rw [hdecrypt, Answer.status.injEq, authorisation_eq_ok_iff]

/-! ## Algorithm binding -/

/-- Caller, stored key and strategy agree on the algorithm, and the key has the
size that the strategy announces. -/
structure Bound (algorithm : Algorithm) (keySlotId : UInt8) (hsm : WiredHsm strategy) : Prop where
  requested : algorithm = strategy.algorithm.getAlgorithmType
  stored : ∀ h : IsValidSlotId keySlotId,
    (hsm.world.keystore.keySlots (slotIndex keySlotId h)).info.algorithm =
      strategy.algorithm.getAlgorithmType
  size : ∀ h : IsValidSlotId keySlotId,
    (hsm.world.keystore.keySlots (slotIndex keySlotId h)).key.size =
      strategy.algorithm.getKeySize

/-- The caller and the latest import named the strategy's algorithm, and what was
imported had its key size. -/
def Matching (strategy : Strategy) (algorithm : Algorithm) (last : Option SlotEvent) : Prop :=
  algorithm = strategy.algorithm.getAlgorithmType ∧
    ∀ key, last = some (.imported key) →
      key.algorithm = strategy.algorithm.getAlgorithmType ∧
        key.keyData.length = strategy.algorithm.getKeySize

/-- What is stored with a granted key is what was imported. -/
theorem Sound.bound_iff {hsm : WiredHsm strategy} {map : Option KeyMap} (h : Sound hsm map)
    {last : Option SlotEvent} {keySlotId : UInt8}
    (hentry : KeyMap.entry map keySlotId = last.bind SlotEvent.entry)
    (hslot : IsValidSlotId keySlotId) {required : KeyPermission}
    (hgranted : Granted required last) (algorithm : Algorithm) :
    Bound algorithm keySlotId hsm ↔ Matching strategy algorithm last := by
  obtain ⟨key, rfl, -⟩ := hgranted
  obtain ⟨hinfo, hkey⟩ := h.represents.slot hslot
  rw [hentry] at hinfo hkey
  have halgorithm : (hsm.world.keystore.keySlots (slotIndex keySlotId hslot)).info.algorithm =
      key.algorithm := by
    rw [hinfo]
    rfl
  have hsize : (hsm.world.keystore.keySlots (slotIndex keySlotId hslot)).key.size =
      key.keyData.length := by
    rw [hkey]
    rfl
  constructor
  · intro hbound
    refine ⟨hbound.requested, ?_⟩
    intro key' hsame
    cases hsame
    exact ⟨halgorithm.symm.trans (hbound.stored hslot), hsize.symm.trans (hbound.size hslot)⟩
  · rintro ⟨hrequested, hall⟩
    obtain ⟨hstored, hlength⟩ := hall key rfl
    exact ⟨hrequested, fun _ => halgorithm.trans hstored, fun _ => hsize.trans hlength⟩

/--
**Algorithm binding, exactly.**  After any run, a request for any algorithm is
bound to it when it succeeds if and only if a condition of authorisation fails,
or the caller and the latest import into the slot named the strategy's algorithm
and the import had its key size.  The code checks none of the latter.
-/
theorem algorithm_binding_iff (strategy : Strategy) (accessCount : Fin kMaxKeySlots → UInt32)
    (mem : Memory) (events : List Event) (sessionId : SessionId) (keySlotId : UInt8)
    (algorithm : Algorithm) (input output : Span) :
    let hsm := (machine strategy).run events (powerOn strategy accessCount mem)
    let last := lastSlotEvent strategy accessCount mem events keySlotId
    (((machine strategy).reply (.encrypt sessionId keySlotId algorithm input output) hsm =
          .status .ok → Bound algorithm keySlotId hsm) ↔
        (Authorised .encrypt sessionId keySlotId input output last hsm →
          Matching strategy algorithm last)) ∧
      (((machine strategy).reply (.decrypt sessionId keySlotId algorithm input output) hsm =
          .status .ok → Bound algorithm keySlotId hsm) ↔
        (Authorised .decrypt sessionId keySlotId input output last hsm →
          Matching strategy algorithm last)) := by
  intro hsm last
  obtain ⟨map, hsound, hentry⟩ := sound_run strategy accessCount mem events
  obtain ⟨hencrypt, hdecrypt⟩ :=
    hsound.reply_request sessionId keySlotId algorithm input output
  rw [hsound.decision_eq (hentry keySlotId)] at hencrypt hdecrypt
  rw [hencrypt, hdecrypt, Answer.status.injEq, Answer.status.injEq, authorisation_eq_ok_iff,
    authorisation_eq_ok_iff]
  constructor
  · exact forall_congr' fun hauthorised =>
      hsound.bound_iff (hentry keySlotId) hauthorised.slot hauthorised.granted algorithm
  · exact forall_congr' fun hauthorised =>
      hsound.bound_iff (hentry keySlotId) hauthorised.slot hauthorised.granted algorithm

/-- The failing run: a 16-byte AES-128 key in a firmware wired with AES-256. -/
def mismatchRun : List Event :=
  [.init, .createSession 0, .importKey 0 .aes128 (List.replicate 16 7) 0x03]

/-- A request for ChaCha20 on that key succeeds. -/
theorem mismatchRun_unbound :
    let hsm := (machine .aes256).run mismatchRun (powerOn .aes256 (fun _ => 0) (fun _ => 0))
    (machine .aes256).reply (.encrypt 1 0 .chacha20 ⟨0, 16⟩ ⟨16, 16⟩) hsm = .status .ok ∧
      Algorithm.chacha20 ≠ Strategy.aes256.algorithm.getAlgorithmType ∧
      (hsm.world.keystore.keySlots 0).info.algorithm ≠
        Strategy.aes256.algorithm.getAlgorithmType ∧
      (hsm.world.keystore.keySlots 0).key.size ≠ Strategy.aes256.algorithm.getKeySize ∧
      ¬ Bound .chacha20 0 hsm := by
  have hok : (machine .aes256).reply (.encrypt 1 0 .chacha20 ⟨0, 16⟩ ⟨16, 16⟩)
      ((machine .aes256).run mismatchRun (powerOn .aes256 (fun _ => 0) (fun _ => 0))) =
        .status .ok := by decide +kernel
  intro hsm
  have hrequested : Algorithm.chacha20 ≠ Strategy.aes256.algorithm.getAlgorithmType := by decide
  refine ⟨hok, hrequested, ?_, ?_, fun hbound => hrequested hbound.requested⟩
  · have hstored : (hsm.world.keystore.keySlots 0).info.algorithm = .aes128 := by rfl
    rw [hstored]
    decide
  · have hsize : (hsm.world.keystore.keySlots 0).key.size = 16 := by rfl
    rw [hsize]
    decide

end WiredHsm

end Ehsm
