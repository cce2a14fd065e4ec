import Ehsm.Hsm.History

/-!
# What a call may change

A call that fails changes nothing: neither a service, nor a flag, nor the
caller's memory, nor an out-parameter.  A call that succeeds changes the entry,
the slot or the output bytes it is about.  Access counters count as state here:
a request that is refused is not counted, and one that is granted is counted
only because nothing after the counting can fail.

## Main results

* `WiredHsm.atomic_and_framed` — both, for every call in every reachable state.
-/

namespace Ehsm

open Reactive

namespace SessionManager

/-- The two managers differ in one entry, which had the property, and perhaps in
the counter. -/
structure OneEntry (property : Session → Prop) (sm sm' : SessionManager) : Prop where
  isInitialized : sm'.isInitialized = sm.isInitialized
  entry : ∃ pre session session' post, sm.sessions = pre ++ session :: post ∧
    property session ∧ sm'.sessions = pre ++ session' :: post

/-- `createSession` fails without effect or opens an inactive entry. -/
theorem createSession_frame (sm : SessionManager) (sessionId : SessionId) :
    ((sm.createSession sessionId).1 ≠ .ok ∧ (sm.createSession sessionId).2 = (sessionId, sm)) ∨
      ((sm.createSession sessionId).1 = .ok ∧
        OneEntry (fun session => session.isActive = false) sm
          (sm.createSession sessionId).2.2) := by
  cases hinit : sm.isInitialized with
  | false =>
      rw [sm.createSession_of_not_initialized sessionId hinit]
      exact .inl ⟨by simp, rfl⟩
  | true =>
      rcases sm.createSession_cases sessionId hinit with
        ⟨-, hres⟩ | ⟨pre, session, post, sm', htable, hinactive, hres, htable', hflag, -⟩
      · rw [hres]
        exact .inl ⟨by simp, rfl⟩
      · rw [hres]
        exact .inr ⟨rfl, hflag.trans hinit.symm, pre, session, _, post, htable, hinactive, htable'⟩

/-- `closeSession` fails without effect or closes an active entry with the id. -/
theorem closeSession_frame (sm : SessionManager) (sessionId : SessionId) :
    ((sm.closeSession sessionId).1 ≠ .ok ∧ (sm.closeSession sessionId).2 = sm) ∨
      ((sm.closeSession sessionId).1 = .ok ∧
        (sm.closeSession sessionId).2.nextSessionId = sm.nextSessionId ∧
        OneEntry (fun session => session.id = sessionId ∧ session.isActive = true) sm
          (sm.closeSession sessionId).2) := by
  cases hinit : sm.isInitialized with
  | false =>
      rw [sm.closeSession_of_not_initialized sessionId hinit]
      exact .inl ⟨by simp, rfl⟩
  | true =>
      rcases sm.closeSession_cases sessionId hinit with
        ⟨-, hres⟩ | ⟨pre, session, post, sm', htable, hid, hactive, hres, htable', hflag, hcounter⟩
      · rw [hres]
        exact .inl ⟨by simp, rfl⟩
      · rw [hres]
        exact .inr ⟨rfl, hcounter, hflag.trans hinit.symm, pre, session, _, post, htable,
          ⟨hid, hactive⟩, htable'⟩

end SessionManager

namespace KeystoreService

/-- The two stores differ at most in the named slot. -/
structure OneSlot (slotId : UInt8) (ks ks' : KeystoreService) : Prop where
  isInitialized : ks'.isInitialized = ks.isInitialized
  others : ∀ i : Fin kMaxKeySlots, i.val ≠ slotId.toNat → ks'.keySlots i = ks.keySlots i

/-- The two stores differ at most in the named slot's access counter. -/
structure OneCount (slotId : UInt8) (ks ks' : KeystoreService) : Prop
    extends OneSlot slotId ks ks' where
  info : ∀ i, (ks'.keySlots i).info = (ks.keySlots i).info
  key : ∀ i, (ks'.keySlots i).key = (ks.keySlots i).key

theorem oneSlot_refl (slotId : UInt8) (ks : KeystoreService) : OneSlot slotId ks ks :=
  ⟨rfl, fun _ _ => rfl⟩

theorem oneSlot_setSlot (ks : KeystoreService) {slotId : UInt8} (h : IsValidSlotId slotId)
    (slot : KeySlotStorage) : OneSlot slotId ks (ks.setSlot (slotIndex slotId h) slot) := by
  refine ⟨rfl, ?_⟩
  intro i hi
  exact ks.setSlot_ne slot fun heq => hi (congrArg Fin.val heq)

theorem importKey_frame (ks : KeystoreService) (slotId : UInt8) (algorithm : Algorithm)
    (keyData : List UInt8) (permissions : UInt8) :
    OneSlot slotId ks (ks.importKey slotId algorithm keyData permissions).2 := by
  rcases ks.importKey_cases slotId algorithm keyData permissions with
    ⟨-, hsame⟩ | ⟨hslot, -, hres⟩
  · rw [hsame]
    exact oneSlot_refl slotId ks
  · rw [hres]
    exact oneSlot_setSlot ks hslot _

theorem deleteKey_frame (ks : KeystoreService) (slotId : UInt8) :
    OneSlot slotId ks (ks.deleteKey slotId).2 := by
  rcases ks.deleteKey_cases slotId with ⟨-, hsame⟩ | ⟨hslot, -, hres⟩
  · rw [hsame]
    exact oneSlot_refl slotId ks
  · rw [hres]
    exact oneSlot_setSlot ks hslot _

/-- Reading a key changes the counter of its slot at most. -/
theorem getKey_frame (ks : KeystoreService) (slotId : UInt8) (key : Key) :
    OneCount slotId ks (ks.getKey slotId key).2.2 := by
  have hsame : OneCount slotId ks ks := ⟨oneSlot_refl slotId ks, fun _ => rfl, fun _ => rfl⟩
  unfold getKey
  split
  · exact hsame
  split
  · next hslot =>
      dsimp only
      split
      · exact hsame
      · refine ⟨oneSlot_setSlot ks hslot _, ?_, ?_⟩
        · intro i
          by_cases hi : i = slotIndex slotId hslot
          · rw [hi, setSlot_self]
            rfl
          · rw [ks.setSlot_ne _ hi]
        · intro i
          by_cases hi : i = slotIndex slotId hslot
          · rw [hi, setSlot_self]
            rfl
          · rw [ks.setSlot_ne _ hi]
  · exact hsame

theorem clearAll_isInitialized (ks : KeystoreService) :
    ks.clearAll.2.isInitialized = ks.isInitialized := by
  cases hinit : ks.isInitialized with
  | false => rw [clearAll_of_not_initialized ks hinit, hinit]
  | true => rw [clearAll_of_initialized ks hinit, hinit]

end KeystoreService

namespace WiredHsm

variable {strategy : Strategy}

/-! ## Failures -/

/-- The status in an answer, if the call returns one. -/
def statusOf : Answer → Option Status
  | .status status => some status
  | .session status _ => some status
  | .info status _ => some status
  | .truth _ | .version _ | .stored => none

/-- The call reported an error. -/
def Failed (answer : Answer) : Prop := ∃ status, statusOf answer = some status ∧ status ≠ .ok

theorem failed_iff {answer : Answer} {status : Status} (h : statusOf answer = some status) :
    Failed answer ↔ status ≠ .ok := by
  constructor
  · rintro ⟨other, hother, hne⟩
    rw [h, Option.some.injEq] at hother
    rw [hother]
    exact hne
  · intro hne
    exact ⟨status, h, hne⟩

theorem failed_status {status : Status} : Failed (.status status) ↔ status ≠ .ok :=
  failed_iff rfl

theorem failed_session {status : Status} {sessionId : SessionId} :
    Failed (.session status sessionId) ↔ status ≠ .ok :=
  failed_iff rfl

theorem failed_info {status : Status} {info : KeySlotInfo} :
    Failed (.info status info) ↔ status ≠ .ok :=
  failed_iff rfl

/-- A call that returns no status does not fail. -/
theorem not_failed {answer : Answer} (h : statusOf answer = none) : ¬ Failed answer := by
  rintro ⟨status, hsome, -⟩
  rw [h] at hsome
  contradiction

/-- The out-parameter of the call has the value it had before. -/
def KeepsOut : Event → Answer → Prop
  | .createSession sessionId, .session _ out => out = sessionId
  | .getKeySlotInfo _ info, .info _ out => out = info
  | _, _ => True

/-! ## Successes -/

/-- The memory differs at most in the `count` bytes from `start`. -/
def OnlyBytes (start count : Nat) (mem mem' : Memory) : Prop :=
  ∀ address, (address < start ∨ start + count ≤ address) → mem' address = mem address

/-- Where a successful call may leave a trace. -/
def Framed : Event → WiredHsm strategy → WiredHsm strategy → Prop
  | .init, hsm, hsm' =>
      hsm'.memory = hsm.memory ∧ (hsm.api.isReady = true → hsm' = hsm)
  | .deinit, hsm, hsm' => hsm'.memory = hsm.memory
  | .createSession _, hsm, hsm' =>
      hsm'.api = hsm.api ∧ hsm'.memory = hsm.memory ∧
        hsm'.world.keystore = hsm.world.keystore ∧
        SessionManager.OneEntry (fun session => session.isActive = false) hsm.world.sessions
          hsm'.world.sessions
  | .closeSession sessionId, hsm, hsm' =>
      hsm'.api = hsm.api ∧ hsm'.memory = hsm.memory ∧
        hsm'.world.keystore = hsm.world.keystore ∧
        hsm'.world.sessions.nextSessionId = hsm.world.sessions.nextSessionId ∧
        SessionManager.OneEntry (fun session => session.id = sessionId ∧ session.isActive = true)
          hsm.world.sessions hsm'.world.sessions
  | .encrypt _ keySlotId _ input output, hsm, hsm'
  | .decrypt _ keySlotId _ input output, hsm, hsm' =>
      hsm'.api = hsm.api ∧ OnlyBytes output.start input.size hsm.memory hsm'.memory ∧
        hsm'.world.sessions = hsm.world.sessions ∧
        KeystoreService.OneCount keySlotId hsm.world.keystore hsm'.world.keystore
  | .importKey keySlotId _ _ _, hsm, hsm'
  | .deleteKey keySlotId, hsm, hsm' =>
      hsm'.api = hsm.api ∧ hsm'.memory = hsm.memory ∧
        hsm'.world.sessions = hsm.world.sessions ∧
        KeystoreService.OneSlot keySlotId hsm.world.keystore hsm'.world.keystore
  | .clearAllKeys, hsm, hsm' =>
      hsm'.api = hsm.api ∧ hsm'.memory = hsm.memory ∧
        hsm'.world.sessions = hsm.world.sessions ∧
        hsm'.world.keystore.isInitialized = hsm.world.keystore.isInitialized
  | .getKeySlotInfo _ _, hsm, hsm' => hsm' = hsm
  | .isReady, hsm, hsm' => hsm' = hsm
  | .isSessionValid _, hsm, hsm' => hsm' = hsm
  | .getVersion, hsm, hsm' => hsm' = hsm
  | .store address _, hsm, hsm' =>
      hsm'.api = hsm.api ∧ OnlyBytes address 1 hsm.memory hsm'.memory ∧ hsm'.world = hsm.world

/-- A granted request writes the output bytes and counts one access. -/
theorem directCrypt_frame (required : KeyPermission) (sessionId : SessionId)
    (keySlotId : UInt8) (input output : Span) (hsm : WiredHsm strategy) :
    let result := directCrypt required sessionId keySlotId input output hsm
    (Failed result.1 → result.2 = hsm) ∧
      (result.2.api = hsm.api ∧ OnlyBytes output.start input.size hsm.memory result.2.memory ∧
        result.2.world.sessions = hsm.world.sessions ∧
        KeystoreService.OneCount keySlotId hsm.world.keystore result.2.world.keystore) := by
  intro result
  simp only [result, directCrypt]
  by_cases hok : decision required sessionId keySlotId input output hsm = .ok
  · rw [if_pos hok]
    refine ⟨fun hfailed => absurd hok (failed_status.mp hfailed), rfl, ?_, rfl, ?_⟩
    · exact fun address haddress => xorLoop_frame input output input.size hsm.memory haddress
    · exact KeystoreService.getKey_frame hsm.world.keystore keySlotId {}
  · rw [if_neg hok]
    refine ⟨fun _ => rfl, rfl, fun _ _ => rfl, rfl, ?_⟩
    exact ⟨KeystoreService.oneSlot_refl keySlotId _, fun _ => rfl, fun _ => rfl⟩

/-! ## Every call -/

/-- A call without guards is atomic and framed. -/
theorem direct_frame (event : Event) (hsm : WiredHsm strategy) :
    (Failed (direct event hsm).1 →
        (direct event hsm).2 = hsm ∧ KeepsOut event (direct event hsm).1) ∧
      (¬ Failed (direct event hsm).1 → Framed event hsm (direct event hsm).2) := by
  cases event with
  | init =>
      refine ⟨fun h => absurd rfl (failed_status.mp h), fun _ => ?_⟩
      simp only [direct]
      cases hready : hsm.api.isReady with
      | true => exact ⟨rfl, fun _ => rfl⟩
      | false => exact ⟨rfl, fun h => absurd (hready.symm.trans h) (by decide)⟩
  | deinit =>
      simp only [direct]
      cases hready : hsm.api.isReady with
      | true => exact ⟨fun h => absurd rfl (failed_status.mp h), fun _ => rfl⟩
      | false => exact ⟨fun _ => ⟨rfl, trivial⟩, fun _ => rfl⟩
  | isReady | isSessionValid _ | getVersion =>
      exact ⟨fun hfailed => absurd hfailed (not_failed rfl), fun _ => rfl⟩
  | store address byte =>
      refine ⟨fun hfailed => absurd hfailed (not_failed rfl), fun _ => ⟨rfl, ?_, rfl⟩⟩
      intro other hother
      exact Function.update_of_ne (by omega) _ _
  | createSession sessionId =>
      simp only [direct, failed_session]
      rcases hsm.world.sessions.createSession_frame sessionId with
        ⟨hfail, hsame⟩ | ⟨hok, hentry⟩
      · refine ⟨fun _ => ?_, fun h => absurd hfail h⟩
        rw [hsame]
        exact ⟨rfl, rfl⟩
      · exact ⟨fun h => absurd hok h, fun _ => ⟨rfl, rfl, rfl, hentry⟩⟩
  | closeSession sessionId =>
      simp only [direct, failed_status]
      rcases hsm.world.sessions.closeSession_frame sessionId with
        ⟨hfail, hsame⟩ | ⟨hok, hcounter, hentry⟩
      · refine ⟨fun _ => ?_, fun h => absurd hfail h⟩
        rw [hsame]
        exact ⟨rfl, trivial⟩
      · exact ⟨fun h => absurd hok h, fun _ => ⟨rfl, rfl, rfl, hcounter, hentry⟩⟩
  | encrypt sessionId keySlotId algorithm input output =>
      obtain ⟨hatomic, hframe⟩ := directCrypt_frame .encrypt sessionId keySlotId input output hsm
      exact ⟨fun h => ⟨hatomic h, trivial⟩, fun _ => hframe⟩
  | decrypt sessionId keySlotId algorithm input output =>
      obtain ⟨hatomic, hframe⟩ := directCrypt_frame .decrypt sessionId keySlotId input output hsm
      exact ⟨fun h => ⟨hatomic h, trivial⟩, fun _ => hframe⟩
  | importKey keySlotId algorithm keyData permissions =>
      simp only [direct, failed_status]
      refine ⟨?_, fun _ => ⟨rfl, rfl, rfl, ?_⟩⟩
      · intro hfail
        rcases hsm.world.keystore.importKey_cases keySlotId algorithm keyData permissions with
          ⟨-, hsame⟩ | ⟨_, _, hres⟩
        · rw [hsame]
          exact ⟨rfl, trivial⟩
        · rw [hres] at hfail
          exact absurd rfl hfail
      · exact KeystoreService.importKey_frame _ keySlotId algorithm keyData permissions
  | deleteKey keySlotId =>
      simp only [direct, failed_status]
      refine ⟨?_, fun _ => ⟨rfl, rfl, rfl, ?_⟩⟩
      · intro hfail
        rcases hsm.world.keystore.deleteKey_cases keySlotId with ⟨-, hsame⟩ | ⟨_, _, hres⟩
        · rw [hsame]
          exact ⟨rfl, trivial⟩
        · rw [hres] at hfail
          exact absurd rfl hfail
      · exact KeystoreService.deleteKey_frame _ keySlotId
  | getKeySlotInfo keySlotId info =>
      simp only [direct, failed_info]
      exact ⟨fun hfail => ⟨trivial, hsm.world.keystore.getSlotInfo_fails hfail⟩, fun _ => rfl⟩
  | clearAllKeys =>
      simp only [direct, failed_status]
      refine ⟨?_, fun _ => ⟨rfl, rfl, rfl, hsm.world.keystore.clearAll_isInitialized⟩⟩
      intro hfail
      cases hinit : hsm.world.keystore.isInitialized with
      | true =>
          rw [KeystoreService.clearAll_of_initialized _ hinit] at hfail
          exact absurd rfl hfail
      | false =>
          rw [KeystoreService.clearAll_of_not_initialized _ hinit]
          exact ⟨rfl, trivial⟩

/--
**Errors are atomic, successes are framed.**  In every reachable state, with
either strategy, a call that reports an error leaves services, flags, counters,
memory and out-parameters as they were, and any other call leaves a trace only
where `Framed` allows one.
-/
theorem atomic_and_framed (strategy : Strategy) (accessCount : Fin kMaxKeySlots → UInt32)
    (mem : Memory) (events : List Event) (event : Event) :
    let hsm := (machine strategy).run events (powerOn strategy accessCount mem)
    let answer := (machine strategy).reply event hsm
    let hsm' := (machine strategy).next event hsm
    (Failed answer → hsm' = hsm ∧ KeepsOut event answer) ∧
      (¬ Failed answer → Framed event hsm hsm') := by
  intro hsm answer hsm'
  obtain ⟨map, hsound, -⟩ := sound_run strategy accessCount mem events
  have hanswer : answer = (direct event hsm).1 := hsound.reply_eq_direct event
  have hnext : hsm' = (direct event hsm).2 := hsound.next_eq_direct event
  rw [hanswer, hnext]
  exact direct_frame event hsm

end WiredHsm

end Ehsm
