import Ehsm.Hsm.Authorisation
import Ehsm.Session.Epoch

/-!
# Session handles across a restart of the firmware

A handle is a bare session id, and a restart begins to count ids from `1` again.
So the handle of an earlier epoch is refused only until the new epoch has opened
as many sessions as the handle counts; from then on it names a session that
belongs to somebody else, and requests under it pass the session check.

## Main results

* `WiredHsm.stale_handle_iff` — how long a stale handle stays refused, for the
  session manager alone and for the firmware.
-/

namespace Ehsm

open Reactive

namespace WiredHsm

variable {strategy : Strategy}

/-! ## Counting sessions -/

/-- An answer that reports a session created. -/
def isCreated : Answer → Bool
  | .session .ok _ => true
  | _ => false

/-- How many sessions a run creates. -/
def createdIn (events : List Event) (hsm : WiredHsm strategy) : Nat :=
  ((machine strategy).replies events hsm).countP isCreated

section

variable {hsm : WiredHsm strategy} {map : Option KeyMap}

/-- A call creates a session when its projection to the session manager does. -/
theorem Sound.isCreated_reply (h : Sound hsm map) (event : Event) :
    isCreated ((machine strategy).reply event hsm) =
      match sessionOp event with
      | some op => (SessionManager.machine.reply op hsm.world.sessions).isCreated
      | none => false := by
  rw [h.reply_eq_direct]
  cases event with
  | deinit =>
      simp only [direct]
      split <;> rfl
  | createSession sessionId =>
      simp only [direct, sessionOp, SessionManager.machine, Machine.reply, SessionManager.step]
      cases (hsm.world.sessions.createSession sessionId).1 <;> rfl
  | init | isReady | closeSession _ | isSessionValid _ | encrypt _ _ _ _ _ | decrypt _ _ _ _ _
  | importKey _ _ _ _ | deleteKey _ | getKeySlotInfo _ _ | clearAllKeys | getVersion
  | store _ _ => rfl

theorem Sound.createdIn_eq (h : Sound hsm map) (events : List Event) :
    createdIn events hsm =
      SessionManager.createdIn (events.filterMap sessionOp) hsm.world.sessions := by
  induction events generalizing hsm map with
  | nil => rfl
  | cons event events ih =>
      have hstep := ih (h.next event)
      have hcreated := h.isCreated_reply event
      rw [h.sessions_next] at hstep
      rw [createdIn, Machine.replies_cons, List.countP_cons, hcreated, ← createdIn, hstep]
      cases hop : sessionOp event with
      | none =>
          rw [List.filterMap_cons_none hop]
          rfl
      | some op =>
          rw [List.filterMap_cons_some hop, SessionManager.createdIn, SessionManager.createdIn,
            Machine.replies_cons, List.countP_cons]
          rfl

/-! ## Refused requests -/

/-- Requests under the session id get no further than the session check. -/
def Refused (sessionId : SessionId) (hsm : WiredHsm strategy) : Prop :=
  ∀ keySlotId algorithm input output, ¬ BadBuffers input output →
    (machine strategy).reply (.encrypt sessionId keySlotId algorithm input output) hsm =
        .status .errSessionInvalid ∧
      (machine strategy).reply (.decrypt sessionId keySlotId algorithm input output) hsm =
        .status .errSessionInvalid

/-- A ready firmware refuses exactly the ids that are not valid. -/
theorem Sound.refused_iff (h : Sound hsm map) (hready : hsm.api.isReady = true)
    (sessionId : SessionId) :
    Refused sessionId hsm ↔ hsm.world.sessions.isSessionValid sessionId = false := by
  constructor
  · intro hrefused
    have hbuf : ¬ BadBuffers ⟨0, 1⟩ ⟨0, 1⟩ := by decide
    have hanswer := (hrefused 0 .none ⟨0, 1⟩ ⟨0, 1⟩ hbuf).1
    rw [(h.reply_request sessionId 0 .none ⟨0, 1⟩ ⟨0, 1⟩).1, Answer.status.injEq, decision,
      verdict, hready] at hanswer
    cases hvalid : hsm.world.sessions.isSessionValid sessionId with
    | false => rfl
    | true =>
        -- past the session check only the permission can be missing
        rw [hvalid] at hanswer
        cases hgrants : grants hsm.world.keystore 0 .encrypt <;>
          simp [hgrants, firstFailing, hbuf] at hanswer
  · intro hinvalid keySlotId algorithm input output hbuf
    obtain ⟨hencrypt, hdecrypt⟩ := h.reply_request sessionId keySlotId algorithm input output
    rw [hencrypt, hdecrypt]
    simp [decision, verdict, firstFailing, hready, hinvalid, hbuf]

end

/-! ## The restart -/

/-- Shut down, do anything but `init`, and start again. -/
def restart (between : List Event) : List Event := .deinit :: (between ++ [.init])

theorem filterMap_restart (between : List Event) :
    (restart between).filterMap sessionOp =
      SessionManager.restart (between.filterMap sessionOp) := by
  simp [restart, SessionManager.restart, sessionOp]

theorem filterMap_sessionOp_ne {events : List Event} {event : Event} {op : SessionManager.Op}
    (hop : ∀ e, sessionOp e = some op → e = event) (h : ∀ e ∈ events, e ≠ event) :
    ∀ o ∈ events.filterMap sessionOp, o ≠ op := by
  intro o ho hsame
  obtain ⟨e, he, hproj⟩ := List.mem_filterMap.mp ho
  rw [hsame] at hproj
  exact h e he (hop e hproj)

theorem eq_init_of_sessionOp (event : Event) (h : sessionOp event = some .init) :
    event = .init := by
  cases event <;> simp [sessionOp] at h ⊢

theorem eq_deinit_of_sessionOp (event : Event) (h : sessionOp event = some .deinit) :
    event = .deinit := by
  cases event <;> simp [sessionOp] at h ⊢

section

variable (strategy) (accessCount : Fin kMaxKeySlots → UInt32) (mem : Memory)

/-- The session manager of the firmware after a restart and more calls. -/
theorem sessions_restart (before between js : List Event) :
    ((machine strategy).run (before ++ restart between ++ js)
        (powerOn strategy accessCount mem)).world.sessions =
      SessionManager.machine.run
        (before.filterMap sessionOp ++ SessionManager.restart (between.filterMap sessionOp) ++
          js.filterMap sessionOp) .construct := by
  rw [(sound_powerOn strategy accessCount mem).sessions_run, List.filterMap_append,
    List.filterMap_append, filterMap_restart]
  rfl

/-- After a restart the firmware is ready until the next `deinit`. -/
theorem isReady_restart (before between js : List Event) (hjs : ∀ event ∈ js, event ≠ .deinit) :
    ((machine strategy).run (before ++ restart between ++ js)
      (powerOn strategy accessCount mem)).api.isReady = true := by
  have hsplit : before ++ restart between ++ js =
      (before ++ .deinit :: between) ++ (.init :: js) := by
    simp [restart]
  obtain ⟨map, hsound⟩ :=
    (sound_powerOn strategy accessCount mem).run (before ++ .deinit :: between)
  rw [hsplit, Machine.run_append, Machine.run_cons]
  exact (hsound.next .init).isReady_run (hsound.isReady_next .init) js hjs

/-- For the firmware, staying refused is staying invalid in the session manager. -/
theorem refused_restart_iff (before between later : List Event) (sessionId : SessionId)
    (hlater : ∀ event ∈ later, event ≠ .deinit) :
    (∀ js, js <+: later →
        Refused sessionId ((machine strategy).run (before ++ restart between ++ js)
          (powerOn strategy accessCount mem))) ↔
      ∀ ops, ops <+: later.filterMap sessionOp →
        (SessionManager.machine.run
          (before.filterMap sessionOp ++ SessionManager.restart (between.filterMap sessionOp) ++
            ops) .construct).isSessionValid sessionId = false := by
  have hstep : ∀ js, js <+: later →
      (Refused sessionId ((machine strategy).run (before ++ restart between ++ js)
          (powerOn strategy accessCount mem)) ↔
        (SessionManager.machine.run
          (before.filterMap sessionOp ++ SessionManager.restart (between.filterMap sessionOp) ++
            js.filterMap sessionOp) .construct).isSessionValid sessionId = false) := by
    intro js hjs
    obtain ⟨map, hsound⟩ :=
      (sound_powerOn strategy accessCount mem).run (before ++ restart between ++ js)
    have hready := isReady_restart strategy accessCount mem before between js
      fun event hevent => hlater event (hjs.subset hevent)
    rw [hsound.refused_iff hready, sessions_restart]
  constructor
  · intro h ops hops
    obtain ⟨js, hjs, rfl⟩ := List.prefix_filterMap_iff.mp hops
    exact (hstep js hjs).mp (h js hjs)
  · intro h js hjs
    exact (hstep js hjs).mpr (h _ (hjs.filterMap sessionOp))

end

/--
**Stale handles, exactly.**  Take a session id that is valid right before a
shutdown, restart, and go on without another `deinit`, fewer than `2³² − 2`
sessions being created in the whole run.  The session manager holds the id
invalid, and the firmware refuses every request under it, throughout the new
epoch if and only if the epoch creates fewer sessions than the id counts.
-/
theorem stale_handle_iff (strategy : Strategy) (accessCount : Fin kMaxKeySlots → UInt32)
    (mem : Memory) (sessionId : SessionId) :
    (∀ before between later : List SessionManager.Op,
      (SessionManager.machine.run before .construct).isSessionValid sessionId = true →
      (∀ op ∈ between, op ≠ .init) → (∀ op ∈ later, op ≠ .deinit) →
      SessionManager.createdIn (before ++ SessionManager.restart between ++ later) .construct <
        2 ^ 32 - 2 →
      ((∀ js, js <+: later →
          (SessionManager.machine.run (before ++ SessionManager.restart between ++ js)
            .construct).isSessionValid sessionId = false) ↔
        SessionManager.createdIn later
            (SessionManager.machine.run (before ++ SessionManager.restart between) .construct) <
          sessionId.toNat)) ∧
    ∀ before between later : List Event,
      ((machine strategy).run before
        (powerOn strategy accessCount mem)).world.sessions.isSessionValid sessionId = true →
      (∀ event ∈ between, event ≠ .init) → (∀ event ∈ later, event ≠ .deinit) →
      createdIn (before ++ restart between ++ later) (powerOn strategy accessCount mem) <
        2 ^ 32 - 2 →
      ((∀ js, js <+: later →
          Refused sessionId ((machine strategy).run (before ++ restart between ++ js)
            (powerOn strategy accessCount mem))) ↔
        createdIn later
            ((machine strategy).run (before ++ restart between)
              (powerOn strategy accessCount mem)) <
          sessionId.toNat) := by
  constructor
  · intro before between later
    exact SessionManager.stale_valid_iff before between later sessionId
  · intro before between later hvalid hbetween hlater hfew
    have hstart := sound_powerOn strategy accessCount mem
    rw [hstart.sessions_run] at hvalid
    rw [hstart.createdIn_eq, List.filterMap_append, List.filterMap_append, filterMap_restart]
      at hfew
    obtain ⟨map, hsound⟩ := hstart.run (before ++ restart between)
    have hsessions := sessions_restart strategy accessCount mem before between []
    simp only [List.append_nil, List.filterMap_nil] at hsessions
    rw [refused_restart_iff strategy accessCount mem before between later sessionId hlater,
      hsound.createdIn_eq, hsessions]
    exact SessionManager.stale_valid_iff _ _ _ sessionId hvalid
      (filterMap_sessionOp_ne eq_init_of_sessionOp hbetween)
      (filterMap_sessionOp_ne eq_deinit_of_sessionOp hlater) hfew

/-- While the new epoch has opened one session only, the second handle of the old one
stays invalid, and requests under it stay refused. -/
theorem stale_handle_before_second :
    (∀ js, js <+: [SessionManager.Op.createSession 0, .closeSession 2] →
      (SessionManager.machine.run
        ([.init, .createSession 0, .createSession 0] ++ SessionManager.restart [] ++ js)
        .construct).isSessionValid 2 = false) ∧
    ∀ js, js <+: [Event.createSession 0, .importKey 0 .aes128 [7] 1] →
      Refused 2 ((machine .aes128).run
        ([.init, .createSession 0, .createSession 0] ++ restart [] ++ js)
        (powerOn .aes128 (fun _ => 0) (fun _ => 0))) := by
  obtain ⟨hmanager, hfirmware⟩ := stale_handle_iff .aes128 (fun _ => 0) (fun _ => 0) 2
  constructor
  · exact (hmanager [.init, .createSession 0, .createSession 0] []
      [.createSession 0, .closeSession 2] (by decide +kernel) (by decide) (by decide)
      (by decide +kernel)).mpr (by decide +kernel)
  · exact (hfirmware [.init, .createSession 0, .createSession 0] []
      [.createSession 0, .importKey 0 .aes128 [7] 1] (by decide +kernel) (by simp) (by simp)
      (by decide +kernel)).mpr (by decide +kernel)

/-- The failing run: one session, a restart, one session.  The new session gets
the old id, and a request under the old handle is served with the new epoch's
key. -/
theorem restart_reissues :
    (SessionManager.machine.run [.init, .createSession 0] .construct).isSessionValid 1 = true ∧
      ((SessionManager.machine.run [.init, .createSession 0] .construct).deinit).1 = .ok ∧
      (SessionManager.machine.run ([.init, .createSession 0] ++ SessionManager.restart [] ++
        [.createSession 0]) .construct).isSessionValid 1 = true ∧
      (machine .aes128).reply (.encrypt 1 0 .aes128 ⟨0, 4⟩ ⟨4, 4⟩)
        ((machine .aes128).run
          ([.init, .createSession 0] ++ restart [] ++
            [.createSession 0, .importKey 0 .aes128 [7] 1])
          (powerOn .aes128 (fun _ => 0) fun _ => 0)) = .status .ok := by
  exact ⟨by decide, by decide, by decide, by decide +kernel⟩

end WiredHsm

end Ehsm
