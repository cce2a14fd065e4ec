import Ehsm.Session.Manager
import Mathlib.Data.Multiset.AddSub
import Mathlib.Data.Multiset.Filter
import Mathlib.Data.Nat.ModEq

/-!
# The session manager is a bounded bag of ids

What the manager is for: a bag of at most `kMaxSessions` live ids, together with
the number of sessions created since it was last started.  The `k`-th creation
issues `ticket k`, which runs through `1, …, 2³² − 2` and starts over.

`simulates` relates the table, its activity flags and the 32-bit counter to this
bag, call by call and replies included; the counter equation `advance_ticket` is
where the wrap at `0xFFFFFFFE` enters.

## Main results

* `SessionManager.simulates` — the manager and the bag move in step.
* `SessionManager.represents_run` — after any run the table holds the bag.
* `SessionManager.refines_bag` — the refinement with its consequences for ids.
-/

namespace Ehsm

open Reactive

/-! ## Tickets -/

/-- How many ids there are: all 32-bit values but `0` and `kInvalidSessionId`. -/
def idPeriod : Nat := 2 ^ 32 - 2

/-- The id the `k`-th creation of an epoch issues, counting from `0`. -/
def ticket (k : Nat) : SessionId := UInt32.ofNat (1 + k % idPeriod)

theorem idPeriod_eq : idPeriod = 4294967294 := by decide

theorem ticket_toNat (k : Nat) : (ticket k).toNat = 1 + k % idPeriod := by
  have hlt : k % idPeriod < idPeriod := Nat.mod_lt k (by decide)
  have hperiod := idPeriod_eq
  rw [ticket, UInt32.toNat_ofNat']
  omega

@[simp] theorem ticket_zero : ticket 0 = 1 := by decide

/-- Below one period the ordinal can be read off the id. -/
theorem ticket_toNat_of_lt {k : Nat} (h : k < idPeriod) : (ticket k).toNat = k + 1 := by
  rw [ticket_toNat, Nat.mod_eq_of_lt h, Nat.add_comm]

theorem ticket_eq_iff (i j : Nat) : ticket i = ticket j ↔ i ≡ j [MOD idPeriod] := by
  rw [← UInt32.toNat_inj, ticket_toNat, ticket_toNat, Nat.ModEq]
  omega

theorem ticket_ne_zero (k : Nat) : ticket k ≠ 0 := by
  intro h
  have hval := congrArg UInt32.toNat h
  rw [ticket_toNat, show (0 : UInt32).toNat = 0 from rfl] at hval
  omega

theorem ticket_ne_invalid (k : Nat) : ticket k ≠ kInvalidSessionId := by
  intro h
  have hval := congrArg UInt32.toNat h
  have hlt : k % idPeriod < idPeriod := Nat.mod_lt k (by decide)
  have hperiod := idPeriod_eq
  rw [ticket_toNat, show kInvalidSessionId.toNat = 4294967295 from rfl] at hval
  omega

/-- The counter steps from one ticket to the next, the wrap included. -/
theorem advance_ticket (k : Nat) : SessionManager.advance (ticket k) = ticket (k + 1) := by
  have hperiod := idPeriod_eq
  have hlt : k % idPeriod < idPeriod := Nat.mod_lt k (by decide)
  have hmod : (k + 1) % idPeriod =
      if k % idPeriod + 1 = idPeriod then 0 else k % idPeriod + 1 := by
    rw [Nat.add_mod, show 1 % idPeriod = 1 from by decide]
    split
    · next h => rw [h, Nat.mod_self]
    · next h => exact Nat.mod_eq_of_lt (by omega)
  have hsucc : (ticket k + 1).toNat = 2 + k % idPeriod := by
    rw [UInt32.toNat_add, ticket_toNat, show (1 : UInt32).toNat = 1 from rfl]
    omega
  have hwrap : ticket k + 1 = kInvalidSessionId ↔ k % idPeriod + 1 = idPeriod := by
    rw [← UInt32.toNat_inj, hsucc, show kInvalidSessionId.toNat = 4294967295 from rfl]
    omega
  apply UInt32.toNat_inj.mp
  rw [SessionManager.advance, ticket_toNat, hmod]
  by_cases hlast : k % idPeriod + 1 = idPeriod
  · rw [if_pos (hwrap.mpr hlast), if_pos hlast]
    rfl
  · rw [if_neg (fun h => hlast (hwrap.mp h)), if_neg hlast, hsucc]
    omega

/-! ## The bag -/

/-- Either not started, or the bag of live ids and the number of creations since
the start. -/
inductive SessionBag where
  | offline
  | online (live : Multiset SessionId) (created : Nat)

namespace SessionBag

open SessionManager (Op Reply)

def step : Op → SessionBag → Reply × SessionBag
  | .init, .offline => (.status .ok, .online 0 0)
  | .init, .online live created => (.status .ok, .online live created)
  | .deinit, .offline => (.status .errNotInitialized, .offline)
  | .deinit, .online _ _ => (.status .ok, .offline)
  | .createSession sessionId, .offline =>
      (.session .errNotInitialized sessionId, .offline)
  | .createSession sessionId, .online live created =>
      if live.card < kMaxSessions then
        (.session .ok (ticket created), .online (ticket created ::ₘ live) (created + 1))
      else (.session .errSessionInvalid sessionId, .online live created)
  | .closeSession _, .offline => (.status .errNotInitialized, .offline)
  | .closeSession sessionId, .online live created =>
      if sessionId ∈ live then (.status .ok, .online (live.erase sessionId) created)
      else (.status .errSessionInvalid, .online live created)
  | .isSessionValid _, .offline => (.valid false, .offline)
  | .isSessionValid sessionId, .online live created =>
      (.valid (decide (sessionId ∈ live)), .online live created)

def machine : Machine SessionBag Op Reply := ⟨step⟩

theorem next_init_offline : machine.next .init .offline = .online 0 0 := rfl

theorem next_createSession {live : Multiset SessionId} (created : Nat) (sessionId : SessionId)
    (h : live.card < kMaxSessions) :
    machine.next (.createSession sessionId) (.online live created) =
      .online (ticket created ::ₘ live) (created + 1) := by
  simp only [machine, Machine.next, step, if_pos h]

theorem next_closeSession {live : Multiset SessionId} (created : Nat) {sessionId : SessionId}
    (h : sessionId ∈ live) :
    machine.next (.closeSession sessionId) (.online live created) =
      .online (live.erase sessionId) created := by
  simp only [machine, Machine.next, step, if_pos h]

/-- Every live id is the ticket of an earlier creation. -/
def Issued : SessionBag → Prop
  | .offline => True
  | .online live created => ∀ x ∈ live, ∃ k, k < created ∧ x = ticket k

theorem issued_step (op : Op) (bag : SessionBag) (h : bag.Issued) :
    (machine.next op bag).Issued := by
  cases bag with
  | offline => cases op <;> first | trivial | exact fun x hx => absurd hx (Multiset.notMem_zero x)
  | online live created =>
      cases op with
      | init | isSessionValid sessionId => exact h
      | deinit => trivial
      | createSession sessionId =>
          simp only [machine, Machine.next, step]
          split
          · intro x hx
            rcases Multiset.mem_cons.mp hx with hx | hx
            · exact ⟨created, Nat.lt_succ_self created, hx⟩
            · obtain ⟨k, hk, hxk⟩ := h x hx
              exact ⟨k, Nat.lt_succ_of_lt hk, hxk⟩
          · exact h
      | closeSession sessionId =>
          simp only [machine, Machine.next, step]
          split
          · intro x hx
            exact h x (Multiset.mem_of_mem_erase hx)
          · exact h

end SessionBag

/-! ## The abstraction -/

namespace SessionManager

/-- The ids of the active entries. -/
def live (sm : SessionManager) : Multiset SessionId :=
  ↑((sm.sessions.filter (·.isActive)).map (·.id))

/-- The manager holds the bag: same live ids, and the counter shows the ticket
the next creation will issue.  A manager that is not started holds no live id. -/
def Represents (sm : SessionManager) : SessionBag → Prop
  | .offline => sm.isInitialized = false ∧ sm.live = 0
  | .online live created =>
      sm.isInitialized = true ∧ sm.live = live ∧ sm.nextSessionId = ticket created

theorem mem_live_iff (sm : SessionManager) (sessionId : SessionId) :
    sessionId ∈ sm.live ↔
      ∃ session ∈ sm.sessions, session.id = sessionId ∧ session.isActive = true := by
  simp only [live, Multiset.mem_coe, List.mem_map, List.mem_filter]
  constructor
  · rintro ⟨session, ⟨hmem, hactive⟩, hid⟩
    exact ⟨session, hmem, hid, hactive⟩
  · rintro ⟨session, hmem, hid, hactive⟩
    exact ⟨session, ⟨hmem, hactive⟩, hid⟩

/-- A table with no active entry holds the empty bag. -/
theorem live_eq_zero {sm : SessionManager}
    (h : ∀ session ∈ sm.sessions, session.isActive = false) : sm.live = 0 := by
  have hnone : sm.sessions.filter (·.isActive) = [] :=
    List.filter_eq_nil_iff.mpr fun session hsession => by simp [h session hsession]
  rw [live, hnone]
  rfl

/-- Every entry is either live or free: no entry is leaked. -/
theorem card_live_add_free (sm : SessionManager) :
    sm.live.card + sm.sessions.countP (fun session => !session.isActive) = kMaxSessions := by
  rw [live, Multiset.coe_card, List.length_map, ← List.countP_eq_length_filter,
    ← sm.sessions_length, List.length_eq_countP_add_countP (·.isActive)]
  simp

/-- The table is full exactly when the bag is. -/
theorem card_live_lt_iff (sm : SessionManager) :
    sm.live.card < kMaxSessions ↔ ∃ session ∈ sm.sessions, session.isActive = false := by
  have hsum := sm.card_live_add_free
  have hpos : 0 < sm.sessions.countP (fun session => !session.isActive) ↔
      ∃ session ∈ sm.sessions, session.isActive = false := by
    simp [List.countP_pos_iff]
  rw [← hpos]
  omega

/-- Opening an inactive entry adds its id to the bag. -/
theorem live_open {sm sm' : SessionManager} {pre post : List Session} {session : Session}
    (hold : sm.sessions = pre ++ session :: post) (hinactive : session.isActive = false)
    (hnew : sm'.sessions = pre ++ sm.openEntry session :: post) :
    sm'.live = sm.nextSessionId ::ₘ sm.live := by
  simp only [live, hold, hnew, List.filter_append, List.filter_cons, hinactive, openEntry,
    List.map_append, if_true, Bool.false_eq_true, if_false, List.map_cons]
  exact Multiset.coe_eq_coe.mpr List.perm_middle

/-- Closing an active entry removes one occurrence of its id. -/
theorem live_close {sm sm' : SessionManager} {pre post : List Session} {session : Session}
    (hold : sm.sessions = pre ++ session :: post) (hactive : session.isActive = true)
    (hnew : sm'.sessions = pre ++ closeEntry session :: post) :
    sm'.live = sm.live.erase session.id := by
  have hcons : sm.live = session.id ::ₘ sm'.live := by
    simp only [live, hold, hnew, List.filter_append, List.filter_cons, hactive, closeEntry,
      List.map_append, if_true, Bool.false_eq_true, if_false, List.map_cons]
    exact Multiset.coe_eq_coe.mpr List.perm_middle
  rw [hcons, Multiset.erase_cons_head]

/-! ## One call -/

theorem represents_init {sm : SessionManager} {bag : SessionBag} (h : sm.Represents bag) :
    machine.reply .init sm = SessionBag.machine.reply .init bag ∧
      (machine.next .init sm).Represents (SessionBag.machine.next .init bag) := by
  cases bag with
  | offline =>
      have hinit := init_of_not_initialized sm h.1
      refine ⟨?_, ?_⟩
      · simp [machine, SessionBag.machine, Machine.reply, step, SessionBag.step, hinit]
      · simp only [machine, SessionBag.machine, Machine.next, step, SessionBag.step, hinit]
        exact ⟨rfl, live_eq_zero sm.resetSessions_inactive, ticket_zero.symm⟩
  | online live created =>
      have hinit := init_of_initialized sm h.1
      refine ⟨?_, ?_⟩
      · simp [machine, SessionBag.machine, Machine.reply, step, SessionBag.step, hinit]
      · simp only [machine, SessionBag.machine, Machine.next, step, SessionBag.step, hinit]
        exact h

theorem represents_deinit {sm : SessionManager} {bag : SessionBag} (h : sm.Represents bag) :
    machine.reply .deinit sm = SessionBag.machine.reply .deinit bag ∧
      (machine.next .deinit sm).Represents (SessionBag.machine.next .deinit bag) := by
  cases bag with
  | offline =>
      have hdeinit := deinit_of_not_initialized sm h.1
      refine ⟨?_, ?_⟩
      · simp [machine, SessionBag.machine, Machine.reply, step, SessionBag.step, hdeinit]
      · simp only [machine, SessionBag.machine, Machine.next, step, SessionBag.step, hdeinit]
        exact h
  | online live created =>
      have hdeinit := deinit_of_initialized sm h.1
      refine ⟨?_, ?_⟩
      · simp [machine, SessionBag.machine, Machine.reply, step, SessionBag.step, hdeinit]
      · simp only [machine, SessionBag.machine, Machine.next, step, SessionBag.step, hdeinit]
        exact ⟨rfl, live_eq_zero sm.resetSessions_inactive⟩

theorem represents_createSession {sm : SessionManager} {bag : SessionBag}
    (sessionId : SessionId) (h : sm.Represents bag) :
    machine.reply (.createSession sessionId) sm =
        SessionBag.machine.reply (.createSession sessionId) bag ∧
      (machine.next (.createSession sessionId) sm).Represents
        (SessionBag.machine.next (.createSession sessionId) bag) := by
  simp only [machine, SessionBag.machine, Machine.reply, Machine.next, step]
  cases bag with
  | offline =>
      rw [createSession_of_not_initialized sm sessionId h.1]
      exact ⟨rfl, h⟩
  | online live created =>
      obtain ⟨hinit, hlive, hnext⟩ := h
      rcases createSession_cases sm sessionId hinit with
        ⟨hfull, hres⟩ | ⟨pre, session, post, sm', hold, hinactive, hres, hnew, hinit', hnext'⟩
      · have hcard : ¬ live.card < kMaxSessions := by
          rw [← hlive, card_live_lt_iff]
          rintro ⟨session, hmem, hfree⟩
          rw [hfull session hmem] at hfree
          contradiction
        rw [hres, SessionBag.step, if_neg hcard]
        exact ⟨rfl, hinit, hlive, hnext⟩
      · have hcard : live.card < kMaxSessions := by
          rw [← hlive, card_live_lt_iff]
          exact ⟨session, by simp [hold], hinactive⟩
        have hadd := live_open hold hinactive hnew
        rw [hres, SessionBag.step, if_pos hcard]
        refine ⟨by rw [hnext], hinit', ?_, ?_⟩
        · rw [hadd, hnext, hlive]
        · rw [hnext', hnext, advance_ticket]

theorem represents_closeSession {sm : SessionManager} {bag : SessionBag}
    (sessionId : SessionId) (h : sm.Represents bag) :
    machine.reply (.closeSession sessionId) sm =
        SessionBag.machine.reply (.closeSession sessionId) bag ∧
      (machine.next (.closeSession sessionId) sm).Represents
        (SessionBag.machine.next (.closeSession sessionId) bag) := by
  simp only [machine, SessionBag.machine, Machine.reply, Machine.next, step]
  cases bag with
  | offline =>
      rw [closeSession_of_not_initialized sm sessionId h.1]
      exact ⟨rfl, h⟩
  | online live created =>
      obtain ⟨hinit, hlive, hnext⟩ := h
      rcases closeSession_cases sm sessionId hinit with
        ⟨habsent, hres⟩ | ⟨pre, session, post, sm', hold, hid, hactive, hres, hnew, hinit', hnext'⟩
      · have hmem : sessionId ∉ live := by
          rw [← hlive, mem_live_iff]
          rintro ⟨session, hsession, hholds⟩
          have hfalse := habsent session hsession
          rw [holds_iff.mpr hholds] at hfalse
          contradiction
        rw [hres, SessionBag.step, if_neg hmem]
        exact ⟨rfl, hinit, hlive, hnext⟩
      · have hmem : sessionId ∈ live := by
          rw [← hlive, mem_live_iff]
          exact ⟨session, by simp [hold], hid, hactive⟩
        have herase := live_close hold hactive hnew
        rw [hres, SessionBag.step, if_pos hmem]
        refine ⟨rfl, hinit', ?_, by rw [hnext', hnext]⟩
        rw [herase, hid, hlive]

theorem isSessionValid_of_represents {sm : SessionManager} {live : Multiset SessionId}
    {created : Nat} (h : sm.Represents (.online live created)) (sessionId : SessionId) :
    sm.isSessionValid sessionId = decide (sessionId ∈ live) := by
  obtain ⟨hinit, hlive, -⟩ := h
  apply Bool.eq_iff_iff.mpr
  rw [isSessionValid_iff, decide_eq_true_iff, ← hlive, mem_live_iff]
  exact and_iff_right hinit

/-- The manager and the bag move in step: equal calls get equal replies and
leave the bag held. -/
theorem simulates : Machine.Simulation machine SessionBag.machine Represents Eq Eq := by
  apply Machine.Simulation.of_step
  intro op sm bag h
  cases op with
  | init => exact represents_init h
  | deinit => exact represents_deinit h
  | createSession sessionId => exact represents_createSession sessionId h
  | closeSession sessionId => exact represents_closeSession sessionId h
  | isSessionValid sessionId =>
      cases bag with
      | offline =>
          have hfalse : sm.isSessionValid sessionId = false := by
            simp [isSessionValid, h.1]
          exact ⟨congrArg Reply.valid hfalse, h⟩
      | online live created =>
          exact ⟨congrArg Reply.valid (isSessionValid_of_represents h sessionId), h⟩

/-! ## Runs -/

/-- The bag after a run of calls on a constructed manager. -/
def bagOf (ops : List Op) : SessionBag := SessionBag.machine.run ops .offline

theorem represents_construct : construct.Represents .offline := ⟨rfl, rfl⟩

theorem represents_run (ops : List Op) :
    (machine.run ops construct).Represents (bagOf ops) :=
  simulates.run_eq ops represents_construct

theorem replies_run (ops : List Op) :
    machine.replies ops construct = SessionBag.machine.replies ops .offline :=
  simulates.replies_eq ops represents_construct

theorem bagOf_issued (ops : List Op) : (bagOf ops).Issued :=
  SessionBag.machine.run_induction SessionBag.issued_step ops trivial

/-- What `createSession` answers, read off the bag. -/
theorem createSession_of_represents {sm : SessionManager} {live : Multiset SessionId}
    {created : Nat} (h : sm.Represents (.online live created)) (sessionId : SessionId) :
    ((sm.createSession sessionId).1 = .ok ↔ live.card < kMaxSessions) ∧
      ((sm.createSession sessionId).1 = .ok →
        (sm.createSession sessionId).2.1 = ticket created) := by
  have hreply := (represents_createSession sessionId h).1
  simp only [machine, SessionBag.machine, Machine.reply, step, SessionBag.step] at hreply
  split at hreply
  · next hcard =>
      obtain ⟨hstatus, hid⟩ := Reply.session.inj hreply
      exact ⟨iff_of_true hstatus hcard, fun _ => hid⟩
  · next hcard =>
      obtain ⟨hstatus, -⟩ := Reply.session.inj hreply
      have hne : (sm.createSession sessionId).1 ≠ .ok := by rw [hstatus]; decide
      exact ⟨iff_of_false hne hcard, fun h => absurd h hne⟩

/-- `closeSession` succeeds exactly on the valid ids. -/
theorem closeSession_ok_iff (sm : SessionManager) (sessionId : SessionId) :
    (sm.closeSession sessionId).1 = .ok ↔ sm.isSessionValid sessionId = true := by
  rw [isSessionValid_iff]
  cases hinit : sm.isInitialized with
  | false =>
      rw [closeSession_of_not_initialized sm sessionId hinit]
      simp
  | true =>
      rcases closeSession_cases sm sessionId hinit with
        ⟨habsent, hres⟩ | ⟨pre, session, post, sm', hold, hid, hactive, hres, -⟩
      · rw [hres]
        refine iff_of_false (by simp) ?_
        rintro ⟨-, session, hsession, hholds⟩
        have hfalse := habsent session hsession
        rw [holds_iff.mpr hholds] at hfalse
        contradiction
      · rw [hres]
        exact iff_of_true rfl ⟨rfl, session, by simp [hold], hid, hactive⟩

/-- A valid id is the ticket of a creation of the running epoch. -/
theorem ticket_of_valid (ops : List Op) {sessionId : SessionId}
    (h : (machine.run ops construct).isSessionValid sessionId = true) :
    ∃ live created k, bagOf ops = .online live created ∧ k < created ∧
      sessionId = ticket k := by
  have hrep := represents_run ops
  have hissued := bagOf_issued ops
  cases hbag : bagOf ops with
  | offline =>
      rw [hbag] at hrep
      rw [isSessionValid_iff, hrep.1] at h
      simp at h
  | online live created =>
      rw [hbag] at hrep hissued
      rw [isSessionValid_of_represents hrep, decide_eq_true_iff] at h
      obtain ⟨k, hk, hx⟩ := hissued sessionId h
      exact ⟨live, created, k, rfl, hk, hx⟩

/-- The sentinel ids are no tickets, so they are never valid. -/
theorem sentinel_not_valid (ops : List Op) {sessionId : SessionId}
    (h : sessionId = 0 ∨ sessionId = kInvalidSessionId) :
    (machine.run ops construct).isSessionValid sessionId = false := by
  apply Bool.eq_false_iff.mpr
  intro hvalid
  obtain ⟨-, -, k, -, -, hk⟩ := ticket_of_valid ops hvalid
  rcases h with rfl | rfl
  · exact ticket_ne_zero k hk.symm
  · exact ticket_ne_invalid k hk.symm

/-- A successful `createSession` issues the ticket of its ordinal. -/
theorem ticket_of_created (ops : List Op) {sessionId : SessionId}
    (h : ((machine.run ops construct).createSession sessionId).1 = .ok) :
    ∃ live created, bagOf ops = .online live created ∧
      ((machine.run ops construct).createSession sessionId).2.1 = ticket created := by
  have hrep := represents_run ops
  cases hbag : bagOf ops with
  | offline =>
      rw [hbag] at hrep
      rw [createSession_of_not_initialized _ sessionId hrep.1] at h
      contradiction
  | online live created =>
      rw [hbag] at hrep
      exact ⟨live, created, rfl, (createSession_of_represents hrep sessionId).2 h⟩

/--
**The session manager is a bounded bag of ids.**  After any run the replies are
those of `SessionBag` and the table holds its bag; the sentinel ids are never
valid, closable or issued; every entry is live or free; and a creation issues
`1 + k % (2³² − 2)` for its ordinal `k`, so that two creations agree exactly
when their ordinals do modulo the period.
-/
theorem refines_bag (ops : List Op) :
    machine.replies ops construct = SessionBag.machine.replies ops .offline ∧
    (machine.run ops construct).Represents (bagOf ops) ∧
    (∀ sessionId, sessionId = 0 ∨ sessionId = kInvalidSessionId →
      (machine.run ops construct).isSessionValid sessionId = false ∧
      ((machine.run ops construct).closeSession sessionId).1 ≠ .ok ∧
      ∀ out, ((machine.run ops construct).createSession out).1 = .ok →
        ((machine.run ops construct).createSession out).2.1 ≠ sessionId) ∧
    (∀ live created, bagOf ops = .online live created →
      live.card + (machine.run ops construct).sessions.countP
        (fun session => !session.isActive) = kMaxSessions) ∧
    ∀ live created out, bagOf ops = .online live created →
      ((machine.run ops construct).createSession out).1 = .ok →
      ((machine.run ops construct).createSession out).2.1.toNat =
        1 + created % (2 ^ 32 - 2) ∧
      ∀ ops' live' created' out', bagOf ops' = .online live' created' →
        ((machine.run ops' construct).createSession out').1 = .ok →
        (((machine.run ops construct).createSession out).2.1 =
            ((machine.run ops' construct).createSession out').2.1 ↔
          created ≡ created' [MOD 2 ^ 32 - 2]) := by
  have hrep := represents_run ops
  refine ⟨replies_run ops, hrep, ?_, ?_, ?_⟩
  · intro sessionId hsentinel
    have hinvalid := sentinel_not_valid ops hsentinel
    refine ⟨hinvalid, ?_, ?_⟩
    · rw [Ne, closeSession_ok_iff, hinvalid]
      decide
    · intro out hok
      obtain ⟨-, created, -, hid⟩ := ticket_of_created ops hok
      rw [hid]
      rcases hsentinel with rfl | rfl
      · exact ticket_ne_zero created
      · exact ticket_ne_invalid created
  · intro live created hbag
    rw [hbag] at hrep
    rw [← hrep.2.1]
    exact card_live_add_free _
  · intro live created out hbag hok
    rw [hbag] at hrep
    have hid := (createSession_of_represents hrep out).2 hok
    refine ⟨by rw [hid]; exact ticket_toNat created, ?_⟩
    intro ops' live' created' out' hbag' hok'
    have hrep' := represents_run ops'
    rw [hbag'] at hrep'
    rw [hid, (createSession_of_represents hrep' out').2 hok']
    exact ticket_eq_iff created created'

end SessionManager

end Ehsm
