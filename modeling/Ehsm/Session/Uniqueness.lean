import Ehsm.Session.Bag

/-!
# When live session ids are unique

The counter comes round after `2³² − 2` creations, and `createSession` does not
look whether the id it takes is still in use.  So two active entries hold one id
as soon as a session outlives a whole round of the counter, and closing one of
them leaves the id valid.

`unique_throughout_iff` says exactly which runs are spared: those in which no
session is opened while the counter shows the id of an active entry.  It is the
library's exactness rule applied to `uniqueIds_next_iff`, the same statement
about one call.  In terms of the bag, no session is opened while the ticket of its
ordinal is among the live ids.

## Main results

* `SessionManager.uniqueIds_next_iff` — when one call keeps the ids unique.
* `SessionManager.unique_throughout_iff` — when a whole run does, on the manager's state
  and on the bag.
-/

namespace Ehsm

open Reactive

namespace SessionManager

/-- No two active entries hold the same id. -/
def UniqueIds (sm : SessionManager) : Prop :=
  sm.sessions.Pairwise fun a b => a.isActive = true → b.isActive = true → a.id ≠ b.id

/-- An id that was closed successfully is no longer valid. -/
def ClosesForGood (sm : SessionManager) : Prop :=
  ∀ sessionId, (sm.closeSession sessionId).1 = .ok →
    (sm.closeSession sessionId).2.isSessionValid sessionId = false

/-- A session is opened only while no active entry holds the counter's id. -/
def FreshCounter : Op → SessionManager → Prop
  | .createSession _, sm =>
      sm.isInitialized = true → (∃ session ∈ sm.sessions, session.isActive = false) →
        ∀ session ∈ sm.sessions, session.isActive = true → session.id ≠ sm.nextSessionId
  | _, _ => True

/-- A session is opened only while the ticket of its ordinal is not among the live
ids. -/
def FreshTicket : Op → SessionBag → Prop
  | .createSession _, .online live created =>
      live.card < kMaxSessions → ticket created ∉ live
  | _, _ => True

theorem uniqueIds_iff (sm : SessionManager) : sm.UniqueIds ↔ sm.live.Nodup := by
  rw [live, Multiset.coe_nodup, List.nodup_iff_pairwise_ne, List.pairwise_map,
    List.pairwise_filter]
  exact Iff.rfl

theorem uniqueIds_of_inactive {sm : SessionManager}
    (h : ∀ session ∈ sm.sessions, session.isActive = false) : sm.UniqueIds := by
  rw [uniqueIds_iff, live_eq_zero h]
  exact Multiset.nodup_zero

theorem uniqueIds_construct : construct.UniqueIds := by
  apply uniqueIds_of_inactive
  intro session hsession
  rw [List.eq_of_mem_replicate hsession]

/-! ## One call -/

/-- The counter's id is in use exactly when it is in the bag. -/
theorem nextSessionId_mem_live_iff (sm : SessionManager) :
    sm.nextSessionId ∉ sm.live ↔
      ∀ session ∈ sm.sessions, session.isActive = true → session.id ≠ sm.nextSessionId := by
  rw [mem_live_iff]
  constructor
  · intro h session hsession hactive hid
    exact h ⟨session, hsession, hid, hactive⟩
  · rintro h ⟨session, hsession, hid, hactive⟩
    exact h session hsession hactive hid

/-- Opening a session keeps the ids unique exactly when the counter is fresh. -/
theorem uniqueIds_createSession_iff (sm : SessionManager) (sessionId : SessionId)
    (h : sm.UniqueIds) :
    (sm.createSession sessionId).2.2.UniqueIds ↔ FreshCounter (.createSession sessionId) sm := by
  simp only [FreshCounter]
  cases hinit : sm.isInitialized with
  | false =>
      rw [createSession_of_not_initialized sm sessionId hinit]
      exact iff_of_true h (fun hfalse => absurd hfalse (by decide))
  | true =>
      rcases createSession_cases sm sessionId hinit with
        ⟨hfull, hres⟩ | ⟨pre, session, post, sm', hold, hinactive, hres, hnew, -⟩
      · rw [hres]
        refine iff_of_true h ?_
        rintro - ⟨session, hsession, hfree⟩
        rw [hfull session hsession] at hfree
        contradiction
      · have hfree : ∃ session ∈ sm.sessions, session.isActive = false :=
          ⟨session, by simp [hold], hinactive⟩
        have hnodup : sm.live.Nodup := (uniqueIds_iff sm).mp h
        rw [hres, uniqueIds_iff, live_open hold hinactive hnew, Multiset.nodup_cons,
          and_iff_left hnodup, nextSessionId_mem_live_iff]
        exact ⟨fun hfresh _ _ => hfresh, fun hfresh => hfresh rfl hfree⟩

theorem uniqueIds_closeSession (sm : SessionManager) (sessionId : SessionId)
    (h : sm.UniqueIds) : (sm.closeSession sessionId).2.UniqueIds := by
  cases hinit : sm.isInitialized with
  | false =>
      rw [closeSession_of_not_initialized sm sessionId hinit]
      exact h
  | true =>
      rcases closeSession_cases sm sessionId hinit with
        ⟨-, hres⟩ | ⟨pre, session, post, sm', hold, -, hactive, hres, hnew, -⟩
      · rw [hres]
        exact h
      · rw [hres, uniqueIds_iff, live_close hold hactive hnew]
        exact ((uniqueIds_iff sm).mp h).erase session.id

/-- With unique ids, a successful close removes the only occurrence. -/
theorem closesForGood_of_uniqueIds {sm : SessionManager} (h : sm.UniqueIds) :
    sm.ClosesForGood := by
  intro sessionId hok
  have hvalid := (closeSession_ok_iff sm sessionId).mp hok
  have hinit := ((isSessionValid_iff sm sessionId).mp hvalid).1
  rcases closeSession_cases sm sessionId hinit with
    ⟨-, hres⟩ | ⟨pre, session, post, sm', hold, hid, hactive, hres, hnew, -⟩
  · rw [hres] at hok
    contradiction
  · rw [hres]
    apply Bool.eq_false_iff.mpr
    intro hstill
    have hmem := (mem_live_iff sm' sessionId).mpr ((isSessionValid_iff sm' sessionId).mp hstill).2
    rw [live_close hold hactive hnew, hid] at hmem
    exact ((uniqueIds_iff sm).mp h).notMem_erase hmem

/-- One call keeps the ids unique exactly when it meets `FreshCounter`. -/
theorem uniqueIds_next_iff (op : Op) (sm : SessionManager) (h : sm.UniqueIds) :
    (machine.next op sm).UniqueIds ↔ FreshCounter op sm := by
  cases op with
  | init =>
      refine iff_of_true ?_ trivial
      show sm.init.2.UniqueIds
      cases hinit : sm.isInitialized with
      | false =>
          rw [init_of_not_initialized sm hinit]
          exact uniqueIds_of_inactive sm.resetSessions_inactive
      | true =>
          rw [init_of_initialized sm hinit]
          exact h
  | deinit =>
      refine iff_of_true ?_ trivial
      show sm.deinit.2.UniqueIds
      cases hinit : sm.isInitialized with
      | false =>
          rw [deinit_of_not_initialized sm hinit]
          exact h
      | true =>
          rw [deinit_of_initialized sm hinit]
          exact uniqueIds_of_inactive sm.resetSessions_inactive
  | createSession sessionId => exact uniqueIds_createSession_iff sm sessionId h
  | closeSession sessionId => exact iff_of_true (uniqueIds_closeSession sm sessionId h) trivial
  | isSessionValid sessionId => exact iff_of_true h trivial

/-- On a manager that holds a bag, the counter is fresh when the ticket is. -/
theorem freshCounter_iff (op : Op) (sm : SessionManager) (bag : SessionBag)
    (h : sm.Represents bag) : FreshCounter op sm ↔ FreshTicket op bag := by
  cases op with
  | init | deinit | closeSession _ | isSessionValid _ => cases bag <;> exact Iff.rfl
  | createSession sessionId =>
      cases bag with
      | offline =>
          refine iff_of_true ?_ trivial
          exact fun hinit => absurd (h.1.symm.trans hinit) (by decide)
      | online live created =>
          obtain ⟨hinit, hlive, hnext⟩ := h
          rw [FreshCounter, FreshTicket, ← nextSessionId_mem_live_iff, ← card_live_lt_iff, hlive,
            hnext]
          exact ⟨fun hfresh => hfresh hinit, fun hfresh _ => hfresh⟩

/-! ## Runs -/

/--
**Uniqueness, exactly.**  In a run of any length, all states have unique live
ids and close ids for good if and only if every `createSession` that finds a
free entry is made while no active entry holds the counter's id; that is, while
the ticket of the creation's ordinal is not among the live ids.
-/
theorem unique_throughout_iff (ops : List Op) :
    (machine.Always (fun sm => sm.UniqueIds ∧ sm.ClosesForGood) ops construct ↔
        machine.Steps FreshCounter ops construct) ∧
      (machine.Steps FreshCounter ops construct ↔
        SessionBag.machine.Steps FreshTicket ops .offline) := by
  refine ⟨?_, simulates.steps_iff freshCounter_iff ops represents_construct⟩
  have hsame : (fun sm : SessionManager => sm.UniqueIds ∧ sm.ClosesForGood) = UniqueIds := by
    funext sm
    exact propext (and_iff_left_of_imp closesForGood_of_uniqueIds)
  rw [hsame]
  exact machine.always_iff_steps (Q := fun _ => True) (fun _ _ _ => trivial)
    (fun op sm _ h => uniqueIds_next_iff op sm h) ops trivial uniqueIds_construct

/-! ## The counter comes round -/

/-- Open and close the sessions with ordinals `1, …, n`. -/
def churn (n : Nat) : List Op :=
  (List.range n).flatMap fun k => [.createSession 0, .closeSession (ticket (k + 1))]

/-- Keep the first session open, churn through `n` more, open another one. -/
def reuseRun (n : Nat) : List Op :=
  [.init, .createSession 0] ++ churn n ++ [.createSession 0]

theorem card_singleton_lt (sessionId : SessionId) :
    ({sessionId} : Multiset SessionId).card < kMaxSessions := by
  rw [Multiset.card_singleton]
  decide

/-- Churning leaves the bag alone and moves the counter. -/
theorem churn_bag (n : Nat) :
    SessionBag.machine.run (churn n) (.online {1} 1) = .online {1} (n + 1) := by
  induction n with
  | zero => rfl
  | succ n ih =>
      have hsplit : churn (n + 1) =
          churn n ++ [.createSession 0, .closeSession (ticket (n + 1))] := by
        rw [churn, List.range_succ, List.flatMap_append]
        rfl
      rw [hsplit, Machine.run_append, ih, Machine.run_cons, Machine.run_cons, Machine.run_nil,
        SessionBag.next_createSession _ _ (card_singleton_lt 1),
        SessionBag.next_closeSession _ (Multiset.mem_cons_self _ _), Multiset.erase_cons_head]

theorem reuseRun_bag (n : Nat) :
    bagOf (reuseRun n) = .online (ticket (n + 1) ::ₘ {1}) (n + 2) := by
  have hstart : SessionBag.machine.run [.init, .createSession 0] .offline = .online {1} 1 := by
    rw [Machine.run_cons, Machine.run_cons, Machine.run_nil, SessionBag.next_init_offline,
      SessionBag.next_createSession _ _ (by decide), ticket_zero]
    rfl
  rw [bagOf, reuseRun, Machine.run_append, Machine.run_append, hstart, churn_bag,
    Machine.run_cons, Machine.run_nil, SessionBag.next_createSession _ _ (card_singleton_lt 1)]

/-- If the counter is back at the first id after `n` more sessions, the last two
entries opened share it: the ids are not unique, and closing the id leaves it
valid. -/
theorem reuseRun_shares {n : Nat} (hround : ticket (n + 1) = 1) :
    ¬ (machine.run (reuseRun n) construct).UniqueIds ∧
      ((machine.run (reuseRun n) construct).closeSession 1).1 = .ok ∧
      ((machine.run (reuseRun n) construct).closeSession 1).2.isSessionValid 1 = true := by
  have hrep := represents_run (reuseRun n)
  rw [reuseRun_bag, hround] at hrep
  have hmem : (1 : SessionId) ∈ (1 ::ₘ {1} : Multiset SessionId) := Multiset.mem_cons_self 1 {1}
  have hclose := (represents_closeSession 1 hrep).2
  rw [SessionBag.next_closeSession _ hmem, Multiset.erase_cons_head] at hclose
  refine ⟨?_, ?_, ?_⟩
  · rw [uniqueIds_iff, hrep.2.1, Multiset.nodup_cons]
    simp
  · rw [closeSession_ok_iff, isSessionValid_of_represents hrep]
    exact decide_eq_true hmem
  · have hvalid := isSessionValid_of_represents hclose 1
    rw [decide_eq_true (Multiset.mem_singleton_self (1 : SessionId))] at hvalid
    exact hvalid

theorem ticket_period : ticket (idPeriod - 1 + 1) = 1 := by
  rw [← ticket_zero, ticket_eq_iff]
  decide

/-- The failing run: one session stays open while `2³² − 3` others come and go,
and the next one is given its id. -/
theorem reuseRun_period_shares :
    ¬ (machine.run (reuseRun (idPeriod - 1)) construct).UniqueIds ∧
      ((machine.run (reuseRun (idPeriod - 1)) construct).closeSession 1).1 = .ok ∧
      ((machine.run (reuseRun (idPeriod - 1)) construct).closeSession 1).2.isSessionValid 1 =
        true :=
  reuseRun_shares ticket_period

end SessionManager

end Ehsm
