import Ehsm.Session.Bag

/-!
# Session ids across a restart

`init` sets the counter back to `1`, so an initialisation epoch issues the same
ids as the one before it.  A handle of an earlier epoch is therefore refused
only until the new epoch has created as many sessions as the handle counts:
`stale_valid_iff` gives the exact point, for every run and every interleaving of
creations and closings.

The argument is carried by the bag: a restart leaves the empty bag with no
creation (`bagOf_restart`), from there the bag's count is the number of
successful creations (`run_online`), and each ticket below that count was live
at some point (`exists_ticket_live`).
-/

namespace Ehsm

open Reactive

namespace SessionManager

/-- A reply that reports a session created. -/
def Reply.isCreated : Reply → Bool
  | .session .ok _ => true
  | _ => false

/-- Shut down, make any calls but `init`, and start again. -/
def restart (between : List Op) : List Op := .deinit :: (between ++ [.init])

end SessionManager

namespace SessionBag

open SessionManager (Op Reply)

/-- Without `deinit` the bag stays online, counts the call if it creates a
session, and then holds the ticket of its ordinal. -/
theorem next_online (op : Op) (hop : op ≠ .deinit) (live : Multiset SessionId)
    (created : Nat) :
    ∃ live',
      machine.next op (.online live created) =
        .online live' (created +
          if (machine.reply op (.online live created)).isCreated then 1 else 0) ∧
      ((machine.reply op (.online live created)).isCreated = true → ticket created ∈ live') := by
  simp only [machine, Machine.next, Machine.reply]
  cases op with
  | deinit => contradiction
  | init | isSessionValid sessionId =>
      exact ⟨live, rfl, fun h => absurd h (by simp [step, Reply.isCreated])⟩
  | createSession sessionId =>
      by_cases hcard : live.card < kMaxSessions
      · simp only [step, if_pos hcard]
        exact ⟨ticket created ::ₘ live, rfl, fun _ => Multiset.mem_cons_self _ _⟩
      · simp only [step, if_neg hcard]
        exact ⟨live, rfl, fun h => absurd h (by simp [Reply.isCreated])⟩
  | closeSession sessionId =>
      by_cases hmem : sessionId ∈ live
      · simp only [step, if_pos hmem]
        exact ⟨live.erase sessionId, rfl, fun h => absurd h (by simp [Reply.isCreated])⟩
      · simp only [step, if_neg hmem]
        exact ⟨live, rfl, fun h => absurd h (by simp [Reply.isCreated])⟩

/-- How many sessions a run of the bag creates. -/
def createdIn (ops : List Op) (bag : SessionBag) : Nat :=
  (machine.replies ops bag).countP Reply.isCreated

theorem createdIn_cons (op : Op) (ops : List Op) (bag : SessionBag) :
    createdIn (op :: ops) bag =
      createdIn ops (machine.next op bag) +
        if (machine.reply op bag).isCreated then 1 else 0 := by
  rw [createdIn, Machine.replies_cons, List.countP_cons]
  rfl

theorem createdIn_append (ops ops' : List Op) (bag : SessionBag) :
    createdIn (ops ++ ops') bag = createdIn ops bag + createdIn ops' (machine.run ops bag) := by
  rw [createdIn, Machine.replies_append, List.countP_append]
  rfl

/-- Without `deinit` the bag's count is the number of creations. -/
theorem run_online (ops : List Op) (hops : ∀ op ∈ ops, op ≠ .deinit)
    (live : Multiset SessionId) (created : Nat) :
    ∃ live', machine.run ops (.online live created) =
      .online live' (created + createdIn ops (.online live created)) := by
  induction ops generalizing live created with
  | nil => exact ⟨live, rfl⟩
  | cons op ops ih =>
      obtain ⟨live₁, hnext, -⟩ := next_online op (hops op (by simp)) live created
      rw [Machine.run_cons, createdIn_cons, hnext]
      obtain ⟨live', hrun⟩ := ih (fun o ho => hops o (by simp [ho])) live₁ _
      refine ⟨live', ?_⟩
      rw [hrun]
      congr 1
      omega

/-- Each ticket a run issues is live right after it is issued. -/
theorem exists_ticket_live (ops : List Op) (hops : ∀ op ∈ ops, op ≠ .deinit)
    (live : Multiset SessionId) (created n : Nat)
    (hn : n < createdIn ops (.online live created)) :
    ∃ js, js <+: ops ∧ ∃ live' created',
      machine.run js (.online live created) = .online live' created' ∧
        ticket (created + n) ∈ live' := by
  induction ops generalizing live created n with
  | nil => exact absurd hn (Nat.not_lt_zero n)
  | cons op ops ih =>
      obtain ⟨live₁, hnext, hissued⟩ := next_online op (hops op (by simp)) live created
      rw [createdIn_cons, hnext] at hn
      have hops' : ∀ o ∈ ops, o ≠ .deinit := fun o ho => hops o (by simp [ho])
      have hlift : ∀ created₁ m, machine.next op (.online live created) = .online live₁ created₁ →
          m < createdIn ops (.online live₁ created₁) →
          ∃ js, js <+: op :: ops ∧ ∃ live' created',
            machine.run js (.online live created) = .online live' created' ∧
              ticket (created₁ + m) ∈ live' := by
        intro created₁ m hfirst hm
        obtain ⟨js, hjs, live', created', hrun, hmem⟩ := ih hops' live₁ created₁ m hm
        refine ⟨op :: js, List.cons_prefix_cons.mpr ⟨rfl, hjs⟩, live', created', ?_, hmem⟩
        rw [Machine.run_cons, hfirst]
        exact hrun
      cases hcreated : (machine.reply op (.online live created)).isCreated with
      | false =>
          simp only [hcreated, Bool.false_eq_true, if_false, Nat.add_zero] at hn hnext
          exact hlift created n hnext hn
      | true =>
          simp only [hcreated, if_true] at hn hnext
          cases n with
          | zero => exact ⟨[op], by simp, live₁, created + 1, hnext, hissued hcreated⟩
          | succ m =>
              have hm := hlift (created + 1) m hnext (by omega)
              rwa [Nat.add_right_comm, Nat.add_assoc] at hm

end SessionBag

namespace SessionManager

/-! ## The restart -/

/-- How many sessions a run creates. -/
def createdIn (ops : List Op) (sm : SessionManager) : Nat :=
  (machine.replies ops sm).countP Reply.isCreated

theorem createdIn_eq_of_represents {sm : SessionManager} {bag : SessionBag}
    (h : sm.Represents bag) (ops : List Op) : createdIn ops sm = bag.createdIn ops := by
  rw [createdIn, SessionBag.createdIn, simulates.replies_eq ops h]

theorem createdIn_append (ops ops' : List Op) (sm : SessionManager) :
    createdIn (ops ++ ops') sm = createdIn ops sm + createdIn ops' (machine.run ops sm) := by
  rw [createdIn, Machine.replies_append, List.countP_append]
  rfl

/-- A valid id means an initialised manager, so the bag is online. -/
theorem bagOf_online_of_valid (ops : List Op) {sessionId : SessionId}
    (h : (machine.run ops construct).isSessionValid sessionId = true) :
    ∃ live created, bagOf ops = .online live created := by
  obtain ⟨live, created, -, hbag, -⟩ := ticket_of_valid ops h
  exact ⟨live, created, hbag⟩

/-- Whatever ran before, a restart of a running manager leaves the empty bag
with no creation. -/
theorem bagOf_restart (before between : List Op) {sessionId : SessionId}
    (hvalid : (machine.run before construct).isSessionValid sessionId = true)
    (hbetween : ∀ op ∈ between, op ≠ .init) :
    bagOf (before ++ restart between) = .online 0 0 := by
  obtain ⟨live, created, hbag⟩ := bagOf_online_of_valid before hvalid
  have hoff : SessionBag.machine.run between .offline = .offline := by
    apply SessionBag.machine.run_eq_self
    intro op hop
    have hne := hbetween op hop
    cases op with
    | init => contradiction
    | deinit | createSession _ | closeSession _ | isSessionValid _ => rfl
  have hdeinit : SessionBag.machine.next .deinit (.online live created) = .offline := rfl
  rw [bagOf] at hbag
  rw [bagOf, restart, Machine.run_append, hbag, Machine.run_cons, hdeinit,
    Machine.run_append, hoff]
  exact SessionBag.next_init_offline

/--
**Stale handles, exactly.**  Take an id that is valid right before a shutdown,
restart the manager, and run on without another `deinit`, fewer than `2³² − 2`
sessions being created in the whole run.  The id stays invalid throughout the
new epoch if and only if the epoch creates fewer sessions than the id counts.
-/
theorem stale_valid_iff (before between later : List Op) (sessionId : SessionId)
    (hvalid : (machine.run before construct).isSessionValid sessionId = true)
    (hbetween : ∀ op ∈ between, op ≠ .init) (hlater : ∀ op ∈ later, op ≠ .deinit)
    (hfew : createdIn (before ++ restart between ++ later) construct < 2 ^ 32 - 2) :
    (∀ js, js <+: later →
        (machine.run (before ++ restart between ++ js) construct).isSessionValid sessionId =
          false) ↔
      createdIn later (machine.run (before ++ restart between) construct) <
        sessionId.toNat := by
  have hstart := bagOf_restart before between hvalid hbetween
  have hrep : (machine.run (before ++ restart between) construct).Represents (.online 0 0) := by
    have h := represents_run (before ++ restart between)
    rwa [hstart] at h
  have hcount := createdIn_eq_of_represents hrep later
  have hbound : createdIn later (machine.run (before ++ restart between) construct) <
      idPeriod := by
    rw [createdIn_append] at hfew
    exact Nat.lt_of_le_of_lt (Nat.le_add_left _ _) hfew
  have hbag : ∀ js, bagOf (before ++ restart between ++ js) =
      SessionBag.machine.run js (.online 0 0) := by
    intro js
    rw [bagOf, Machine.run_append]
    exact congrArg _ hstart
  constructor
  · -- a handle within the count is the ticket of a creation of the new epoch
    intro hstale
    by_contra hge
    obtain ⟨-, -, k, -, -, hk⟩ := ticket_of_valid before hvalid
    have hpos : 0 < sessionId.toNat := by
      rw [hk, ticket_toNat]
      omega
    have hlt : sessionId.toNat - 1 < SessionBag.createdIn later (.online 0 0) := by omega
    obtain ⟨js, hjs, live, created, hrun, hmem⟩ :=
      SessionBag.exists_ticket_live later hlater 0 0 (sessionId.toNat - 1) hlt
    have hid : ticket (0 + (sessionId.toNat - 1)) = sessionId := by
      apply UInt32.toNat_inj.mp
      rw [ticket_toNat_of_lt (by omega)]
      omega
    have hrepjs := represents_run (before ++ restart between ++ js)
    rw [hbag js, hrun] at hrepjs
    have hinvalid := hstale js hjs
    rw [isSessionValid_of_represents hrepjs, decide_eq_false_iff_not] at hinvalid
    rw [hid] at hmem
    exact hinvalid hmem
  · -- a valid id is the ticket of an earlier creation of the epoch
    intro hlt js hjs
    apply Bool.eq_false_iff.mpr
    intro hnow
    obtain ⟨live, created, k, hjsbag, hk, hid⟩ := ticket_of_valid _ hnow
    obtain ⟨live', hrun⟩ := SessionBag.run_online js
      (fun op hop => hlater op (hjs.subset hop)) 0 0
    rw [hbag js, hrun] at hjsbag
    obtain ⟨-, hcreated⟩ := SessionBag.online.inj hjsbag
    obtain ⟨rest, rfl⟩ := hjs
    have hle : SessionBag.createdIn js (.online 0 0) ≤
        SessionBag.createdIn (js ++ rest) (.online 0 0) := by
      rw [SessionBag.createdIn_append]
      exact Nat.le_add_right _ _
    have hval := ticket_toNat_of_lt (k := k) (by omega)
    rw [← hid] at hval
    omega

end SessionManager

end Ehsm
