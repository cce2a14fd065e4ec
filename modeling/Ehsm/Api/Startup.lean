import Ehsm.Api.Lifecycle

/-!
# Starting again after a failure

`HsmApiImpl::init` starts the services in order and raises its flag last.  When a
service refuses, nothing is rolled back: the services before it stay up and the
flag stays down.  The next attempt finds them up, where starting is free, and so
gets at least as far; and until one attempt gets all the way no operation reaches
a service.

Here the services are any three that start as the contract says.  What else they
do does not matter, since the facade does not ask them.

## Main results

* `StartableServices.chain_init_iff` — an attempt succeeds exactly when no service
  that is down refuses.
* `StartableServices.resumable` — the facade after any failed attempts.
-/

namespace Ehsm

open Reactive
open LifecycleServices (startOrder mem_startOrder)

variable {W : Type*}

/-! ## The facade while its flag is down -/

/-- The answer of a call that is refused because the facade is not ready, for the
calls other than `init` that return a status.  Out-parameters keep their value. -/
def Event.refusal : Event → Option Answer
  | .deinit | .closeSession _ | .encrypt _ _ _ _ _ | .decrypt _ _ _ _ _ | .importKey _ _ _ _
  | .deleteKey _ | .clearAllKeys => some (.status .errNotInitialized)
  | .createSession sessionId => some (.session .errNotInitialized sessionId)
  | .getKeySlotInfo _ info => some (.info .errNotInitialized info)
  | .init | .isReady | .isSessionValid _ | .getVersion | .store _ _ => none

/-- A facade that is not ready asks no service. -/
theorem Hsm.step_of_not_ready {svc : Services W} {hsm : Hsm svc} (h : hsm.api.isReady = false)
    {event : Event} {answer : Answer} (hrefusal : event.refusal = some answer) :
    Hsm.step event hsm = (answer, hsm) := by
  have hflag : ¬ hsm.api.isInitialized = true := by
    rw [show hsm.api.isInitialized = false from h]
    decide
  cases event with
  | init | isReady | isSessionValid _ | getVersion | store _ _ => cases hrefusal
  | deinit =>
      cases hrefusal
      rw [Hsm.step, HsmApiImpl.deinit, dif_neg hflag]
  | createSession sessionId =>
      cases hrefusal
      rw [Hsm.step, HsmApiImpl.createSession, dif_neg hflag]
      rfl
  | closeSession sessionId =>
      cases hrefusal
      rw [Hsm.step, HsmApiImpl.closeSession, dif_neg hflag]
      rfl
  | encrypt sessionId keySlotId algorithm input output =>
      cases hrefusal
      rw [Hsm.step, HsmApiImpl.encrypt, HsmApiImpl.crypt, dif_neg hflag]
  | decrypt sessionId keySlotId algorithm input output =>
      cases hrefusal
      rw [Hsm.step, HsmApiImpl.decrypt, HsmApiImpl.crypt, dif_neg hflag]
  | importKey keySlotId algorithm keyData permissions =>
      cases hrefusal
      rw [Hsm.step, HsmApiImpl.importKey, dif_neg hflag]
      rfl
  | deleteKey keySlotId =>
      cases hrefusal
      rw [Hsm.step, HsmApiImpl.deleteKey, dif_neg hflag]
      rfl
  | getKeySlotInfo keySlotId info =>
      cases hrefusal
      rw [Hsm.step, HsmApiImpl.getKeySlotInfo, dif_neg hflag]
      rfl
  | clearAllKeys =>
      cases hrefusal
      rw [Hsm.step, HsmApiImpl.clearAllKeys, dif_neg hflag]
      rfl

/-- Its flag and its services stay as they are until an `init`. -/
theorem Hsm.next_of_not_ready {svc : Services W} {hsm : Hsm svc} (h : hsm.api.isReady = false)
    {event : Event} (hinit : event ≠ .init) :
    ((Hsm.machine svc).next event hsm).api = hsm.api ∧
      ((Hsm.machine svc).next event hsm).world = hsm.world := by
  cases hrefusal : event.refusal with
  | some answer =>
      have hsame : (Hsm.machine svc).next event hsm = hsm :=
        congrArg Prod.snd (Hsm.step_of_not_ready h hrefusal)
      rw [hsame]
      exact ⟨rfl, rfl⟩
  | none =>
      cases event with
      | init => contradiction
      | isReady | isSessionValid _ | getVersion | store _ _ => exact ⟨rfl, rfl⟩
      | deinit | closeSession _ | encrypt _ _ _ _ _ | decrypt _ _ _ _ _ | importKey _ _ _ _
      | deleteKey _ | clearAllKeys | createSession _ | getKeySlotInfo _ _ => cases hrefusal

/-! ## Startable services -/

/-- Three services that start as the contract says. -/
structure StartableServices (W : Type*) where
  sessionManager : ISessionManager W
  keystoreService : IKeystoreService W
  cryptoService : ICryptoService W
  up : W → Service → Bool
  session_startable : Startable up .session sessionManager.init
  keystore_startable : Startable up .keystore keystoreService.init
  crypto_startable : Startable up .crypto cryptoService.init

namespace StartableServices

variable (ss : StartableServices W)

/-- The services as the facade is given them. -/
def services : Services W where
  sessionManager := some ss.sessionManager
  cryptoService := some ss.cryptoService
  keystoreService := some ss.keystoreService

theorem services_wired : ss.services.Wired := ⟨rfl, rfl, rfl⟩

def initOf : Service → W → Status × W
  | .session => ss.sessionManager.init
  | .keystore => ss.keystoreService.init
  | .crypto => ss.cryptoService.init

theorem startable (s : Service) : Startable ss.up s (ss.initOf s) := by
  cases s with
  | session => exact ss.session_startable
  | keystore => exact ss.keystore_startable
  | crypto => exact ss.crypto_startable

/-- No service of the list that is down when its turn comes refuses to start. -/
def NoRefusal : List Service → W → Prop
  | [], _ => True
  | s :: rest, w =>
      (ss.up w s = false → (ss.initOf s w).1 = .ok) ∧
        ((ss.initOf s w).1 = .ok → NoRefusal rest (ss.initOf s w).2)

/-- The services that are up are the first ones of the order. -/
def UpToPrefix (w : W) : Prop :=
  ∃ started, started <+: startOrder ∧ ∀ s, ss.up w s = true ↔ s ∈ started

/-! ## One attempt -/

/-- Services start in order exactly when none that is down refuses. -/
theorem chain_init_iff (order : List Service) (w : W) :
    (chain (order.map ss.initOf) w).1 = .ok ↔ ss.NoRefusal order w := by
  induction order generalizing w with
  | nil => exact iff_of_true rfl trivial
  | cons s rest ih =>
      rw [List.map_cons, NoRefusal]
      by_cases hok : (ss.initOf s w).1 = .ok
      · rw [chain_cons_ok hok, ih]
        exact ⟨fun h => ⟨fun _ => hok, fun _ => h⟩, fun h => h.2 hok⟩
      · rw [chain_cons_error hok]
        refine iff_of_false hok ?_
        intro h
        cases hws : ss.up w s with
        | true => exact hok ((ss.startable s).init_up w hws).1
        | false => exact hok (h.1 hws)

/-- A failed attempt leaves a prefix of the order up: the services that were, or
those before the one that refused, whichever are more. -/
theorem upToPrefix_of_failure {w : W} (h : ss.UpToPrefix w) {before after : List Service}
    {s : Service} {w' : W} (horder : startOrder = before ++ s :: after)
    (hbefore : chain (before.map ss.initOf) w = (.ok, w')) (hfail : (ss.initOf s w').1 ≠ .ok) :
    ss.UpToPrefix (ss.initOf s w').2 := by
  obtain ⟨started, hstarted, hup⟩ := h
  have hreached : before <+: startOrder := ⟨s :: after, horder.symm⟩
  have hchain := up_of_chain_ok ss.startable before w (congrArg Prod.fst hbefore)
  rw [hbefore] at hchain
  have hup' : ss.up (ss.initOf s w').2 = ss.up w' := by
    cases hws : ss.up w' s with
    | true => exact absurd ((ss.startable s).init_up w' hws).1 hfail
    | false =>
        rcases (ss.startable s).init_down w' hws with ⟨hok, -⟩ | ⟨-, hsame⟩
        · exact absurd hok hfail
        · exact hsame
  have hmem : ∀ t, ss.up (ss.initOf s w').2 t = true ↔ t ∈ before ∨ t ∈ started := by
    intro t
    rw [hup', hchain t, Bool.or_eq_true, decide_eq_true_eq, hup t]
  rcases List.prefix_or_prefix_of_prefix hreached hstarted with hsub | hsub
  · refine ⟨started, hstarted, ?_⟩
    intro t
    rw [hmem t]
    exact or_iff_right_of_imp fun ht => hsub.subset ht
  · refine ⟨before, hreached, ?_⟩
    intro t
    rw [hmem t]
    exact or_iff_left_of_imp fun ht => hsub.subset ht

/-- An attempt that failed: the facade asked the services in order up to one that
refused, returned its error, and asked no service after it. -/
def StopsAtRefusal (hsm : Hsm ss.services) : Prop :=
  ∃ before s after w', startOrder = before ++ s :: after ∧
    chain (before.map ss.initOf) hsm.world = (.ok, w') ∧ (ss.initOf s w').1 ≠ .ok ∧
    (Hsm.machine ss.services).reply .init hsm = .status (ss.initOf s w').1 ∧
    (Hsm.machine ss.services).next .init hsm = hsm.setWorld (ss.initOf s w').2

section

variable {ss}

/-- On a facade that is not ready an attempt starts everything or stops at the
first service that refuses. -/
theorem init_of_not_ready {hsm : Hsm ss.services} (h : hsm.api.isReady = false) :
    (ss.NoRefusal startOrder hsm.world →
        (Hsm.machine ss.services).reply .init hsm = .status .ok ∧
          ((Hsm.machine ss.services).next .init hsm).api.isReady = true ∧
          ∀ s, ss.up ((Hsm.machine ss.services).next .init hsm).world s = true) ∧
      (¬ ss.NoRefusal startOrder hsm.world → ss.StopsAtRefusal hsm) := by
  have hcalls : HsmApiImpl.startCalls ss.services_wired = startOrder.map ss.initOf := rfl
  have hcases := hsm.api.init_cases ss.services_wired hsm.world
  rw [hcalls] at hcases
  rw [← ss.chain_init_iff]
  simp only [StopsAtRefusal, Hsm.machine, Machine.reply, Machine.next, Hsm.step]
  rcases hcases with ⟨hflag, -⟩ | ⟨-, hfail, hres⟩ | ⟨-, hok, hres⟩
  · exact absurd (h.symm.trans hflag) (by decide)
  · refine ⟨fun hok => absurd hok hfail, ?_⟩
    intro _
    obtain ⟨before, s, after, w', horder, hbefore, hrefuses, hchain⟩ :=
      chain_stops ss.initOf startOrder hsm.world hfail
    rw [hchain] at hres
    refine ⟨before, s, after, w', horder, hbefore, hrefuses, ?_, ?_⟩
    · rw [hres]
    · rw [hres]
      rfl
  · refine ⟨?_, fun hfail => absurd hok hfail⟩
    intro _
    rw [hres]
    refine ⟨rfl, rfl, ?_⟩
    intro s
    rw [up_of_chain_ok ss.startable startOrder hsm.world hok s]
    simp [mem_startOrder s]

end

/-! ## Any number of attempts -/

/-- Not ready, with a prefix of the services up: what the facade is like until an
attempt succeeds. -/
def Starting (hsm : Hsm ss.services) : Prop :=
  hsm.api.isReady = false ∧ ss.UpToPrefix hsm.world

/-- A call other than a successful `init` keeps the facade so. -/
theorem starting_next {hsm : Hsm ss.services} (h : ss.Starting hsm) (event : Event)
    (hfailed : (event, (Hsm.machine ss.services).reply event hsm) ≠ (.init, .status .ok)) :
    ss.Starting ((Hsm.machine ss.services).next event hsm) := by
  obtain ⟨hready, hfirst⟩ := h
  by_cases hinit : event = .init
  · subst hinit
    obtain ⟨hstarts, hstops⟩ := init_of_not_ready hready
    by_cases hclean : ss.NoRefusal startOrder hsm.world
    · exact absurd (congrArg (Prod.mk Event.init) (hstarts hclean).1) hfailed
    · obtain ⟨before, s, after, w', horder, hbefore, hrefuses, -, hnext⟩ := hstops hclean
      rw [hnext]
      exact ⟨hready, ss.upToPrefix_of_failure hfirst horder hbefore hrefuses⟩
  · obtain ⟨hapi, hworld⟩ := Hsm.next_of_not_ready hready hinit
    rw [Starting, hapi, hworld]
    exact ⟨hready, hfirst⟩

theorem starting_run {hsm : Hsm ss.services} (h : ss.Starting hsm) (events : List Event)
    (hfailed : ∀ x ∈ (Hsm.machine ss.services).trace events hsm, x ≠ (.init, .status .ok)) :
    ss.Starting ((Hsm.machine ss.services).run events hsm) := by
  induction events generalizing hsm with
  | nil => exact h
  | cons event events ih =>
      obtain ⟨hhead, htail⟩ := List.forall_mem_cons.mp hfailed
      exact ih (ss.starting_next h event hhead) htail

/--
**Starting is resumable, and nothing gets through before it is complete.**  After
any calls without a successful `init`, on services that were all down: the
services that are up are the first ones of the order, the facade is not ready,
and every other call that returns a status returns `errNotInitialized` and leaves
everything as it is.  The next `init` succeeds if and only if no service that is
down refuses, and then all services are up and the facade is ready; otherwise it
returns the error of the first one that refuses and asks none after it.
-/
theorem resumable (events : List Event) (mem : Memory) (w : W)
    (hdown : ∀ s, ss.up w s = false)
    (hfailed : ∀ x ∈ (Hsm.machine ss.services).trace events (.boot ss.services mem w),
      x ≠ (.init, .status .ok)) :
    let hsm := (Hsm.machine ss.services).run events (.boot ss.services mem w)
    let hsm' := (Hsm.machine ss.services).next .init hsm
    ss.UpToPrefix hsm.world ∧ hsm.api.isReady = false ∧
      (∀ event answer, event.refusal = some answer →
        (Hsm.machine ss.services).reply event hsm = answer ∧
          (Hsm.machine ss.services).next event hsm = hsm) ∧
      ((Hsm.machine ss.services).reply .init hsm = .status .ok ↔
        ss.NoRefusal startOrder hsm.world) ∧
      (ss.NoRefusal startOrder hsm.world →
        hsm'.api.isReady = true ∧ ∀ s, ss.up hsm'.world s = true) ∧
      (¬ ss.NoRefusal startOrder hsm.world → ss.StopsAtRefusal hsm) := by
  intro hsm hsm'
  have hboot : ss.Starting (.boot ss.services mem w) := by
    refine ⟨rfl, [], List.nil_prefix, ?_⟩
    intro s
    exact iff_of_false (Bool.eq_false_iff.mp (hdown s)) List.not_mem_nil
  obtain ⟨hready, hfirst⟩ := ss.starting_run hboot events hfailed
  obtain ⟨hstarts, hstops⟩ := init_of_not_ready hready
  refine ⟨hfirst, hready, ?_, ?_, fun hclean => (hstarts hclean).2, hstops⟩
  · intro event answer hrefusal
    have hstep := Hsm.step_of_not_ready hready hrefusal
    exact ⟨congrArg Prod.fst hstep, congrArg Prod.snd hstep⟩
  · constructor
    · intro hok
      by_contra hrefused
      obtain ⟨before, s, after, w', -, -, hrefuses, hreply, -⟩ := hstops hrefused
      exact hrefuses (Answer.status.inj (hreply.symm.trans hok))
    · exact fun hclean => (hstarts hclean).1

/-! ## A key store that refuses twice -/

/-- The state of three services, and how often the key store still refuses. -/
structure Flaky where
  up : Service → Bool
  refusals : Nat

def Flaky.start (s : Service) (f : Flaky) : Status × Flaky :=
  if f.up s then (.ok, f)
  else if s = .keystore ∧ 0 < f.refusals then
    (.errHardware, { f with refusals := f.refusals - 1 })
  else (.ok, { f with up := Function.update f.up s true })

theorem flaky_startable (s : Service) : Startable Flaky.up s (Flaky.start s) := by
  constructor
  · intro f hf
    rw [Flaky.start, if_pos hf]
    exact ⟨rfl, rfl⟩
  · intro f hf
    rw [Flaky.start, if_neg (by simp [hf])]
    split
    · exact .inr ⟨by simp, rfl⟩
    · exact .inl ⟨rfl, rfl⟩

def flaky : StartableServices Flaky where
  sessionManager := .idle (Flaky.start .session) fun f => (.ok, f)
  keystoreService := .idle (Flaky.start .keystore) fun f => (.ok, f)
  cryptoService := .idle (Flaky.start .crypto) fun f => (.ok, f)
  up := Flaky.up
  session_startable := flaky_startable .session
  keystore_startable := flaky_startable .keystore
  crypto_startable := flaky_startable .crypto

/-- Two attempts fail at the key store, the third one succeeds. -/
theorem flaky_third_attempt :
    (Hsm.machine flaky.services).reply .init
        ((Hsm.machine flaky.services).run [.init, .createSession 0, .init]
          (.boot flaky.services (fun _ => 0) ⟨fun _ => false, 2⟩)) = .status .ok :=
  (flaky.resumable [.init, .createSession 0, .init] (fun _ => 0) ⟨fun _ => false, 2⟩
    (fun _ => rfl) (by decide)).2.2.2.1.mpr
    ⟨fun _ => rfl, fun _ => ⟨fun _ => rfl, fun _ => ⟨fun _ => rfl, fun _ => trivial⟩⟩⟩

end StartableServices

end Ehsm
