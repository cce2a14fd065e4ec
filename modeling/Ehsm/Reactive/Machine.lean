import Mathlib.Data.List.Basic
import Mathlib.Data.List.Forall2
import Mathlib.Tactic.TypeStar

/-!
# Reactive machines

A component driven from outside is a *machine*: a call and a state determine a
reply and the next state.  Nothing here depends on what the calls are.  The
module supplies the induction principles that statements about whole runs rest
on, so that each of them is left with an obligation about a single call.

## Main results

* `run_induction` — what every call preserves holds after every run.
* `run_lastEvent` — a state described by the latest event of each kind is still
  described by it after the run.
* `steps_keeps_or_exists_last_change` — a view of the state is kept by every call of a
  run, or there is a last call that changed it.
* `always_iff_steps` — a property holds throughout a run exactly when each of
  its calls is admissible, provided admissibility decides one call.
* `Simulation.replies`, `Simulation.run` — two machines in step answer alike
  and stay related; related inputs and replies are arbitrary relations, so this
  covers refinement and noninterference.
* `run_flatMap` — a component of a machine runs the calls projected to it.
-/

namespace Reactive

/-- A deterministic machine: a call and a state give a reply and a next state. -/
structure Machine (σ ι ο : Type*) where
  step : ι → σ → ο × σ

namespace Machine

variable {σ τ ι κ ο π α ν : Type*}

/-! ## Calls, runs and traces -/

section Run

variable (M : Machine σ ι ο)

/-- What the call answers. -/
def reply (i : ι) (s : σ) : ο := (M.step i s).1

/-- The state the call leaves. -/
def next (i : ι) (s : σ) : σ := (M.step i s).2

/-- The state after a finite run of calls, the first of them first. -/
def run : List ι → σ → σ
  | [], s => s
  | i :: is, s => run is (M.next i s)

/-- The calls of a run, each with what it answered. -/
def trace : List ι → σ → List (ι × ο)
  | [], _ => []
  | i :: is, s => (i, M.reply i s) :: trace is (M.next i s)

/-- The answers of a run. -/
def replies (is : List ι) (s : σ) : List ο := (M.trace is s).map Prod.snd

@[simp] theorem run_nil (s : σ) : M.run [] s = s := rfl

@[simp] theorem run_cons (i : ι) (is : List ι) (s : σ) :
    M.run (i :: is) s = M.run is (M.next i s) := rfl

@[simp] theorem trace_nil (s : σ) : M.trace [] s = [] := rfl

@[simp] theorem trace_cons (i : ι) (is : List ι) (s : σ) :
    M.trace (i :: is) s = (i, M.reply i s) :: M.trace is (M.next i s) := rfl

@[simp] theorem replies_nil (s : σ) : M.replies [] s = [] := rfl

@[simp] theorem replies_cons (i : ι) (is : List ι) (s : σ) :
    M.replies (i :: is) s = M.reply i s :: M.replies is (M.next i s) := rfl

/-- A run in two parts is the second part run from where the first one ends. -/
theorem run_append (is js : List ι) (s : σ) :
    M.run (is ++ js) s = M.run js (M.run is s) := by
  induction is generalizing s with
  | nil => rfl
  | cons i is ih => exact ih (M.next i s)

theorem trace_append (is js : List ι) (s : σ) :
    M.trace (is ++ js) s = M.trace is s ++ M.trace js (M.run is s) := by
  induction is generalizing s with
  | nil => rfl
  | cons i is ih =>
      simp only [List.cons_append, trace_cons, run_cons]
      rw [ih (M.next i s)]

theorem replies_append (is js : List ι) (s : σ) :
    M.replies (is ++ js) s = M.replies is s ++ M.replies js (M.run is s) := by
  rw [replies, trace_append, List.map_append]
  rfl

/-- The machine that answers each call with the call and the answer. -/
def logged : Machine σ ι (ι × ο) := ⟨fun i s => ((i, M.reply i s), M.next i s)⟩

theorem replies_logged (is : List ι) (s : σ) : M.logged.replies is s = M.trace is s := by
  induction is generalizing s with
  | nil => rfl
  | cons i is ih => exact congrArg ((i, M.reply i s) :: ·) (ih (M.next i s))

/-- What every call preserves holds after every run. -/
theorem run_induction {P : σ → Prop} (hstep : ∀ i s, P s → P (M.next i s))
    (is : List ι) {s : σ} (h : P s) : P (M.run is s) := by
  induction is generalizing s with
  | nil => exact h
  | cons i is ih => exact ih (hstep i s h)

/-- A run all of whose calls leave the state alone leaves the state alone. -/
theorem run_eq_self {s : σ} (is : List ι) (h : ∀ i ∈ is, M.next i s = s) :
    M.run is s = s := by
  induction is with
  | nil => rfl
  | cons i is ih =>
      rw [run_cons, h i (by simp)]
      exact ih fun j hj => h j (by simp [hj])

end Run

/-! ## The latest event of a trace

An *event* is what an observer keeps of one call and its reply; most calls are
no event.  A state that is a function of the latest event of each kind `k` stays
one along any run.
-/

/-- The latest event of a trace, if there was one. -/
def lastEvent (event : ι → ο → Option α) (tr : List (ι × ο)) : Option α :=
  (tr.filterMap fun x => event x.1 x.2).getLast?

@[simp] theorem lastEvent_nil (event : ι → ο → Option α) :
    lastEvent event [] = none := rfl

/-- The events after the first call decide, and it decides when there are none. -/
theorem lastEvent_cons (event : ι → ο → Option α) (i : ι) (o : ο)
    (tr : List (ι × ο)) :
    lastEvent event ((i, o) :: tr) = (lastEvent event tr).or (event i o) := by
  unfold lastEvent
  cases he : event i o with
  | none => simp [he]
  | some a =>
      simp only [List.filterMap_cons, he, List.getLast?_cons]
      cases (tr.filterMap fun x => event x.1 x.2).getLast? <;> rfl

/-- The later part of a trace decides, and the earlier one when it has no event. -/
theorem lastEvent_append (event : ι → ο → Option α) (tr tr' : List (ι × ο)) :
    lastEvent event (tr ++ tr') = (lastEvent event tr').or (lastEvent event tr) := by
  induction tr with
  | nil => simp
  | cons x tr ih =>
      obtain ⟨i, o⟩ := x
      rw [List.cons_append, lastEvent_cons, lastEvent_cons, ih, Option.or_assoc]

/-- A trace without events has no latest one. -/
theorem lastEvent_eq_none {event : ι → ο → Option α} {tr : List (ι × ο)}
    (h : ∀ x ∈ tr, event x.1 x.2 = none) : lastEvent event tr = none := by
  have hnil : tr.filterMap (fun x => event x.1 x.2) = [] := by
    rw [List.filterMap_eq_nil_iff]
    exact h
  rw [lastEvent, hnil]
  rfl

/-- The latest event of a run came from one of its calls, and none of the calls
after that one made an event. -/
theorem exists_of_lastEvent_trace (M : Machine σ ι ο) {event : ι → ο → Option α}
    (is : List ι) {s : σ} {a : α} (h : lastEvent event (M.trace is s) = some a) :
    ∃ before i after, is = before ++ i :: after ∧
      event i (M.reply i (M.run before s)) = some a ∧
      ∀ x ∈ M.trace after (M.run (before ++ [i]) s), event x.1 x.2 = none := by
  induction is generalizing s with
  | nil => contradiction
  | cons i is ih =>
      rw [trace_cons, lastEvent_cons] at h
      cases hrest : lastEvent event (M.trace is (M.next i s)) with
      | some b =>
          rw [hrest] at h
          obtain rfl : b = a := Option.some.inj h
          obtain ⟨before, j, after, his, hevent, hquiet⟩ := ih hrest
          exact ⟨i :: before, j, after, by rw [his, List.cons_append], hevent, hquiet⟩
      | none =>
          rw [hrest, Option.none_or] at h
          refine ⟨[], i, is, rfl, h, ?_⟩
          rw [lastEvent, List.getLast?_eq_none_iff, List.filterMap_eq_nil_iff] at hrest
          exact hrest

/-- The history rule: if each call moves `R` from the view `v` to `v` overridden
by the call's events, then a run moves it to `v` overridden by the latest events
of the run. -/
theorem run_lastEvent (M : Machine σ ι ο) {R : σ → (κ → Option α) → Prop}
    (event : κ → ι → ο → Option α)
    (hstep : ∀ i s v, R s v → R (M.next i s) fun k => (event k i (M.reply i s)).or (v k))
    (is : List ι) {s : σ} {v : κ → Option α} (h : R s v) :
    R (M.run is s) fun k => (lastEvent (event k) (M.trace is s)).or (v k) := by
  induction is generalizing s v with
  | nil => simpa using h
  | cons i is ih =>
      have hnext := ih (hstep i s v h)
      simpa only [run_cons, trace_cons, lastEvent_cons, Option.or_assoc] using hnext

/-! ## Properties along a run -/

section Along

variable (M : Machine σ ι ο)

/-- `P` holds in every state of the run, the first and the last included. -/
def Always (P : σ → Prop) : List ι → σ → Prop
  | [], s => P s
  | i :: is, s => P s ∧ Always P is (M.next i s)

/-- Each call of the run is made in a state where `C` admits it. -/
def Steps (C : ι → σ → Prop) : List ι → σ → Prop
  | [], _ => True
  | i :: is, s => C i s ∧ Steps C is (M.next i s)

theorem Always.head {P : σ → Prop} {is : List ι} {s : σ} (h : M.Always P is s) :
    P s := by
  cases is with
  | nil => exact h
  | cons i is => exact h.1

/-- The call leaves the view of the state as it was. -/
def Keeps {φ : Type*} (view : σ → φ) (i : ι) (s : σ) : Prop := view (M.next i s) = view s

/-- **Exactness along a run.**  Let `Q` be an invariant of the machine.  If, from
a state with `Q` and `P`, a call keeps `P` exactly when `C` admits it, then `P`
holds throughout a run exactly when `C` admits every call of it. -/
theorem always_iff_steps {P Q : σ → Prop} {C : ι → σ → Prop}
    (hQ : ∀ i s, Q s → Q (M.next i s))
    (hC : ∀ i s, Q s → P s → (P (M.next i s) ↔ C i s))
    (is : List ι) {s : σ} (hq : Q s) (hp : P s) :
    M.Always P is s ↔ M.Steps C is s := by
  induction is generalizing s with
  | nil => exact iff_of_true hp trivial
  | cons i is ih =>
      simp only [Always, Steps]
      constructor
      · rintro ⟨-, hrest⟩
        have hnext : P (M.next i s) := hrest.head
        exact ⟨(hC i s hq hp).mp hnext, (ih (hQ i s hq) hnext).mp hrest⟩
      · rintro ⟨hi, hrest⟩
        have hnext : P (M.next i s) := (hC i s hq hp).mpr hi
        exact ⟨hp, (ih (hQ i s hq) hnext).mpr hrest⟩

end Along

/-! ## Simulation -/

/-- `M` and `N` move in step: on calls related by `I`, from states related by
`R`, the replies are related by `O` and the next states by `R`. -/
structure Simulation (M : Machine σ ι ο) (N : Machine τ κ π) (R : σ → τ → Prop)
    (I : ι → κ → Prop) (O : ο → π → Prop) : Prop where
  reply : ∀ {i k s t}, I i k → R s t → O (M.reply i s) (N.reply k t)
  next : ∀ {i k s t}, I i k → R s t → R (M.next i s) (N.next k t)

section Simulation

variable {M : Machine σ ι ο} {N : Machine τ κ π} {R : σ → τ → Prop}
  {I : ι → κ → Prop} {O : ο → π → Prop}

/-- Related runs end in related states. -/
theorem Simulation.run (h : Simulation M N R I O) {is : List ι} {ks : List κ}
    (hin : List.Forall₂ I is ks) {s : σ} {t : τ} (hst : R s t) :
    R (M.run is s) (N.run ks t) := by
  induction hin generalizing s t with
  | nil => exact hst
  | cons hik _ ih => exact ih (h.next hik hst)

/-- Related runs answer alike, call by call. -/
theorem Simulation.replies (h : Simulation M N R I O) {is : List ι} {ks : List κ}
    (hin : List.Forall₂ I is ks) {s : σ} {t : τ} (hst : R s t) :
    List.Forall₂ O (M.replies is s) (N.replies ks t) := by
  induction hin generalizing s t with
  | nil => exact .nil
  | cons hik _ ih => exact .cons (h.reply hik hst) (ih (h.next hik hst))

end Simulation

section Refinement

/-! Where the calls and the replies of the two machines are the same. -/

variable {M : Machine σ ι ο} {N : Machine τ ι ο} {R : σ → τ → Prop}

/-- A refinement is an obligation about one call made on both sides. -/
theorem Simulation.of_step
    (hstep : ∀ i s t, R s t → M.reply i s = N.reply i t ∧ R (M.next i s) (N.next i t)) :
    Simulation M N R Eq Eq := by
  constructor
  · intro i k s t hik h
    subst hik
    exact (hstep i s t h).1
  · intro i k s t hik h
    subst hik
    exact (hstep i s t h).2

theorem Simulation.run_eq (h : Simulation M N R Eq Eq) (is : List ι) {s : σ} {t : τ}
    (hst : R s t) : R (M.run is s) (N.run is t) := by
  apply h.run _ hst
  rw [List.forall₂_eq_eq_eq]

theorem Simulation.trace_eq (h : Simulation M N R Eq Eq) (is : List ι) {s : σ} {t : τ}
    (hst : R s t) : M.trace is s = N.trace is t := by
  induction is generalizing s t with
  | nil => rfl
  | cons i is ih =>
      rw [trace_cons, trace_cons, h.reply rfl hst, ih (h.next rfl hst)]

/-- Related states admit the same runs, if they admit the same calls. -/
theorem Simulation.steps_iff (h : Simulation M N R Eq Eq) {C : ι → σ → Prop} {D : ι → τ → Prop}
    (hadmits : ∀ i s t, R s t → (C i s ↔ D i t)) (is : List ι) {s : σ} {t : τ} (hst : R s t) :
    M.Steps C is s ↔ N.Steps D is t := by
  induction is generalizing s t with
  | nil => exact Iff.rfl
  | cons i is ih => exact and_congr (hadmits i s t hst) (ih (h.next rfl hst))

theorem Simulation.replies_eq (h : Simulation M N R Eq Eq) (is : List ι) {s : σ} {t : τ}
    (hst : R s t) : M.replies is s = N.replies is t :=
  congrArg (List.map Prod.snd) (h.trace_eq is hst)

end Refinement

/-! ## Components -/

/-- If, under the invariant `Q`, each call acts on the component `f s` as the
calls `g i` of a machine of its own, a run acts on it as all of these in order. -/
theorem run_flatMap (M : Machine σ ι ο) (N : Machine τ κ π) {Q : σ → Prop}
    (f : σ → τ) (g : ι → List κ)
    (hQ : ∀ i s, Q s → Q (M.next i s))
    (hstep : ∀ i s, Q s → f (M.next i s) = N.run (g i) (f s))
    (is : List ι) {s : σ} (hq : Q s) :
    f (M.run is s) = N.run (is.flatMap g) (f s) := by
  induction is generalizing s with
  | nil => rfl
  | cons i is ih =>
      rw [run_cons, ih (hQ i s hq), hstep i s hq, List.flatMap_cons, run_append]

end Machine

end Reactive
