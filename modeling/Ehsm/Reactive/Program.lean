import Ehsm.Reactive.Machine

/-!
# Programs that drive a machine

A caller is more than a list of calls: it chooses the next call by the answers so far
and by what it sees of the state.  A *program* is such a caller, a finite tree of
calls and looks.  Executing it makes some run of the machine, but which run depends on
the machine, so what is known about two runs of equal calls does not say at once that a
program does the same on both.  It does where the machines move in step and what is
seen of related states is equal.

## Main results

* `exec_bind` — a program in two parts.
* `exec_performAll` — a list of calls, made by a program.
* `exec_simulation` — a program does not tell machines apart that move in step.
-/

namespace Reactive

universe u

variable {σ τ ι κ μ ο π ν α β : Type*}

/-- A program makes a call and goes on by the answer, looks at the state and goes on
by what it sees, or is done. -/
inductive Program (ι ο ν α : Type*) where
  | done (result : α)
  | call (i : ι) (rest : ο → Program ι ο ν α)
  | look (rest : ν → Program ι ο ν α)

namespace Program

/-- First one program, then the one that its result selects. -/
protected def bind : Program ι ο ν α → (α → Program ι ο ν β) → Program ι ο ν β
  | done result, next => next result
  | call i rest, next => call i fun o => (rest o).bind next
  | look rest, next => look fun v => (rest v).bind next

instance : Monad (Program ι ο ν) where
  pure := done
  bind := Program.bind

/-- Make a call, for its answer. -/
def perform (i : ι) : Program ι ο ν ο := call i done

/-- Look at the state. -/
def observe : Program ι ο ν ν := look done

/-- Make all calls of a list, for their answers. -/
def performAll {ο : Type u} : List ι → Program ι ο ν (List ο)
  | [] => pure []
  | i :: is => do
      let o ← perform i
      let os ← performAll is
      pure (o :: os)

/-! ## Execution -/

section Execution

variable (M : Machine σ ι ο) (view : σ → ν)

/-- The result of a program and the state it leaves, on a machine of whose state it
sees `view`. -/
def exec : Program ι ο ν α → σ → α × σ
  | done result, s => (result, s)
  | call i rest, s => (rest (M.reply i s)).exec (M.next i s)
  | look rest, s => (rest (view s)).exec s

@[simp] theorem exec_pure (result : α) (s : σ) :
    (pure result : Program ι ο ν α).exec M view s = (result, s) := rfl

@[simp] theorem exec_perform (i : ι) (s : σ) :
    (perform i : Program ι ο ν ο).exec M view s = (M.reply i s, M.next i s) := rfl

@[simp] theorem exec_observe (s : σ) :
    (observe : Program ι ο ν ν).exec M view s = (view s, s) := rfl

end Execution

/-- The second part starts where the first one ends. -/
@[simp] theorem exec_bind {α β : Type u} (M : Machine σ ι ο) (view : σ → ν)
    (p : Program ι ο ν α) (next : α → Program ι ο ν β) (s : σ) :
    (p >>= next).exec M view s =
      (next (p.exec M view s).1).exec M view (p.exec M view s).2 := by
  induction p generalizing s with
  | done result => rfl
  | call i rest ih => exact ih (M.reply i s) (M.next i s)
  | look rest ih => exact ih (view s) s

/-- The answers to a list of calls are the answers of the run. -/
theorem exec_performAll {ο : Type u} (M : Machine σ ι ο) (view : σ → ν) (is : List ι) (s : σ) :
    (performAll is : Program ι ο ν (List ο)).exec M view s = (M.replies is s, M.run is s) := by
  induction is generalizing s with
  | nil => rfl
  | cons i is ih =>
      rw [performAll, exec_bind, exec_perform, exec_bind, ih, exec_pure]
      rfl

/-- **Machines in step cannot be told apart**: a program has the same result on both
and leaves related states. -/
theorem exec_simulation {M : Machine σ ι ο} {N : Machine τ ι ο} {R : σ → τ → Prop}
    (h : Machine.Simulation M N R Eq Eq) {view : σ → ν} {view' : τ → ν}
    (hview : ∀ {s t}, R s t → view s = view' t) (p : Program ι ο ν α) {s : σ} {t : τ}
    (hst : R s t) :
    (p.exec M view s).1 = (p.exec N view' t).1 ∧
      R (p.exec M view s).2 (p.exec N view' t).2 := by
  induction p generalizing s t with
  | done result => exact ⟨rfl, hst⟩
  | call i rest ih =>
      have hreply : M.reply i s = N.reply i t := h.reply rfl hst
      rw [exec, exec, hreply]
      exact ih (N.reply i t) (h.next rfl hst)
  | look rest ih =>
      rw [exec, exec, hview hst]
      exact ih (view' t) hst

end Program

/-! ## Calls by another name -/

namespace Machine

/-- The machine that is called in another language, translated by `f`. -/
def comap (f : κ → ι) (M : Machine σ ι ο) : Machine σ κ ο := ⟨fun k => M.step (f k)⟩

/-- Machines in step stay so if each call is translated to a pair of related calls. -/
theorem Simulation.comap {M : Machine σ ι ο} {N : Machine τ μ π} {R : σ → τ → Prop}
    {I : ι → μ → Prop} {O : ο → π → Prop} (h : Simulation M N R I O) {f : κ → ι} {g : κ → μ}
    (hfg : ∀ k, I (f k) (g k)) : Simulation (M.comap f) (N.comap g) R Eq O := by
  constructor
  · rintro k _ s t rfl hst
    exact h.reply (hfg k) hst
  · rintro k _ s t rfl hst
    exact h.next (hfg k) hst

end Machine

end Reactive
