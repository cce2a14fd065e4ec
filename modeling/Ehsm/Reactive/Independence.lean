import Ehsm.Reactive.Machine
import Mathlib.Data.Set.Basic

/-!
# Calls that do not disturb each other

When do two calls of a machine commute?  The state is split into cells.  What a
call touches is given by the cells it may change and by a relation on states: two
states *look the same* to the call when it cannot tell them apart, neither in its
reply nor in what it leaves in its cells.  This is weaker than reading cells: a
call may look at a cell only through one question, and then a change of the cell
that leaves the answer alone goes unnoticed.

## Main results

* `Footprint.commuteAt` — calls commute that change different cells, each of them
  unnoticed by the other.
-/

namespace Reactive

namespace Machine

variable {σ ι ο κ : Type*} {α : κ → Type*}

/-- The two calls can be made in either order: each is answered alike and the
state they leave is the same. -/
structure CommuteAt (M : Machine σ ι ο) (a b : ι) (s : σ) : Prop where
  reply_left : M.reply a (M.next b s) = M.reply a s
  reply_right : M.reply b (M.next a s) = M.reply b s
  next : M.next b (M.next a s) = M.next a (M.next b s)

/-- What a call touches. -/
structure Footprint (M : Machine σ ι ο) (cell : (k : κ) → σ → α k) (i : ι) (writes : Set κ)
    (looksSame : σ → σ → Prop) : Prop where
  frame : ∀ s, ∀ k ∉ writes, cell k (M.next i s) = cell k s
  reply : ∀ s t, looksSame s t → M.reply i s = M.reply i t
  effect : ∀ s t, looksSame s t → ∀ k ∈ writes, cell k (M.next i s) = cell k (M.next i t)

/-- **Independent calls commute.**  Two calls that write different cells, neither
of which notices the other, can be made in either order. -/
theorem Footprint.commuteAt {M : Machine σ ι ο} {cell : (k : κ) → σ → α k} {a b : ι}
    {writesA writesB : Set κ} {sameA sameB : σ → σ → Prop}
    (ha : Footprint M cell a writesA sameA) (hb : Footprint M cell b writesB sameB)
    (hcells : ∀ s t, (∀ k, cell k s = cell k t) → s = t) {s : σ}
    (hsameA : sameA (M.next b s) s) (hsameB : sameB (M.next a s) s)
    (hdisjoint : ∀ k ∈ writesA, k ∉ writesB) : M.CommuteAt a b s := by
  refine ⟨ha.reply _ _ hsameA, hb.reply _ _ hsameB, hcells _ _ ?_⟩
  intro k
  by_cases hka : k ∈ writesA
  · have hkb : k ∉ writesB := hdisjoint k hka
    rw [hb.frame _ k hkb, ha.effect _ _ hsameA k hka]
  · by_cases hkb : k ∈ writesB
    · rw [hb.effect _ _ hsameB k hkb, ha.frame _ k hka]
    · rw [hb.frame _ k hkb, ha.frame _ k hka, ha.frame _ k hka, hb.frame _ k hkb]

end Machine

end Reactive
