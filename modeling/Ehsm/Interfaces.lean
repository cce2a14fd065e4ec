import Ehsm.Crypto.Algorithm

/-!
# Service interfaces

`ISessionManager`, `ICryptoService` and `IKeystoreService`: what the facade is
given.  The objects behind the pointers live in a world `W` that the model leaves
open; a call takes the world before it and gives the world after it.  Buffers are
spans of the caller's memory.
-/

namespace Ehsm

variable {W : Type*}

structure ISessionManager (W : Type*) where
  init : W → Status × W
  deinit : W → Status × W
  createSession : SessionId → W → Status × SessionId × W
  closeSession : SessionId → W → Status × W
  isSessionValid : SessionId → W → Bool

structure ICryptoService (W : Type*) where
  init : W → Status × W
  deinit : W → Status × W
  encrypt : Span → Span → UInt8 → Memory → W → Status × Memory × W
  decrypt : Span → Span → UInt8 → Memory → W → Status × Memory × W
  hash : Algorithm → Span → Span → Memory → W → Status × Memory × W

structure IKeystoreService (W : Type*) where
  init : W → Status × W
  deinit : W → Status × W
  importKey : UInt8 → Algorithm → List UInt8 → UInt8 → W → Status × W
  deleteKey : UInt8 → W → Status × W
  getKey : UInt8 → Key → W → Status × Key × W
  getSlotInfo : UInt8 → KeySlotInfo → W → Status × KeySlotInfo × W
  clearAll : W → Status × W
  isSlotOccupied : UInt8 → W → Bool

/-! ## Chains of calls -/

/-- Calls made one after the other, each followed by
`if (!status.isOk()) return status;`. -/
def chain : List (W → Status × W) → W → Status × W
  | [], w => (.ok, w)
  | call :: calls, w =>
      let result := call w
      if !result.1.isOk then result else chain calls result.2

@[simp] theorem chain_nil (w : W) : chain [] w = (.ok, w) := rfl

/-- A chain goes on after a call that succeeds. -/
theorem chain_cons_ok {call : W → Status × W} {w : W} (h : (call w).1 = .ok)
    (calls : List (W → Status × W)) : chain (call :: calls) w = chain calls (call w).2 := by
  simp [chain, h]

/-- A chain ends with the call that fails, and in the world that call left. -/
theorem chain_cons_error {call : W → Status × W} {w : W} (h : (call w).1 ≠ .ok)
    (calls : List (W → Status × W)) : chain (call :: calls) w = call w := by
  simp [chain, StatusCode.isOk_of_ne h]

/-- A chain that fails made its calls in order up to one that fails, and no call
after it. -/
theorem chain_stops {α : Type*} (call : α → W → Status × W) (xs : List α) (w : W)
    (h : (chain (xs.map call) w).1 ≠ .ok) :
    ∃ before x after w', xs = before ++ x :: after ∧ chain (before.map call) w = (.ok, w') ∧
      (call x w').1 ≠ .ok ∧ chain (xs.map call) w = call x w' := by
  induction xs generalizing w with
  | nil => exact absurd rfl h
  | cons x xs ih =>
      rw [List.map_cons] at h ⊢
      by_cases hx : (call x w).1 = .ok
      · rw [chain_cons_ok hx] at h ⊢
        obtain ⟨before, y, after, w', hxs, hbefore, hfail, hres⟩ := ih _ h
        refine ⟨x :: before, y, after, w', by rw [hxs, List.cons_append], ?_, hfail, hres⟩
        rw [List.map_cons, chain_cons_ok hx, hbefore]
      · exact ⟨[], x, xs, w, rfl, rfl, hx, chain_cons_error hx _⟩

end Ehsm
