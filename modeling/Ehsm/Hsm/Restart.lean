import Ehsm.Hsm.Vault

/-!
# What a restart leaves behind

`deinit` and `init` reset the two services in parts: `deinit` clears the slots and
the table but neither the counter for the next id nor, on a store that is down, the
access counters, and `init` clears what is left.  Together they forget everything.
The state after a start is a function of the caller's memory, so whatever was done
before it can be told afterwards from that memory only, and not from an answer.

## Main results

* `WiredHsm.start_forgets` — every start leads to the state of a first start.
* `WiredHsm.answers_after_start` — the answers after a start are those after a
  first start of any other firmware.
-/

namespace Ehsm

open Reactive

/-! ## The services -/

namespace SessionManager

/-- The reset loop leaves default entries, whatever it finds. -/
theorem resetSessions_eq (sm : SessionManager) :
    sm.resetSessions.sessions = List.replicate kMaxSessions {} := by
  have hconst : sm.resetSessions.sessions = sm.sessions.map fun _ => ({} : Session) := rfl
  rw [hconst, List.map_const', sm.sessions_length]

/-- A manager that is down is started from nothing. -/
theorem init_of_down {sm sm' : SessionManager} (h : sm.isInitialized = false)
    (h' : sm'.isInitialized = false) : sm.init.2 = sm'.init.2 := by
  rw [sm.init_of_not_initialized h, sm'.init_of_not_initialized h', SessionManager.mk.injEq]
  exact ⟨by rw [resetSessions_eq, resetSessions_eq], rfl, rfl⟩

end SessionManager

theorem KeystoreService.init_of_down {ks ks' : KeystoreService} (h : ks.isInitialized = false)
    (h' : ks'.isInitialized = false) : ks.init.2 = ks'.init.2 := by
  rw [ks.init_of_not_initialized h, ks'.init_of_not_initialized h']

/-! ## Vaults with the same contents -/

namespace VaultState

/-- The states differ in the caller's memory only. -/
def SameVault (s s' : VaultState) : Prop := s.vault = s'.vault

/-- A call is answered from the vault, never from the caller's memory. -/
theorem sameVault_step (event : Event) {s s' : VaultState} (h : SameVault s s') :
    machine.reply event s = machine.reply event s' ∧
      SameVault (machine.next event s) (machine.next event s') := by
  obtain ⟨vault, memory⟩ := s
  obtain ⟨vault', memory'⟩ := s'
  obtain rfl : vault = vault' := h
  cases event with
  | encrypt _ _ _ _ _ | decrypt _ _ _ _ _ =>
      simp only [machine, Machine.reply, Machine.next, step, crypt]
      cases vault with
      | none => exact ⟨rfl, rfl⟩
      | some v =>
          refine ⟨rfl, ?_⟩
          dsimp only
          split <;> rfl
  | init | deinit | isReady | isSessionValid _ | getVersion | store _ _ => exact ⟨rfl, rfl⟩
  | createSession _ | closeSession _ | importKey _ _ _ _ | deleteKey _ | getKeySlotInfo _ _
  | clearAllKeys =>
      cases vault with
      | none => exact ⟨rfl, rfl⟩
      | some v => exact ⟨rfl, rfl⟩

theorem simulates_sameVault : Machine.Simulation machine machine SameVault Eq Eq :=
  Machine.Simulation.of_step fun event _ _ h => sameVault_step event h

end VaultState

/-! ## The firmware -/

namespace WiredHsm

variable {strategy : Strategy}

/-- A firmware that is down is started from its memory alone. -/
theorem Sound.init_of_down {hsm hsm' : WiredHsm strategy} {map map' : Option KeyMap}
    (h : Sound hsm map) (h' : Sound hsm' map') (hdown : hsm.api.isReady = false)
    (hdown' : hsm'.api.isReady = false) (hmemory : hsm.memory = hsm'.memory) :
    (machine strategy).next .init hsm = (machine strategy).next .init hsm' := by
  obtain ⟨-, hsessions, hkeystore⟩ := h.flag false hdown
  obtain ⟨-, hsessions', hkeystore'⟩ := h'.flag false hdown'
  rw [h.next_eq_direct, h'.next_eq_direct]
  simp only [direct, hdown, hdown', Bool.false_eq_true, if_false]
  rw [SessionManager.init_of_down hsessions hsessions',
    KeystoreService.init_of_down hkeystore hkeystore', hmemory]

/-- Shutting down lowers the flag and leaves the caller's memory alone. -/
theorem Sound.deinit_down {hsm : WiredHsm strategy} {map : Option KeyMap} (h : Sound hsm map) :
    ((machine strategy).next .deinit hsm).api.isReady = false ∧
      ((machine strategy).next .deinit hsm).memory = hsm.memory := by
  rw [h.next_eq_direct]
  cases hready : hsm.api.isReady with
  | false =>
      simp only [direct, hready]
      exact ⟨hready, rfl⟩
  | true =>
      rw [direct, if_pos hready]
      exact ⟨rfl, rfl⟩

/--
**A start forgets.**  In every reachable state that is down, `init` leads to the
state in which a first start leads with the same memory, whatever the access
counters hold at power-on; and in every reachable state, `deinit` and `init` do.
-/
theorem start_forgets (strategy : Strategy) (accessCount accessCount' : Fin kMaxKeySlots → UInt32)
    (mem : Memory) (events : List Event) :
    let hsm := (machine strategy).run events (powerOn strategy accessCount mem)
    let started := (machine strategy).next .init (powerOn strategy accessCount' hsm.memory)
    (hsm.api.isReady = false → (machine strategy).next .init hsm = started) ∧
      (machine strategy).run [.deinit, .init] hsm = started := by
  intro hsm started
  obtain ⟨map, hsound, -⟩ := sound_run strategy accessCount mem events
  have hfresh := sound_powerOn strategy accessCount' hsm.memory
  constructor
  · intro hdown
    exact hsound.init_of_down hfresh hdown rfl rfl
  · obtain ⟨hdown, hmemory⟩ := hsound.deinit_down
    exact (hsound.next .deinit).init_of_down hfresh hdown rfl hmemory

/--
**After a start nothing is told of what was before.**  Whatever was done until a
firmware went down, with whatever memory, the calls from the next `init` on are
answered as any other firmware answers them after power-on.
-/
theorem answers_after_start (strategy strategy' : Strategy)
    (accessCount accessCount' : Fin kMaxKeySlots → UInt32) (mem mem' : Memory)
    (before later : List Event) :
    (machine strategy).replies (.init :: later)
        ((machine strategy).run (before ++ [.deinit]) (powerOn strategy accessCount mem)) =
      (machine strategy').replies (.init :: later) (powerOn strategy' accessCount' mem') := by
  have hrefines := refines_run strategy accessCount mem (before ++ [.deinit])
  have hdown : VaultState.SameVault (vaultAfter mem (before ++ [.deinit])) (.start mem') := by
    rw [vaultAfter, Machine.run_append]
    rfl
  rw [(simulates_vault strategy).replies_eq _ hrefines,
    (simulates_vault strategy').replies_eq _ (refines_start strategy' accessCount' mem')]
  exact VaultState.simulates_sameVault.replies_eq _ hdown

end WiredHsm

end Ehsm
