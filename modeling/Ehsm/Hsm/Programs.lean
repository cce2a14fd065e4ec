import Ehsm.Reactive.Program
import Ehsm.Hsm.Noninterference
import Ehsm.Hsm.Vault

/-!
# Callers that choose

A caller of the firmware sees the answers and its own memory, and chooses the next
call by them.  What such a program does on the firmware it does on the vault, and
what it does with keys that it has imported but does not know the bytes of, it does
whatever these bytes are.  So no caller, however it probes the firmware, learns
anything about a stored key, about the strategy, or about what the access counters
held at power-on.

## Main results

* `WiredHsm.Refines.execute` — a program on the firmware and on the vault.
* `WiredHsm.programs_learn_nothing` — a program over keys it does not know.
-/

namespace Ehsm

open Reactive

/-! ## Programs on the firmware and on the vault -/

/-- A program that calls the API and looks at the caller's memory. -/
abbrev Client := Program Event Answer Memory

/-- What a client does on the firmware. -/
def WiredHsm.execute {strategy : Strategy} {α : Type*} (p : Client α)
    (hsm : WiredHsm strategy) : α × WiredHsm strategy :=
  p.exec (WiredHsm.machine strategy) Hsm.memory hsm

/-- What a client does on the vault. -/
def VaultState.execute {α : Type*} (p : Client α) (s : VaultState) : α × VaultState :=
  p.exec VaultState.machine VaultState.memory s

namespace WiredHsm

variable {strategy : Strategy} {α : Type*}

/-- A client gets the same result from the firmware and from the vault. -/
theorem Refines.execute {hsm : WiredHsm strategy} {s : VaultState} (h : Refines hsm s)
    (p : Client α) :
    (execute p hsm).1 = (s.execute p).1 ∧ Refines (execute p hsm).2 (s.execute p).2 :=
  p.exec_simulation (simulates_vault strategy) (fun hrefines => hrefines.memory) h

/-! ## Keys that the client does not know -/

/-- The bytes of the keys that a client knows by their number and size only. -/
abbrev Secrets (size : Nat → Nat) := (n : Nat) → Vector UInt8 (size n)

/-- A call of a client that may name a secret as the key to import. -/
inductive BlindCall where
  | plain (event : Event)
  | importSecret (keySlotId : UInt8) (algorithm : Algorithm) (secret : Nat) (permissions : UInt8)

/-- The call that is made for it, over some secrets. -/
def BlindCall.event {size : Nat → Nat} (secrets : Secrets size) : BlindCall → Event
  | plain event => event
  | importSecret keySlotId algorithm secret permissions =>
      .importKey keySlotId algorithm (secrets secret).toList permissions

/-- A client over secrets. -/
abbrev BlindClient := Program BlindCall Answer Memory

/-- What a client does on the firmware over some secrets. -/
def executeBlind {size : Nat → Nat} (secrets : Secrets size) (p : BlindClient α)
    (hsm : WiredHsm strategy) : α × WiredHsm strategy :=
  p.exec ((machine strategy).comap (BlindCall.event secrets)) Hsm.memory hsm

/-- The calls made over two choices of the secrets differ in key bytes only. -/
theorem BlindCall.sameButKey {size : Nat → Nat} (secrets secrets' : Secrets size)
    (call : BlindCall) : SameButKey (call.event secrets) (call.event secrets') := by
  cases call with
  | plain event => exact .same event
  | importSecret keySlotId algorithm secret permissions =>
      apply SameButKey.importKey
      rw [Vector.length_toList, Vector.length_toList]

/-- Two strategies, and two states that hold the same vault. -/
theorem Refines.executeBlind {strategy' : Strategy} {hsm : WiredHsm strategy}
    {hsm' : WiredHsm strategy'} {s : VaultState} (h : Refines hsm s) (h' : Refines hsm' s)
    {size : Nat → Nat} (secrets : Secrets size) (p : BlindClient α) :
    (WiredHsm.executeBlind secrets p hsm).1 = (WiredHsm.executeBlind secrets p hsm').1 ∧
      (WiredHsm.executeBlind secrets p hsm).2.memory =
        (WiredHsm.executeBlind secrets p hsm').2.memory := by
  have hcalls : ∀ call, BlindCall.event secrets call = BlindCall.event secrets call :=
    fun _ => rfl
  have hleft := p.exec_simulation ((simulates_vault strategy).comap hcalls)
    (fun hrefines => hrefines.memory) h
  have hright := p.exec_simulation ((simulates_vault strategy').comap hcalls)
    (fun hrefines => hrefines.memory) h'
  exact ⟨hleft.1.trans hright.1.symm, hleft.2.memory.trans hright.2.memory.symm⟩

/--
**No client learns anything about a key.**  A client that chooses its calls by the
answers and by what it sees of its memory, and that imports keys of which it knows
only the sizes, has the same result and leaves the same memory whatever the bytes of
the keys are, whichever strategy the firmware is wired with, and whatever the access
counters held at power-on.  Over one strategy and the same counters, the two
firmwares differ at most in the key bytes of occupied slots.
-/
theorem programs_learn_nothing (strategy strategy' : Strategy)
    (accessCount accessCount' : Fin kMaxKeySlots → UInt32) (mem : Memory) {size : Nat → Nat}
    (secrets secrets' : Secrets size) (p : BlindClient α) :
    let here := executeBlind secrets p (powerOn strategy accessCount mem)
    let there := executeBlind secrets' p (powerOn strategy' accessCount' mem)
    let other := executeBlind secrets' p (powerOn strategy accessCount mem)
    here.1 = there.1 ∧ here.2.memory = there.2.memory ∧ here.2.Agrees other.2 := by
  intro here there other
  have hsecrets : here.1 = other.1 ∧ Paired here.2 other.2 :=
    p.exec_simulation ((indistinguishable strategy).comap (BlindCall.sameButKey secrets secrets'))
      (fun hpaired => hpaired.1.memory) (paired_powerOn strategy accessCount mem)
  have hstrategy : other.1 = there.1 ∧ other.2.memory = there.2.memory :=
    (refines_start strategy accessCount mem).executeBlind
      (refines_start strategy' accessCount' mem) secrets' p
  refine ⟨hsecrets.1.trans hstrategy.1, ?_, hsecrets.2.1⟩
  exact hsecrets.2.1.memory.trans hstrategy.2

end WiredHsm

end Ehsm
