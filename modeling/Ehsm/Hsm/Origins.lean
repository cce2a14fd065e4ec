import Mathlib.Algebra.Group.Nat.Even
import Ehsm.Hsm.RoundTrip

/-!
# Where the bytes in memory come from

Every byte that the firmware writes is a byte of the caller, or one combined with the
mock key: whatever the layouts of the requests, and however many of them work on the
output of others, no further value appears.  Requests in place can be followed byte by
byte.  Both directions are the same operation, so what counts is only whether a byte
has been worked on an even or an odd number of times.

## Main results

* `WiredHsm.bytes_from_caller` — the values memory can hold after a run.
* `WiredHsm.in_place_parity` — what requests in place leave of a byte.
-/

namespace Ehsm

open Reactive

/-! ## Values -/

/-- Every byte is one of the given values, plain or combined with the mock key. -/
def Memory.From (values : UInt8 → Prop) (mem : Memory) : Prop :=
  ∀ address, ∃ byte, values byte ∧ (mem address = byte ∨ mem address = byte ^^^ kMockEncryptKey)

namespace Memory.From

variable {values : UInt8 → Prop} {mem : Memory}

theorem write_plain (h : Memory.From values mem) (target : Nat) {byte : UInt8}
    (hbyte : values byte) : Memory.From values (mem.write target byte) := by
  intro address
  by_cases haddress : address = target
  · rw [Memory.write, haddress, Function.update_self]
    exact ⟨byte, hbyte, .inl rfl⟩
  · rw [Memory.write, Function.update_of_ne haddress]
    exact h address

/-- Combining once more with the mock key makes a plain byte of a combined one. -/
theorem write_combined (h : Memory.From values mem) (target source : Nat) :
    Memory.From values (mem.write target (mem source ^^^ kMockEncryptKey)) := by
  intro address
  by_cases haddress : address = target
  · rw [Memory.write, haddress, Function.update_self]
    obtain ⟨byte, hbyte, hplain | hcombined⟩ := h source
    · exact ⟨byte, hbyte, .inr (by rw [hplain])⟩
    · exact ⟨byte, hbyte, .inl (by rw [hcombined, xor_mockKey_twice])⟩
  · rw [Memory.write, Function.update_of_ne haddress]
    exact h address

/-- The cipher loop makes no other value, in any layout. -/
theorem xorLoop (h : Memory.From values mem) (input output : Span) (n : Nat) :
    Memory.From values (Ehsm.xorLoop input output n mem) := by
  induction n with
  | zero => exact h
  | succ n ih => exact ih.write_combined (output.start + n) (input.start + n)

end Memory.From

/-- The values that the caller brought in: what its memory held at power-on, and what
it has stored since. -/
def CallerByte (mem : Memory) (events : List Event) (byte : UInt8) : Prop :=
  (∃ address, mem address = byte) ∨ ∃ address, .store address byte ∈ events

namespace WiredHsm

variable {strategy : Strategy}

section

variable {hsm : WiredHsm strategy} {map : Option KeyMap} {values : UInt8 → Prop}

theorem from_directCrypt (hfrom : Memory.From values hsm.memory) (required : KeyPermission)
    (sessionId : SessionId) (keySlotId : UInt8) (input output : Span) :
    Memory.From values
      (directCrypt required sessionId keySlotId input output hsm).2.memory := by
  rw [directCrypt]
  by_cases hok : decision required sessionId keySlotId input output hsm = .ok
  · rw [if_pos hok]
    exact hfrom.xorLoop input output input.size
  · rw [if_neg hok]
    exact hfrom

/-- No call brings in a value but a `store`. -/
theorem Sound.from_next (h : Sound hsm map) (event : Event)
    (hstored : ∀ address byte, event = .store address byte → values byte)
    (hfrom : Memory.From values hsm.memory) :
    Memory.From values ((machine strategy).next event hsm).memory := by
  rw [h.next_eq_direct]
  cases event with
  | init | deinit =>
      simp only [direct]
      split <;> exact hfrom
  | encrypt sessionId keySlotId algorithm input output =>
      exact from_directCrypt hfrom .encrypt sessionId keySlotId input output
  | decrypt sessionId keySlotId algorithm input output =>
      exact from_directCrypt hfrom .decrypt sessionId keySlotId input output
  | store address byte => exact hfrom.write_plain address (hstored address byte rfl)
  | isReady | createSession _ | closeSession _ | isSessionValid _ | importKey _ _ _ _
  | deleteKey _ | getKeySlotInfo _ _ | clearAllKeys | getVersion => exact hfrom

theorem Sound.from_run (h : Sound hsm map) (events : List Event)
    (hstored : ∀ address byte, .store address byte ∈ events → values byte)
    (hfrom : Memory.From values hsm.memory) :
    Memory.From values ((machine strategy).run events hsm).memory := by
  induction events generalizing hsm map with
  | nil => exact hfrom
  | cons event events ih =>
      apply ih (h.next event)
      · exact fun address byte hmem => hstored address byte (List.mem_cons_of_mem _ hmem)
      · apply h.from_next event _ hfrom
        intro address byte hevent
        exact hstored address byte (hevent ▸ List.mem_cons_self)

end

/--
**The firmware invents no byte.**  After any run from power-on, with either strategy,
every byte of memory is one that the caller's memory held at power-on or that the
caller has stored since, plain or combined once with the mock key.  In particular no
key byte, no session id and no access counter gets there.
-/
theorem bytes_from_caller (strategy : Strategy) (accessCount : Fin kMaxKeySlots → UInt32)
    (mem : Memory) (events : List Event) (address : Nat) :
    let hsm := (machine strategy).run events (powerOn strategy accessCount mem)
    ∃ byte, CallerByte mem events byte ∧
      (hsm.memory address = byte ∨ hsm.memory address = byte ^^^ kMockEncryptKey) := by
  intro hsm
  have hsound := sound_powerOn strategy accessCount mem
  have hstart : Memory.From (CallerByte mem events) mem :=
    fun address => ⟨mem address, .inl ⟨address, rfl⟩, .inl rfl⟩
  have hrun := hsound.from_run events (fun address byte hmem => .inr ⟨address, hmem⟩) hstart
  exact hrun address

/-! ## Requests in place -/

/-- A request whose output starts where its input does. -/
def InPlace : Event → Prop
  | .encrypt _ _ _ input output | .decrypt _ _ _ input output => input.start = output.start
  | _ => False

instance (event : Event) (answer : Answer) (address : Nat) :
    Decidable (Overwrites event answer address) := by
  unfold Overwrites
  split <;> infer_instance

/-- The calls of a trace that wrote the byte. -/
def writeCount (address : Nat) (tr : List (Event × Answer)) : Nat :=
  tr.countP fun x => decide (Overwrites x.1 x.2 address)

/-- A byte combined `n` times with the mock key. -/
def flipped (n : Nat) (byte : UInt8) : UInt8 :=
  if Even n then byte else byte ^^^ kMockEncryptKey

theorem flipped_succ (n : Nat) (byte : UInt8) :
    flipped n (byte ^^^ kMockEncryptKey) = flipped (n + 1) byte := by
  rw [flipped, flipped]
  by_cases heven : Even n
  · rw [if_pos heven, if_neg (by rw [Nat.even_add_one]; exact not_not.mpr heven)]
  · rw [if_neg heven, if_pos (Nat.even_add_one.mpr heven), xor_mockKey_twice]

section

variable {hsm : WiredHsm strategy} {map : Option KeyMap}

/-- A granted request in place combines each byte that it covers with the mock key. -/
theorem memory_directCrypt_in_place {required : KeyPermission} {sessionId : SessionId}
    {keySlotId : UInt8} {input output : Span}
    (hok : decision required sessionId keySlotId input output hsm = .ok)
    (hplace : input.start = output.start) {address : Nat} (hlow : output.start ≤ address)
    (hhigh : address < output.start + input.size) :
    (directCrypt required sessionId keySlotId input output hsm).2.memory address =
      hsm.memory address ^^^ kMockEncryptKey := by
  obtain ⟨i, rfl⟩ := Nat.exists_eq_add_of_le hlow
  rw [directCrypt, if_pos hok]
  dsimp only
  rw [xorLoop_of_safe (by omega) (by omega), hplace]

theorem Sound.memory_next_in_place (h : Sound hsm map) {event : Event} (hplace : InPlace event)
    {address : Nat} (hwritten : Overwrites event ((machine strategy).reply event hsm) address) :
    ((machine strategy).next event hsm).memory address =
      hsm.memory address ^^^ kMockEncryptKey := by
  rw [h.reply_eq_direct] at hwritten
  rw [h.next_eq_direct]
  cases event with
  | encrypt sessionId keySlotId algorithm input output =>
      obtain ⟨hok, hlow, hhigh⟩ := hwritten
      exact memory_directCrypt_in_place (Answer.status.inj hok) hplace hlow hhigh
  | decrypt sessionId keySlotId algorithm input output =>
      obtain ⟨hok, hlow, hhigh⟩ := hwritten
      exact memory_directCrypt_in_place (Answer.status.inj hok) hplace hlow hhigh
  | init | deinit | isReady | createSession _ | closeSession _ | isSessionValid _
  | importKey _ _ _ _ | deleteKey _ | getKeySlotInfo _ _ | clearAllKeys | getVersion
  | store _ _ => cases hplace

/-- Along a run each write flips the byte. -/
theorem Sound.memory_run_in_place (h : Sound hsm map) (events : List Event) {address : Nat}
    (hplace : ∀ x ∈ (machine strategy).trace events hsm,
      Overwrites x.1 x.2 address → InPlace x.1) :
    ((machine strategy).run events hsm).memory address =
      flipped (writeCount address ((machine strategy).trace events hsm)) (hsm.memory address) := by
  induction events generalizing hsm map with
  | nil => rfl
  | cons event events ih =>
      obtain ⟨hhead, htail⟩ := List.forall_mem_cons.mp hplace
      have hrest := ih (h.next event) htail
      rw [Machine.run_cons, hrest, Machine.trace_cons, writeCount, writeCount, List.countP_cons]
      by_cases hwritten : Overwrites event ((machine strategy).reply event hsm) address
      · rw [if_pos (decide_eq_true hwritten), h.memory_next_in_place (hhead hwritten) hwritten,
          flipped_succ]
      · rw [if_neg (by simpa using hwritten), h.memory_next event hwritten]
        rfl

end

/--
**Twice is never.**  In every reachable state, with either strategy, let every further
call that writes to a byte be a request in place, in either direction, with whatever
keys.  Then the byte is what it was if the number of these requests is even, and
combined once with the mock key if it is odd.
-/
theorem in_place_parity (strategy : Strategy) (accessCount : Fin kMaxKeySlots → UInt32)
    (mem : Memory) (before events : List Event) (address : Nat)
    (hplace : ∀ x ∈ (machine strategy).trace events
        ((machine strategy).run before (powerOn strategy accessCount mem)),
      Overwrites x.1 x.2 address → InPlace x.1) :
    let hsm := (machine strategy).run before (powerOn strategy accessCount mem)
    let count := writeCount address ((machine strategy).trace events hsm)
    ((machine strategy).run events hsm).memory address =
      if Even count then hsm.memory address else hsm.memory address ^^^ kMockEncryptKey := by
  intro hsm count
  obtain ⟨map, hsound, -⟩ := sound_run strategy accessCount mem before
  exact hsound.memory_run_in_place events hplace

/-- Enciphering twice with two different keys gives back the text. -/
theorem in_place_parity_two_keys :
    let hsm := (machine .aes128).run
      [.init, .createSession 0, .importKey 2 .aes128 [7] 0x01, .importKey 5 .aes256 [9] 0x01]
      (powerOn .aes128 (fun _ => 0) UInt8.ofNat)
    ((machine .aes128).run
      [.encrypt 1 2 .aes128 ⟨4, 8⟩ ⟨4, 8⟩, .encrypt 1 5 .aes128 ⟨6, 4⟩ ⟨6, 4⟩] hsm).memory 7 =
      hsm.memory 7 := by
  intro hsm
  have htrace : (machine .aes128).trace
      [.encrypt 1 2 .aes128 ⟨4, 8⟩ ⟨4, 8⟩, .encrypt 1 5 .aes128 ⟨6, 4⟩ ⟨6, 4⟩] hsm =
        [(.encrypt 1 2 .aes128 ⟨4, 8⟩ ⟨4, 8⟩, .status .ok),
          (.encrypt 1 5 .aes128 ⟨6, 4⟩ ⟨6, 4⟩, .status .ok)] := by
    decide +kernel
  have hparity := in_place_parity .aes128 (fun _ => 0) UInt8.ofNat
    [.init, .createSession 0, .importKey 2 .aes128 [7] 0x01, .importKey 5 .aes256 [9] 0x01]
    [.encrypt 1 2 .aes128 ⟨4, 8⟩ ⟨4, 8⟩, .encrypt 1 5 .aes128 ⟨6, 4⟩ ⟨6, 4⟩] 7
    (by
      rw [htrace]
      simp [InPlace])
  rw [hparity, htrace, if_pos (by decide)]

end WiredHsm

end Ehsm
