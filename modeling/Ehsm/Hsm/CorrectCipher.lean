import Ehsm.Hsm.AnyStrategy
import Ehsm.Hsm.RoundTrip

/-!
# A cipher that keeps its contract

What has to be known of a cipher for the way there and back through the firmware?  On
buffers that fit and do not overlap it succeeds, puts the coded bytes of the input into
the output and writes nothing else; and the code of `decrypt` undoes that of `encrypt`.
How it codes, byte by byte, in blocks or all at once, is its own, and on overlapping
buffers it may do what it likes.

The facade and the services then do the rest.  Between an `encrypt` and the `decrypt`
that undoes it anything may happen that neither removes the key, nor writes to the
ciphertext, nor has the cipher work on overlapping buffers.  The shipped strategies
are one case.

## Main results

* `Strategy.correct` — the shipped strategies keep the contract.
* `PluggedHsm.there_and_back` — the way there and back, with any cipher that does.
-/

namespace Ehsm

open Reactive

/-! ## The contract -/

/-- Some bytes of the memory in a row. -/
def Memory.bytes (mem : Memory) (start n : Nat) : List UInt8 :=
  (List.range n).map fun i => mem (start + i)

theorem Memory.bytes_congr {mem mem' : Memory} {start start' n : Nat}
    (h : ∀ i < n, mem (start + i) = mem' (start' + i)) :
    mem.bytes start n = mem'.bytes start' n := by
  apply List.map_congr_left
  intro i hi
  exact h i (List.mem_range.mp hi)

/-- The function of the cipher for a direction. -/
def WiredHsm.Direction.call :
    Direction → ICryptoAlgorithm → Span → Span → Memory → Status × Memory
  | .encrypt => ICryptoAlgorithm.encrypt
  | .decrypt => ICryptoAlgorithm.decrypt

open WiredHsm (Direction OnlyBytes)

/-- The call succeeds, puts the coded bytes into the output and writes nothing else. -/
structure Puts (code : List UInt8 → List UInt8) (input output : Span) (mem : Memory)
    (result : Status × Memory) : Prop where
  ok : result.1 = .ok
  bytes : result.2.bytes output.start input.size = code (mem.bytes input.start input.size)
  frame : OnlyBytes output.start input.size mem result.2

/-- A cipher that keeps the contract. -/
structure CorrectCipher where
  algorithm : ICryptoAlgorithm
  code : Direction → List UInt8 → List UInt8
  undo : ∀ data, code .decrypt (code .encrypt data) = data
  puts : ∀ direction input output mem, ¬ BadBuffers input output → input.Disjoint output →
    Puts (code direction) input output mem (direction.call algorithm input output mem)

/-- Buffers that fit have a byte each. -/
theorem pos_of_not_badBuffers {input output : Span} (h : ¬ BadBuffers input output) :
    1 ≤ input.size ∧ input.size ≤ output.size := by
  rw [BadBuffers, Span.isEmpty_iff] at h
  omega

/-- The shipped strategies keep it, with the same code in both directions. -/
def Strategy.correct (strategy : Strategy) : CorrectCipher where
  algorithm := strategy.algorithm
  code := fun _ data => data.map (· ^^^ kMockEncryptKey)
  undo := by
    intro data
    have htwice : (· ^^^ kMockEncryptKey) ∘ (· ^^^ kMockEncryptKey) = id :=
      funext xor_mockKey_twice
    rw [List.map_map, htwice, List.map_id]
  puts := by
    intro direction input output mem hgood hdisjoint
    have hcall : direction.call strategy.algorithm input output mem =
        (.ok, xorLoop input output input.size mem) := by
      cases direction with
      | encrypt =>
          show strategy.algorithm.encrypt input output mem = _
          rw [strategy.encrypt_eq, xorBuffer_good hgood]
      | decrypt =>
          show strategy.algorithm.decrypt input output mem = _
          rw [strategy.decrypt_eq, xorBuffer_good hgood]
    obtain ⟨hpos, hfits⟩ := pos_of_not_badBuffers hgood
    have hlayout : ¬ ForwardOverlap input output :=
      hdisjoint.not_forwardOverlap (by omega) (Nat.le_refl input.size)
    rw [hcall]
    refine ⟨rfl, ?_, fun address haddress => xorLoop_frame input output input.size mem haddress⟩
    rw [Memory.bytes, Memory.bytes, List.map_map]
    apply List.map_congr_left
    intro i hi
    exact xorLoop_of_safe hlayout (List.mem_range.mp hi) mem

/-! ## Requests -/

namespace PluggedHsm

open WiredHsm (Sound decision grants request Overwrites Clears Undisturbed slotEvent
  clears_of_slotEvent direct_direction directCrypt)

/-- If the call is a request, its buffers do not overlap. -/
def Tidy (event : Event) : Prop :=
  ∀ sessionId input output, request event = some (sessionId, input, output) →
    input.Disjoint output

section

variable {strategy : Strategy} {c : CorrectCipher} {hsm : PluggedHsm c.algorithm}
  {ref : WiredHsm strategy}

/-- A request that the services grant: the cipher serves it. -/
theorem Beside.granted (h : Beside strategy hsm ref) (direction : Direction)
    {sessionId : SessionId} {slotId : UInt8} {input output : Span}
    (hok : decision direction.permission sessionId slotId input output ref = .ok)
    (hdisjoint : input.Disjoint output) (name : Algorithm) :
    let event := direction.event sessionId slotId name input output
    (machine c.algorithm).reply event hsm = .status .ok ∧
      Puts (c.code direction) input output hsm.memory
        (.ok, ((machine c.algorithm).next event hsm).memory) := by
  intro event
  obtain ⟨map, hsound⟩ := h.sound
  have hgood := (WiredHsm.decision_eq_ok_iff.mp hok).2.1
  have hputs := c.puts direction input output hsm.memory hgood hdisjoint
  have hgranted : (WiredHsm.machine strategy).reply event ref = .status .ok := by
    rw [hsound.reply_eq_direct, direct_direction, directCrypt, hok]
  have hasked : asked c.algorithm event (.status .ok) =
      some (direction.call c.algorithm input output) := by
    cases direction <;> rfl
  obtain ⟨hreply, hmemory⟩ := h.call event
  rw [hgranted, hasked, Option.elim_some] at hreply hmemory
  rw [hreply, hmemory, hputs.ok]
  exact ⟨rfl, rfl, hputs.bytes, hputs.frame⟩

/-- Granted or refused, a tidy request writes where it says. -/
theorem Beside.memory_request (h : Beside strategy hsm ref) (direction : Direction)
    (sessionId : SessionId) (slotId : UInt8) (name : Algorithm) {input output : Span}
    (hdisjoint : input.Disjoint output) {address : Nat}
    (hkept : ¬ ((machine c.algorithm).reply
        (direction.event sessionId slotId name input output) hsm = .status .ok ∧
      output.start ≤ address ∧ address < output.start + input.size)) :
    ((machine c.algorithm).next (direction.event sessionId slotId name input output)
      hsm).memory address = hsm.memory address := by
  obtain ⟨map, hsound⟩ := h.sound
  by_cases hok : decision direction.permission sessionId slotId input output ref = .ok
  · obtain ⟨hreply, hputs⟩ := h.granted direction hok hdisjoint name
    rw [not_and] at hkept
    have houtside := hkept hreply
    exact hputs.frame address (by omega)
  · have hrefused : asked c.algorithm (direction.event sessionId slotId name input output)
        ((WiredHsm.machine strategy).reply (direction.event sessionId slotId name input output)
          ref) = none := by
      rw [hsound.reply_eq_direct, direct_direction, directCrypt]
      exact asked_of_refused c.algorithm _ hok
    obtain ⟨-, hmemory⟩ := h.call (direction.event sessionId slotId name input output)
    rw [hrefused, Option.elim_none] at hmemory
    rw [hmemory]
    cases direction <;> rfl

/-- A byte that a call does not write. -/
theorem Beside.memory_next (h : Beside strategy hsm ref) {event : Event} (htidy : Tidy event)
    {address : Nat}
    (hkept : ¬ Overwrites event ((machine c.algorithm).reply event hsm) address) :
    ((machine c.algorithm).next event hsm).memory address = hsm.memory address := by
  have hother : request event = none → stored event hsm.memory address = hsm.memory address →
      ((machine c.algorithm).next event hsm).memory address = hsm.memory address := by
    intro hevent hstored
    obtain ⟨-, hmemory⟩ := h.call event
    rw [hmemory, asked_of_no_request c.algorithm hevent, Option.elim_none, hstored]
  cases event with
  | encrypt sessionId slotId name input output =>
      exact h.memory_request .encrypt sessionId slotId name (htidy _ _ _ rfl) hkept
  | decrypt sessionId slotId name input output =>
      exact h.memory_request .decrypt sessionId slotId name (htidy _ _ _ rfl) hkept
  | store target byte =>
      apply hother rfl
      exact Function.update_of_ne (fun heq => hkept heq.symm) byte hsm.memory
  | init | deinit | isReady | createSession _ | closeSession _ | isSessionValid _
  | importKey _ _ _ _ | deleteKey _ | getKeySlotInfo _ _ | clearAllKeys | getVersion =>
      exact hother rfl rfl

/-- A byte that no call of a run writes. -/
theorem Beside.memory_run (h : Beside strategy hsm ref) (events : List Event)
    (htidy : ∀ event ∈ events, Tidy event) {address : Nat}
    (hkept : ∀ x ∈ (machine c.algorithm).trace events hsm, ¬ Overwrites x.1 x.2 address) :
    ((machine c.algorithm).run events hsm).memory address = hsm.memory address := by
  induction events generalizing hsm ref with
  | nil => rfl
  | cons event events ih =>
      obtain ⟨hhead, htail⟩ := List.forall_mem_cons.mp hkept
      obtain ⟨htidyHead, htidyTail⟩ := List.forall_mem_cons.mp htidy
      have hrest := ih (h.next event) htidyTail htail
      rw [Machine.run_cons, hrest]
      exact h.memory_next htidyHead hhead

/-- Calls that are no requests are answered alike on both sides. -/
theorem Beside.reply_of_no_request (h : Beside strategy hsm ref) {event : Event}
    (hevent : request event = none) :
    (machine c.algorithm).reply event hsm = (WiredHsm.machine strategy).reply event ref := by
  rw [(h.call event).1, asked_of_no_request c.algorithm hevent, Option.elim_none]

/-- So the shipped firmware keeps a key as long as the other one does. -/
theorem Beside.uncleared (h : Beside strategy hsm ref) (events : List Event) {slotId : UInt8}
    (hkept : ∀ x ∈ (machine c.algorithm).trace events hsm, ¬ Clears slotId x.1 x.2) :
    ∀ x ∈ (WiredHsm.machine strategy).trace events ref,
      slotEvent slotId x.1 x.2 ≠ some .cleared := by
  induction events generalizing hsm ref with
  | nil => simp
  | cons event events ih =>
      obtain ⟨hhead, htail⟩ := List.forall_mem_cons.mp hkept
      rw [Machine.trace_cons, List.forall_mem_cons]
      refine ⟨?_, ih (h.next event) htail⟩
      intro hcleared
      have hclears : Clears slotId event ((WiredHsm.machine strategy).reply event ref) :=
        clears_of_slotEvent hcleared
      have hevent : request event = none := by
        rcases hclears.2 with rfl | rfl | rfl <;> rfl
      rw [← h.reply_of_no_request hevent] at hclears
      exact hhead hclears

/-- A granted permission is that of a key in the slot. -/
theorem entry_of_grants {map : Option KeyMap} (h : Sound ref map) {slotId : UInt8}
    {required : KeyPermission} (hgrants : grants ref.world.keystore slotId required = true) :
    ∃ key, KeyMap.entry map slotId = some key ∧ key.permissions &&& required.toByte ≠ 0 := by
  by_cases hslot : IsValidSlotId slotId
  · rw [grants, dif_pos hslot, (h.represents.slot hslot).1, bne_iff_ne] at hgrants
    cases hentry : KeyMap.entry map slotId with
    | none => simp [hentry, infoOf] at hgrants
    | some key =>
        rw [hentry] at hgrants
        exact ⟨key, rfl, hgrants⟩
  · rw [grants, dif_neg hslot] at hgrants
    cases hgrants

/-- The session manager's answer on both sides. -/
theorem Beside.active (h : Beside strategy hsm ref) {sessionId : SessionId}
    (hactive : (machine c.algorithm).reply (.isSessionValid sessionId) hsm = .truth true) :
    ref.world.sessions.isSessionValid sessionId = true := by
  obtain ⟨map, hsound⟩ := h.sound
  rw [h.reply_of_no_request rfl] at hactive
  exact (hsound.reply_isSessionValid sessionId).mp hactive

end

/-! ## There and back -/

/--
**There and back with any cipher that keeps the contract.**  In every reachable state,
for a slot that grants both permissions: `encrypt` under an active session, on buffers
that fit and do not overlap, succeeds.  After any further calls that do not remove
the key or write to the ciphertext, and have no overlapping buffers, `decrypt` under
any session active then, to a buffer beside the ciphertext, succeeds as well, puts
there the bytes that were enciphered, and writes nothing else.
-/
theorem there_and_back (c : CorrectCipher) (accessCount : Fin kMaxKeySlots → UInt32)
    (mem : Memory) (before : List Event) (slotId : UInt8) (sessionId : SessionId)
    (name : Algorithm) (input output : Span)
    (hencrypt : grants ((machine c.algorithm).run before
      (powerOn c.algorithm accessCount mem)).world.keystore slotId .encrypt = true)
    (hdecrypt : grants ((machine c.algorithm).run before
      (powerOn c.algorithm accessCount mem)).world.keystore slotId .decrypt = true)
    (hactive : (machine c.algorithm).reply (.isSessionValid sessionId)
      ((machine c.algorithm).run before (powerOn c.algorithm accessCount mem)) = .truth true)
    (hpos : 1 ≤ input.size) (hfits : input.size ≤ output.size)
    (hdisjoint : input.Disjoint output) :
    let hsm := (machine c.algorithm).run before (powerOn c.algorithm accessCount mem)
    let there := .encrypt sessionId slotId name input output
    let hsm₁ := (machine c.algorithm).next there hsm
    (machine c.algorithm).reply there hsm = .status .ok ∧
      ∀ later, (∀ event ∈ later, Tidy event) →
        Undisturbed slotId ⟨output.start, input.size⟩ ((machine c.algorithm).trace later hsm₁) →
          ∀ sessionId' name' (result : Span),
            let hsm₂ := (machine c.algorithm).run later hsm₁
            let back := .decrypt sessionId' slotId name' ⟨output.start, input.size⟩ result
            let hsm₃ := (machine c.algorithm).next back hsm₂
            (machine c.algorithm).reply (.isSessionValid sessionId') hsm₂ = .truth true →
            input.size ≤ result.size → (Span.mk output.start input.size).Disjoint result →
              (machine c.algorithm).reply back hsm₂ = .status .ok ∧
                hsm₃.memory.bytes result.start input.size =
                  hsm.memory.bytes input.start input.size ∧
                OnlyBytes result.start input.size hsm₂.memory hsm₃.memory := by
  intro hsm there hsm₁
  obtain ⟨ref, hbeside⟩ : ∃ ref : WiredHsm .aes128, Beside .aes128 hsm ref :=
    ⟨_, beside_run .aes128 c.algorithm accessCount mem mem before⟩
  obtain ⟨map, hsound⟩ := hbeside.sound
  have hkeystore : hsm.world.keystore = ref.world.keystore := congrArg World.keystore hbeside.world
  obtain ⟨key, hentry, henc⟩ := entry_of_grants hsound (hkeystore ▸ hencrypt)
  obtain ⟨key', hentry', hdec⟩ := entry_of_grants hsound (hkeystore ▸ hdecrypt)
  obtain rfl : key = key' := Option.some.inj (hentry.symm.trans hentry')
  have hgrant := hsound.decision_of_held hentry henc (hbeside.active hactive) hpos hfits
  obtain ⟨hreply, hputs⟩ := hbeside.granted .encrypt hgrant hdisjoint name
  refine ⟨hreply, ?_⟩
  intro later htidy hundisturbed sessionId' name' result hsm₂ back hsm₃ hactive' hfits' hdisjoint'
  have hbeside₁ := hbeside.next there
  have hsound₁ : Sound ((WiredHsm.machine .aes128).next there ref) map := hsound.next there
  obtain ⟨map₂, hsound₂, hentry₂, -⟩ := hsound₁.run_held (hsound.valid_of_entry hentry) hentry later
    (hbeside₁.uncleared later hundisturbed.kept)
  have hbeside₂ := hbeside₁.run later
  have hgrant' := hsound₂.decision_of_held hentry₂ hdec (hbeside₂.active hactive')
    (show 1 ≤ (Span.mk output.start input.size).size from hpos) hfits'
  obtain ⟨hreply', hputs'⟩ := hbeside₂.granted .decrypt hgrant' hdisjoint' name'
  refine ⟨hreply', ?_, hputs'.frame⟩
  have hkept : hsm₂.memory.bytes output.start input.size =
      hsm₁.memory.bytes output.start input.size := by
    apply Memory.bytes_congr
    intro i hi
    exact hbeside₁.memory_run later htidy fun x hx =>
      hundisturbed.unwritten x hx _ ⟨Nat.le_add_right _ i, Nat.add_lt_add_left hi _⟩
  calc hsm₃.memory.bytes result.start input.size
      _ = c.code .decrypt (hsm₂.memory.bytes output.start input.size) := hputs'.bytes
      _ = c.code .decrypt (hsm₁.memory.bytes output.start input.size) := by rw [hkept]
      _ = c.code .decrypt (c.code .encrypt (hsm.memory.bytes input.start input.size)) :=
          congrArg (c.code .decrypt) hputs.bytes
      _ = hsm.memory.bytes input.start input.size := c.undo _

/-- Four bytes there and back with a shipped strategy, while its session is closed, the
slot is asked to take another key, and another text is enciphered. -/
theorem there_and_back_aes256 :
    let hsm := (machine (Strategy.correct .aes256).algorithm).run
      [.init, .createSession 0, .importKey 3 .aes256 [7] 0x03]
      (powerOn (Strategy.correct .aes256).algorithm (fun _ => 0) UInt8.ofNat)
    let hsm₁ := (machine (Strategy.correct .aes256).algorithm).next
      (.encrypt 1 3 .aes256 ⟨5, 4⟩ ⟨16, 8⟩) hsm
    let hsm₂ := (machine (Strategy.correct .aes256).algorithm).run
      [.importKey 3 .aes128 [1] 0x01, .createSession 0, .closeSession 1,
        .encrypt 2 3 .aes256 ⟨0, 2⟩ ⟨40, 2⟩] hsm₁
    let hsm₃ := (machine (Strategy.correct .aes256).algorithm).next
      (.decrypt 2 3 .aes128 ⟨16, 4⟩ ⟨32, 4⟩) hsm₂
    hsm₃.memory.bytes 32 4 = hsm.memory.bytes 5 4 := by
  intro hsm hsm₁ hsm₂ hsm₃
  have hthere := there_and_back (Strategy.correct .aes256) (fun _ => 0) UInt8.ofNat
    [.init, .createSession 0, .importKey 3 .aes256 [7] 0x03] 3 1 .aes256 ⟨5, 4⟩ ⟨16, 8⟩
    (by decide +kernel) (by decide +kernel) (by decide +kernel) (by decide) (by decide)
    (Span.disjoint_of_le (by decide))
  have htidy : ∀ event ∈ [Event.importKey 3 .aes128 [1] 0x01, .createSession 0, .closeSession 1,
      .encrypt 2 3 .aes256 ⟨0, 2⟩ ⟨40, 2⟩], Tidy event := by
    intro event hevent sessionId input output hrequest
    simp only [List.mem_cons, List.not_mem_nil, or_false] at hevent
    rcases hevent with rfl | rfl | rfl | rfl <;> cases hrequest
    exact Span.disjoint_of_le (by decide)
  have htrace : (machine (Strategy.correct .aes256).algorithm).trace
      [.importKey 3 .aes128 [1] 0x01, .createSession 0, .closeSession 1,
        .encrypt 2 3 .aes256 ⟨0, 2⟩ ⟨40, 2⟩] hsm₁ =
        [(.importKey 3 .aes128 [1] 0x01, .status .errKeySlotFull),
          (.createSession 0, .session .ok 2), (.closeSession 1, .status .ok),
          (.encrypt 2 3 .aes256 ⟨0, 2⟩ ⟨40, 2⟩, .status .ok)] := by
    decide +kernel
  have hundisturbed : Undisturbed 3 ⟨16, 4⟩ ((machine (Strategy.correct .aes256).algorithm).trace
      [.importKey 3 .aes128 [1] 0x01, .createSession 0, .closeSession 1,
        .encrypt 2 3 .aes256 ⟨0, 2⟩ ⟨40, 2⟩] hsm₁) := by
    rw [htrace]
    constructor
    · simp [Clears]
    · intro x hx address haddress
      have hbelow : address < 16 + 4 := haddress.2
      simp only [List.mem_cons, List.not_mem_nil, or_false] at hx
      rcases hx with rfl | rfl | rfl | rfl
      · exact id
      · exact id
      · exact id
      · rintro ⟨-, habove, -⟩
        have habove : 40 ≤ address := habove
        omega
  exact (hthere.2 _ htidy hundisturbed 2 .aes128 ⟨32, 4⟩ (by decide +kernel) (by decide)
    (Span.disjoint_of_le (by decide))).2.1

end PluggedHsm

end Ehsm
