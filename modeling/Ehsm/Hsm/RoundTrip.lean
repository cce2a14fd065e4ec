import Ehsm.Crypto.Overlap
import Ehsm.Hsm.Frame
import Ehsm.Hsm.Slots

/-!
# Enciphering and deciphering through the whole stack

A request is granted as long as the slot holds a key with the permission, and a
slot that holds a key keeps it until a clearing.  So between an `encrypt` and the
`decrypt` that undoes it anything may happen, imports, failed re-imports, sessions
opened and closed, requests on other data, as long as the slot is not cleared, the
ciphertext is not overwritten, and some session is active at the end.

## Main results

* `WiredHsm.Sound.memory_run` — a byte that no call writes.
* `WiredHsm.round_trip` — the way there and back.
-/

namespace Ehsm

open Reactive

namespace WiredHsm

variable {strategy : Strategy}

/-! ## Directions -/

/-- The two crypto operations. -/
inductive Direction where
  | encrypt
  | decrypt
  deriving DecidableEq, Repr

namespace Direction

def inverse : Direction → Direction
  | .encrypt => .decrypt
  | .decrypt => .encrypt

def permission : Direction → KeyPermission
  | .encrypt => .encrypt
  | .decrypt => .decrypt

/-- The call. -/
def event : Direction → SessionId → UInt8 → Algorithm → Span → Span → Event
  | .encrypt => .encrypt
  | .decrypt => .decrypt

end Direction

theorem direct_direction (direction : Direction) (sessionId : SessionId) (keySlotId : UInt8)
    (algorithm : Algorithm) (input output : Span) (hsm : WiredHsm strategy) :
    direct (direction.event sessionId keySlotId algorithm input output) hsm =
      directCrypt direction.permission sessionId keySlotId input output hsm := by
  cases direction <;> rfl

/-! ## Bytes of the caller -/

/-- The call wrote the byte: a `store` to it, or a granted request with the byte
among those of its output that it fills. -/
def Overwrites (event : Event) (answer : Answer) (address : Nat) : Prop :=
  match event with
  | .store target _ => target = address
  | .encrypt _ _ _ input output | .decrypt _ _ _ input output =>
      answer = .status .ok ∧ output.start ≤ address ∧ address < output.start + input.size
  | _ => False

section

variable {hsm : WiredHsm strategy} {map : Option KeyMap}

theorem memory_directCrypt (required : KeyPermission) (sessionId : SessionId)
    (keySlotId : UInt8) (input output : Span) (hsm : WiredHsm strategy) {address : Nat}
    (h : ¬ (decision required sessionId keySlotId input output hsm = .ok ∧
      output.start ≤ address ∧ address < output.start + input.size)) :
    (directCrypt required sessionId keySlotId input output hsm).2.memory address =
      hsm.memory address := by
  rw [directCrypt]
  by_cases hok : decision required sessionId keySlotId input output hsm = .ok
  · rw [if_pos hok]
    apply xorLoop_frame
    rw [not_and] at h
    have hout := h hok
    omega
  · rw [if_neg hok]

theorem Sound.memory_next (h : Sound hsm map) (event : Event) {address : Nat}
    (hkept : ¬ Overwrites event ((machine strategy).reply event hsm) address) :
    ((machine strategy).next event hsm).memory address = hsm.memory address := by
  rw [h.reply_eq_direct] at hkept
  rw [h.next_eq_direct]
  cases event with
  | init | deinit =>
      simp only [direct]
      split <;> rfl
  | encrypt sessionId keySlotId algorithm input output =>
      apply memory_directCrypt
      intro hwritten
      exact hkept ⟨congrArg Answer.status hwritten.1, hwritten.2⟩
  | decrypt sessionId keySlotId algorithm input output =>
      apply memory_directCrypt
      intro hwritten
      exact hkept ⟨congrArg Answer.status hwritten.1, hwritten.2⟩
  | store target byte => exact Function.update_of_ne (fun heq => hkept heq.symm) byte hsm.memory
  | isReady | createSession _ | closeSession _ | isSessionValid _ | importKey _ _ _ _
  | deleteKey _ | getKeySlotInfo _ _ | clearAllKeys | getVersion => rfl

/-- A byte that no call of a run writes stays as it is. -/
theorem Sound.memory_run (h : Sound hsm map) (events : List Event) {address : Nat}
    (hkept : ∀ x ∈ (machine strategy).trace events hsm, ¬ Overwrites x.1 x.2 address) :
    ((machine strategy).run events hsm).memory address = hsm.memory address := by
  induction events generalizing hsm map with
  | nil => rfl
  | cons event events ih =>
      obtain ⟨hhead, htail⟩ := List.forall_mem_cons.mp hkept
      have hrest := ih (h.next event) htail
      rw [Machine.run_cons, hrest]
      exact h.memory_next event hhead

/-! ## A granted request -/

/-- A request on a filled slot with the permission, under an active session and on
fitting buffers, is granted. -/
theorem Sound.decision_of_held (h : Sound hsm map) {keySlotId : UInt8} {key : Import}
    (hentry : KeyMap.entry map keySlotId = some key) {required : KeyPermission}
    (hbit : key.permissions &&& required.toByte ≠ 0) {sessionId : SessionId}
    (hactive : hsm.world.sessions.isSessionValid sessionId = true) {input output : Span}
    (hpos : 1 ≤ input.size) (hfits : input.size ≤ output.size) :
    decision required sessionId keySlotId input output hsm = .ok := by
  have hslot := h.valid_of_entry hentry
  have hgood : ¬ BadBuffers input output := by
    rw [BadBuffers, Span.isEmpty_iff]
    omega
  rw [decision_eq_ok_iff]
  refine ⟨h.isReady_of_entry hentry, hgood, hactive, hslot, ?_⟩
  rw [grants, dif_pos hslot, (h.represents.slot hslot).1, hentry, bne_iff_ne]
  exact hbit

/-- What it answers and what it leaves: the output ciphered, unless it starts inside
the input, every other byte and the map as they were. -/
theorem Sound.granted (h : Sound hsm map) {direction : Direction} {sessionId : SessionId}
    {keySlotId : UInt8} {input output : Span}
    (hok : decision direction.permission sessionId keySlotId input output hsm = .ok)
    (hlayout : ¬ ForwardOverlap input output) (algorithm : Algorithm) :
    let event := direction.event sessionId keySlotId algorithm input output
    let hsm' := (machine strategy).next event hsm
    (machine strategy).reply event hsm = .status .ok ∧
      Ciphers input output hsm.memory hsm'.memory ∧
      OnlyBytes output.start input.size hsm.memory hsm'.memory ∧ Sound hsm' map := by
  intro event hsm'
  have hmemory : hsm'.memory = xorLoop input output input.size hsm.memory := by
    show ((machine strategy).next event hsm).memory = _
    rw [h.next_eq_direct, direct_direction, directCrypt, if_pos hok]
  have hsound : Sound hsm' (mapAfter event map) := h.next event
  have hmap : mapAfter event map = map := by
    cases direction <;> rfl
  rw [hmap] at hsound
  rw [hmemory]
  refine ⟨?_, ?_, ?_, hsound⟩
  · rw [h.reply_eq_direct, direct_direction, directCrypt, hok]
  · exact fun i hi => xorLoop_of_safe hlayout hi hsm.memory
  · exact fun address haddress => xorLoop_frame input output input.size hsm.memory haddress

theorem Sound.reply_isSessionValid (h : Sound hsm map) (sessionId : SessionId) :
    (machine strategy).reply (.isSessionValid sessionId) hsm = .truth true ↔
      hsm.world.sessions.isSessionValid sessionId = true := by
  rw [h.reply_eq_direct, direct, Answer.truth.injEq]

end

/-! ## There and back -/

/-- The call removed the key of the slot. -/
def Clears (keySlotId : UInt8) (event : Event) (answer : Answer) : Prop :=
  answer = .status .ok ∧
    (event = .deleteKey keySlotId ∨ event = .clearAllKeys ∨ event = .deinit)

theorem clears_of_slotEvent {keySlotId : UInt8} {event : Event} {answer : Answer}
    (h : slotEvent keySlotId event answer = some .cleared) : Clears keySlotId event answer := by
  obtain ⟨op, status, hop, rfl, hevent⟩ := exists_op_of_slotEvent h
  obtain ⟨hcases, hok⟩ := KeystoreService.of_slotEvent_eq_cleared hevent
  rw [KeystoreService.Reply.status.inj hok]
  refine ⟨rfl, ?_⟩
  rcases hcases with hdelete | hclear | hdeinit
  · rw [hdelete] at hop
    left
    cases event <;> cases hop
    rfl
  · rw [hclear] at hop
    right
    left
    cases event <;> cases hop
    rfl
  · rw [hdeinit] at hop
    right
    right
    cases event <;> cases hop
    rfl

/-- Calls that neither remove the key of the slot nor write to the span. -/
structure Undisturbed (keySlotId : UInt8) (span : Span) (tr : List (Event × Answer)) : Prop where
  kept : ∀ x ∈ tr, ¬ Clears keySlotId x.1 x.2
  unwritten : ∀ x ∈ tr, ∀ address, span.Contains address → ¬ Overwrites x.1 x.2 address

/--
**There and back.**  In every reachable state, with either strategy, for a slot
whose latest event imported a key with both permissions: a request under an active
session, on a non-empty input and a disjoint output that is large enough, is
granted, and after any further calls that neither remove the key nor write to the
output, the inverse request under any session active then, from the output to a
buffer disjoint from it, is granted as well and puts there the bytes of the input.
It changes no other byte, and the output is still what the first request left.
-/
theorem round_trip (strategy : Strategy) (accessCount : Fin kMaxKeySlots → UInt32) (mem : Memory)
    (before : List Event) (direction : Direction) (keySlotId : UInt8) (key : Import)
    (hkey : lastSlotEvent strategy accessCount mem before keySlotId = some (.imported key))
    (hencrypt : key.permissions &&& KeyPermission.encrypt.toByte ≠ 0)
    (hdecrypt : key.permissions &&& KeyPermission.decrypt.toByte ≠ 0)
    (sessionId : SessionId) (algorithm : Algorithm) (input output : Span)
    (hpos : 1 ≤ input.size) (hfits : input.size ≤ output.size)
    (hdisjoint : input.Disjoint output)
    (hactive : (machine strategy).reply (.isSessionValid sessionId)
      ((machine strategy).run before (powerOn strategy accessCount mem)) = .truth true) :
    let hsm := (machine strategy).run before (powerOn strategy accessCount mem)
    let there := direction.event sessionId keySlotId algorithm input output
    let hsm₁ := (machine strategy).next there hsm
    (machine strategy).reply there hsm = .status .ok ∧
      ∀ later, Undisturbed keySlotId output ((machine strategy).trace later hsm₁) →
        ∀ sessionId' algorithm' (result : Span),
          let hsm₂ := (machine strategy).run later hsm₁
          let back := direction.inverse.event sessionId' keySlotId algorithm'
            ⟨output.start, input.size⟩ result
          let hsm₃ := (machine strategy).next back hsm₂
          (machine strategy).reply (.isSessionValid sessionId') hsm₂ = .truth true →
          input.size ≤ result.size → result.Disjoint output →
            (machine strategy).reply back hsm₂ = .status .ok ∧
              (∀ i < input.size,
                hsm₃.memory (result.start + i) = hsm.memory (input.start + i)) ∧
              (∀ address, output.Contains address →
                hsm₃.memory address = hsm₁.memory address) ∧
              OnlyBytes result.start input.size hsm₂.memory hsm₃.memory := by
  intro hsm there hsm₁
  obtain ⟨map, hsound, hentries⟩ := sound_run strategy accessCount mem before
  have hentry : KeyMap.entry map keySlotId = some key := by
    rw [hentries keySlotId, hkey]
    rfl
  have hbit : ∀ d : Direction, key.permissions &&& d.permission.toByte ≠ 0 := by
    intro d
    cases d with
    | encrypt => exact hencrypt
    | decrypt => exact hdecrypt
  have hthere := hsound.decision_of_held hentry (hbit direction)
    ((hsound.reply_isSessionValid sessionId).mp hactive) hpos hfits
  have hlayout := hdisjoint.not_forwardOverlap (by omega) (Nat.le_refl input.size)
  obtain ⟨hreply, hcipher, -, hsound₁⟩ := hsound.granted hthere hlayout algorithm
  refine ⟨hreply, ?_⟩
  intro later hundisturbed sessionId' algorithm' result hsm₂ back hsm₃ hactive' hfits' hdisjoint'
  obtain ⟨map₂, hsound₂, hentry₂, -⟩ := hsound₁.run_held (hsound.valid_of_entry hentry) hentry later
    fun x hx hcleared => hundisturbed.kept x hx (clears_of_slotEvent hcleared)
  have hback := hsound₂.decision_of_held hentry₂ (hbit direction.inverse)
    ((hsound₂.reply_isSessionValid sessionId').mp hactive')
    (show 1 ≤ (Span.mk output.start input.size).size from hpos) hfits'
  have hlayout' := hdisjoint'.symm.not_forwardOverlap (by omega) hfits
  obtain ⟨hreply', hplain, hothers, -⟩ := hsound₂.granted hback hlayout' algorithm'
  have hframe : OnlyBytes result.start input.size hsm₂.memory hsm₃.memory := hothers
  have hkeptOutput : ∀ address, output.Contains address →
      hsm₂.memory address = hsm₁.memory address := by
    intro address haddress
    exact hsound₁.memory_run later fun x hx => hundisturbed.unwritten x hx address haddress
  refine ⟨hreply', ?_, ?_, hframe⟩
  · apply hcipher.undo _ hplain
    intro i hi
    exact hkeptOutput (output.start + i) ⟨Nat.le_add_right _ i, by omega⟩
  · intro address haddress
    have houtside : ¬ result.Contains address := fun hin => hdisjoint' address hin haddress
    rw [Span.Contains] at houtside
    rw [hframe address (by omega)]
    exact hkeptOutput address haddress

/-- Four bytes there and back, with a failed re-import, a new session and the end of
the first one in between. -/
theorem round_trip_aes256 :
    let hsm := (machine .aes256).run
      [.init, .createSession 0, .importKey 3 .aes256 [7] 0x03]
      (powerOn .aes256 (fun _ => 0) UInt8.ofNat)
    let hsm₁ := (machine .aes256).next
      (Direction.encrypt.event 1 3 .aes256 ⟨5, 4⟩ ⟨16, 8⟩) hsm
    let hsm₂ := (machine .aes256).run
      [.importKey 3 .aes128 [1] 0x01, .createSession 0, .closeSession 1] hsm₁
    let hsm₃ := (machine .aes256).next
      (Direction.decrypt.event 2 3 .aes128 ⟨16, 4⟩ ⟨32, 4⟩) hsm₂
    ∀ i < 4, hsm₃.memory (32 + i) = hsm.memory (5 + i) := by
  intro hsm hsm₁ hsm₂ hsm₃
  have htrace : (machine .aes256).trace
      [.importKey 3 .aes128 [1] 0x01, .createSession 0, .closeSession 1] hsm₁ =
        [(.importKey 3 .aes128 [1] 0x01, .status .errKeySlotFull),
          (.createSession 0, .session .ok 2), (.closeSession 1, .status .ok)] := by
    decide +kernel
  have hundisturbed : Undisturbed 3 ⟨16, 8⟩ ((machine .aes256).trace
      [.importKey 3 .aes128 [1] 0x01, .createSession 0, .closeSession 1] hsm₁) := by
    rw [htrace]
    constructor
    · simp [Clears]
    · simp [Overwrites]
  have hthere := round_trip .aes256 (fun _ => 0) UInt8.ofNat
    [.init, .createSession 0, .importKey 3 .aes256 [7] 0x03] .encrypt 3 ⟨.aes256, [7], 0x03⟩
    (by decide +kernel) (by decide) (by decide) 1 .aes256 ⟨5, 4⟩ ⟨16, 8⟩ (by decide) (by decide)
    (Span.disjoint_of_le (by decide)) (by decide +kernel)
  have hback := hthere.2 _ hundisturbed 2 .aes128 ⟨32, 4⟩ (by decide +kernel) (by decide)
    (Span.disjoint_of_le (by decide)).symm
  intro i hi
  simpa only [hsm₃, hsm₂, hsm₁, hsm, Direction.inverse] using hback.2.1 i hi

end WiredHsm

end Ehsm
