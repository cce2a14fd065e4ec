import Ehsm.Crypto.Blocks
import Ehsm.Hsm.RoundTrip

/-!
# Data in pieces

A caller with a small buffer, or with data that arrives bit by bit, enciphers it in
pieces.  Does this come to the same as one request?  It does, piece by piece of any
sizes and for every layout: the pieces get the verdict of the whole, and the bytes
are the same.  The trace that is left is in the access counter, which counts
requests and not bytes.

A request cannot spoil the verdict on the next one, since a decision looks at
nothing that a granted request changes.

## Main results

* `WiredHsm.decision_directCrypt` — a request does not change later decisions.
* `WiredHsm.pieces_eq_whole` — pieces against one request.
-/

namespace Ehsm

open Reactive

namespace WiredHsm

variable {strategy : Strategy}

/-! ## Decisions -/

/-- Buffers matter to a decision only in that they fit. -/
theorem decision_of_good {input output input' output' : Span} (h : ¬ BadBuffers input output)
    (h' : ¬ BadBuffers input' output') (required : KeyPermission) (sessionId : SessionId)
    (slotId : UInt8) (hsm : WiredHsm strategy) :
    decision required sessionId slotId input output hsm =
      decision required sessionId slotId input' output' hsm := by
  rw [decision, decision, verdict, verdict, decide_eq_true h, decide_eq_true h']

/-- A request changes no decision, since none depends on a counter. -/
theorem decision_directCrypt (required required' : KeyPermission) (sessionId sessionId' : SessionId)
    (slotId slotId' : UInt8) (input output input' output' : Span) (hsm : WiredHsm strategy) :
    decision required' sessionId' slotId' input' output'
        (directCrypt required sessionId slotId input output hsm).2 =
      decision required' sessionId' slotId' input' output' hsm := by
  obtain ⟨-, hapi, -, hsessions, hcount⟩ :=
    directCrypt_frame required sessionId slotId input output hsm
  have hgrants : grants (directCrypt required sessionId slotId input output hsm).2.world.keystore
      slotId' required' = grants hsm.world.keystore slotId' required' := by
    unfold grants
    split
    · next hslot => rw [hcount.info]
    · rfl
  rw [decision, decision, hapi, hsessions, hgrants]

/-! ## Pieces -/

/-- The requests for pieces that follow each other in both buffers; each piece is
given with the room the caller says it has for the output. -/
def pieceEvents (direction : Direction) (sessionId : SessionId) (slotId : UInt8)
    (algorithm : Algorithm) : Nat → Nat → List (Nat × Nat) → List Event
  | _, _, [] => []
  | input, output, (n, room) :: pieces =>
      direction.event sessionId slotId algorithm ⟨input, n⟩ ⟨output, room⟩ ::
        pieceEvents direction sessionId slotId algorithm (input + n) (output + n) pieces

/-- No piece is empty or larger than its room. -/
def Fitting (pieces : List (Nat × Nat)) : Prop := ∀ piece ∈ pieces, 1 ≤ piece.1 ∧ piece.1 ≤ piece.2

/-- A slot after some more accesses to it. -/
def KeySlotStorage.counted (slot : KeySlotStorage) (n : Nat) : KeySlotStorage :=
  { slot with accessCount := slot.accessCount + UInt32.ofNat n }

theorem counted_zero (slot : KeySlotStorage) : KeySlotStorage.counted slot 0 = slot := by
  obtain ⟨info, key, accessCount⟩ := slot
  simp [KeySlotStorage.counted]

theorem counted_succ (slot : KeySlotStorage) (n : Nat) :
    KeySlotStorage.counted (KeystoreService.countAccess slot) n =
      KeySlotStorage.counted slot (n + 1) := by
  obtain ⟨info, key, accessCount⟩ := slot
  simp only [KeySlotStorage.counted, KeystoreService.countAccess, UInt32.ofNat_add]
  rw [UInt32.add_comm (UInt32.ofNat n), UInt32.add_assoc]
  rfl

/-- What requests on one slot leave when each of them gets the same verdict. -/
structure AfterPieces (slotId : UInt8) (code : Status) (count : Nat) (mem : Memory)
    (hsm hsm' : WiredHsm strategy) : Prop where
  memory : hsm'.memory = if code = .ok then mem else hsm.memory
  api : hsm'.api = hsm.api
  sessions : hsm'.world.sessions = hsm.world.sessions
  slots : ∀ other (hslot : IsValidSlotId other), slotOf hsm' other hslot =
    if slotId = other ∧ code = .ok then KeySlotStorage.counted (slotOf hsm other hslot) count
    else slotOf hsm other hslot

/-- Piece after piece: the verdict stays, and granted pieces are enciphered. -/
theorem Sound.run_pieces {hsm : WiredHsm strategy} {map : Option KeyMap} (h : Sound hsm map)
    (direction : Direction) {sessionId : SessionId} {slotId : UInt8} (algorithm : Algorithm)
    {code : Status} (hcode : ∀ input output, ¬ BadBuffers input output →
      decision direction.permission sessionId slotId input output hsm = code)
    {pieces : List (Nat × Nat)} (hfit : Fitting pieces) (input output : Nat) :
    let events := pieceEvents direction sessionId slotId algorithm input output pieces
    (machine strategy).replies events hsm = List.replicate pieces.length (.status code) ∧
      AfterPieces slotId code pieces.length
        (xorPieces input output (pieces.map Prod.fst) hsm.memory) hsm
        ((machine strategy).run events hsm) := by
  induction pieces generalizing hsm map input output with
  | nil =>
      refine ⟨rfl, ?_, rfl, rfl, ?_⟩
      · exact (ite_self _).symm
      · intro other hslot
        rw [List.length_nil, counted_zero, ite_self]
        rfl
  | cons piece pieces ih =>
      obtain ⟨n, room⟩ := piece
      obtain ⟨hhead, hrest⟩ := List.forall_mem_cons.mp hfit
      have hgood : ¬ BadBuffers ⟨input, n⟩ ⟨output, room⟩ := by
        simp only [BadBuffers, Span.isEmpty_iff]
        omega
      have hfirst := hcode _ _ hgood
      have hdirect := direct_direction direction sessionId slotId algorithm ⟨input, n⟩
        ⟨output, room⟩ hsm
      have hnext := h.next_eq_direct
        (direction.event sessionId slotId algorithm ⟨input, n⟩ ⟨output, room⟩)
      rw [hdirect] at hnext
      have hsoundNext := h.next
        (direction.event sessionId slotId algorithm ⟨input, n⟩ ⟨output, room⟩)
      rw [hnext] at hsoundNext
      obtain ⟨hreplies, hafter⟩ := ih hsoundNext (fun i o hio => by
        rw [decision_directCrypt, hcode i o hio]) hrest (input + n) (output + n)
      obtain ⟨-, hapi, -, hsessions, -⟩ :=
        directCrypt_frame direction.permission sessionId slotId ⟨input, n⟩ ⟨output, room⟩ hsm
      have hslots := fun (other : UInt8) (hslot : IsValidSlotId other) =>
        h.slotOf_directCrypt direction.permission sessionId slotId ⟨input, n⟩ ⟨output, room⟩ hslot
      simp only [pieceEvents, Machine.replies_cons, Machine.run_cons, hnext]
      refine ⟨?_, ?_, hafter.api.trans hapi, hafter.sessions.trans hsessions, ?_⟩
      · rw [hreplies, h.reply_eq_direct, hdirect, directCrypt, hfirst]
        rfl
      · rw [hafter.memory, directCrypt, hfirst]
        by_cases hok : code = .ok
        · simp only [if_pos hok, List.map_cons, xorPieces, xorLoop_eq_transform]
        · rw [if_neg hok, if_neg hok, if_neg hok]
      · intro other hslot
        rw [hafter.slots other hslot, hslots other hslot, hfirst]
        by_cases hcount : slotId = other ∧ code = .ok
        · rw [if_pos hcount, if_pos hcount, if_pos hcount, counted_succ]
          rfl
        · rw [if_neg hcount, if_neg hcount, if_neg hcount]

/--
**Pieces and the whole.**  In every reachable state, with either strategy and in
either direction, a request cut into pieces of any sizes that follow each other gets
the verdict of the whole for each piece, and leaves the same memory, the same facade
and the same sessions.  The slots are as before, but if the request is granted, the
counter of its slot has counted each piece.
-/
theorem pieces_eq_whole (strategy : Strategy) (accessCount : Fin kMaxKeySlots → UInt32)
    (mem : Memory) (events : List Event) (direction : Direction) (sessionId : SessionId)
    (slotId : UInt8) (algorithm : Algorithm) (input : Nat) (output : Span)
    (pieces : List (Nat × Nat)) (hsome : pieces ≠ []) (hfit : Fitting pieces)
    (hroom : (pieces.map Prod.fst).sum ≤ output.size) :
    let hsm := (machine strategy).run events (powerOn strategy accessCount mem)
    let whole := direction.event sessionId slotId algorithm ⟨input, (pieces.map Prod.fst).sum⟩ output
    let parts := pieceEvents direction sessionId slotId algorithm input output.start pieces
    let hsm' := (machine strategy).run parts hsm
    (machine strategy).replies parts hsm =
        List.replicate pieces.length ((machine strategy).reply whole hsm) ∧
      hsm'.memory = ((machine strategy).next whole hsm).memory ∧
      hsm'.api = hsm.api ∧ hsm'.world.sessions = hsm.world.sessions ∧
      ∀ other (hslot : IsValidSlotId other), slotOf hsm' other hslot =
        if slotId = other ∧ (machine strategy).reply whole hsm = .status .ok then
          KeySlotStorage.counted (slotOf hsm other hslot) pieces.length
        else slotOf hsm other hslot := by
  intro hsm whole parts hsm'
  obtain ⟨map, hsound, -⟩ := sound_run strategy accessCount mem events
  have hpos : 1 ≤ (pieces.map Prod.fst).sum := by
    cases pieces with
    | nil => exact absurd rfl hsome
    | cons piece pieces =>
        have hhead := (hfit piece List.mem_cons_self).1
        rw [List.map_cons, List.sum_cons]
        omega
  have hgood : ¬ BadBuffers ⟨input, (pieces.map Prod.fst).sum⟩ output := by
    simp only [BadBuffers, Span.isEmpty_iff]
    omega
  have hcode : ∀ i o, ¬ BadBuffers i o →
      decision direction.permission sessionId slotId i o hsm =
        decision direction.permission sessionId slotId ⟨input, (pieces.map Prod.fst).sum⟩ output
          hsm :=
    fun i o hio => decision_of_good hio hgood _ _ _ _
  obtain ⟨hreplies, hafter⟩ :=
    hsound.run_pieces direction algorithm hcode hfit input output.start
  have hreply : (machine strategy).reply whole hsm =
      .status (decision direction.permission sessionId slotId
        ⟨input, (pieces.map Prod.fst).sum⟩ output hsm) := by
    rw [hsound.reply_eq_direct, direct_direction]
    rfl
  have hwhole : ((machine strategy).next whole hsm).memory =
      if decision direction.permission sessionId slotId
        ⟨input, (pieces.map Prod.fst).sum⟩ output hsm = .ok then
        xorLoop ⟨input, (pieces.map Prod.fst).sum⟩ output (pieces.map Prod.fst).sum hsm.memory
      else hsm.memory := by
    rw [hsound.next_eq_direct, direct_direction, directCrypt]
    split <;> rfl
  refine ⟨by rw [hreplies, hreply], ?_, hafter.api, hafter.sessions, ?_⟩
  · rw [hafter.memory, hwhole, ← xorLoop_pieces]
  · intro other hslot
    rw [hafter.slots other hslot, hreply]
    simp only [Answer.status.injEq]
    rfl

/-- Five bytes in place, as three and two. -/
theorem pieces_eq_whole_in_place :
    ((machine .aes128).run
        [.init, .createSession 0, .importKey 3 .aes128 [7] 0x01, .encrypt 1 3 .aes128 ⟨0, 3⟩ ⟨0, 5⟩,
          .encrypt 1 3 .aes128 ⟨3, 2⟩ ⟨3, 2⟩]
        (powerOn .aes128 (fun _ => 0) (fun _ => 0))).memory =
      ((machine .aes128).run
        [.init, .createSession 0, .importKey 3 .aes128 [7] 0x01, .encrypt 1 3 .aes128 ⟨0, 5⟩ ⟨0, 5⟩]
        (powerOn .aes128 (fun _ => 0) (fun _ => 0))).memory :=
  (pieces_eq_whole .aes128 (fun _ => 0) (fun _ => 0)
    [.init, .createSession 0, .importKey 3 .aes128 [7] 0x01] .encrypt 1 3 .aes128 0 ⟨0, 5⟩
    [(3, 5), (2, 2)] (by decide) (by unfold Fitting; decide) (by decide)).2.1

end WiredHsm

end Ehsm
