import Ehsm.Hsm.Programs

/-!
# What a caller can find out

A caller has the answers to its calls and its own memory.  How much of the state of
the firmware does it get to know?  The memory, whether the firmware is ready, how
often each session id is live, the id that is issued next, and the record of every
slot: all this it finds out in any state by further calls.  And this is all.  Two
states that agree on it are the same to every caller, though they belong to
different strategies and have different histories, other key bytes and counters, and
a session table in another order.

## Main results

* `VaultState.looksLike_iff` — two vaults look alike exactly if all answers agree.
* `WiredHsm.observable_iff` — what distinguishes two states of the firmware.
-/

namespace Ehsm

open Reactive

/-! ## Vaults that look alike -/

namespace Vault

/-- The same live ids, the same next id, and the same records. -/
structure LooksLike (v v' : Vault) : Prop where
  live : v.live = v'.live
  nextId : ticket v.created = ticket v'.created
  records : ∀ slotId, infoOf slotId (v.keys.lookup slotId) = infoOf slotId (v'.keys.lookup slotId)

theorem LooksLike.refl (v : Vault) : v.LooksLike v := ⟨rfl, rfl, fun _ => rfl⟩

variable {v v' : Vault}

theorem LooksLike.isSome (h : v.LooksLike v') (slotId : UInt8) :
    (v.keys.lookup slotId).isSome = (v'.keys.lookup slotId).isSome := by
  rw [← infoOf_isOccupied slotId, h.records slotId, infoOf_isOccupied]

theorem LooksLike.permits (h : v.LooksLike v') (slotId : UInt8) (required : KeyPermission) :
    v.permits slotId required = v'.permits slotId required := by
  rw [Bool.eq_iff_iff, permits_iff, permits_iff, h.records slotId]

theorem LooksLike.request (h : v.LooksLike v') (required : KeyPermission)
    (sessionId : SessionId) (slotId : UInt8) (input output : Span) :
    v.request required sessionId slotId input output =
      v'.request required sessionId slotId input output := by
  rw [Vault.request, Vault.request, h.live, h.permits slotId required]

theorem LooksLike.slotInfo (h : v.LooksLike v') (slotId : UInt8) (info : KeySlotInfo) :
    v.slotInfo slotId info = v'.slotInfo slotId info := by
  rw [Vault.slotInfo, Vault.slotInfo, h.records slotId]

theorem LooksLike.createSession (h : v.LooksLike v') (sessionId : SessionId) :
    (v.createSession sessionId).1 = (v'.createSession sessionId).1 ∧
      (v.createSession sessionId).2.1 = (v'.createSession sessionId).2.1 ∧
      (v.createSession sessionId).2.2.LooksLike (v'.createSession sessionId).2.2 := by
  have hcard : v.live.card = v'.live.card := by rw [h.live]
  by_cases hroom : v.live.card < kMaxSessions
  · have hroom' : v'.live.card < kMaxSessions := hcard ▸ hroom
    rw [Vault.createSession, dif_pos hroom, Vault.createSession, dif_pos hroom']
    refine ⟨rfl, h.nextId, ?_, ?_, h.records⟩
    · show ticket v.created ::ₘ v.live = ticket v'.created ::ₘ v'.live
      rw [h.nextId, h.live]
    · show ticket (v.created + 1) = ticket (v'.created + 1)
      rw [← advance_ticket, ← advance_ticket, h.nextId]
  · have hroom' : ¬ v'.live.card < kMaxSessions := hcard ▸ hroom
    rw [Vault.createSession, dif_neg hroom, Vault.createSession, dif_neg hroom']
    exact ⟨rfl, rfl, h⟩

theorem LooksLike.closeSession (h : v.LooksLike v') (sessionId : SessionId) :
    (v.closeSession sessionId).1 = (v'.closeSession sessionId).1 ∧
      (v.closeSession sessionId).2.LooksLike (v'.closeSession sessionId).2 := by
  unfold Vault.closeSession
  by_cases hlive : sessionId ∈ v.live
  · have hlive' : sessionId ∈ v'.live := h.live ▸ hlive
    rw [if_pos hlive, if_pos hlive']
    exact ⟨rfl, congrArg (Multiset.erase · sessionId) h.live, h.nextId, h.records⟩
  · have hlive' : sessionId ∉ v'.live := h.live ▸ hlive
    rw [if_neg hlive, if_neg hlive']
    exact ⟨rfl, h⟩

theorem LooksLike.importKey (h : v.LooksLike v') (slotId : UInt8) (key : Import) :
    (v.importKey slotId key).1 = (v'.importKey slotId key).1 ∧
      (v.importKey slotId key).2.LooksLike (v'.importKey slotId key).2 := by
  unfold Vault.importKey
  rw [← h.isSome slotId]
  split
  · split
    · split
      · exact ⟨rfl, h⟩
      · refine ⟨rfl, h.live, h.nextId, ?_⟩
        intro other
        by_cases hother : other = slotId
        · subst hother
          simp only [KeyMap.insert, Function.update_self]
        · simp only [KeyMap.insert, Function.update_of_ne hother]
          exact h.records other
    · exact ⟨rfl, h⟩
  · exact ⟨rfl, h⟩

theorem LooksLike.deleteKey (h : v.LooksLike v') (slotId : UInt8) :
    (v.deleteKey slotId).1 = (v'.deleteKey slotId).1 ∧
      (v.deleteKey slotId).2.LooksLike (v'.deleteKey slotId).2 := by
  unfold Vault.deleteKey
  rw [← h.isSome slotId]
  split
  · split
    · refine ⟨rfl, h.live, h.nextId, ?_⟩
      intro other
      by_cases hother : other = slotId
      · subst hother
        simp only [KeyMap.erase, Function.update_self]
      · simp only [KeyMap.erase, Function.update_of_ne hother]
        exact h.records other
    · exact ⟨rfl, h⟩
  · exact ⟨rfl, h⟩

end Vault

namespace VaultState

/-- The same memory, and vaults that look alike or are both down. -/
structure LooksLike (s s' : VaultState) : Prop where
  memory : s.memory = s'.memory
  vault : Option.Rel Vault.LooksLike s.vault s'.vault

section

variable {s s' : VaultState}

theorem LooksLike.guarded (h : LooksLike s s') {refused : Answer}
    {call : Vault → Answer × Vault}
    (hcall : ∀ v v', v.LooksLike v' → (call v).1 = (call v').1 ∧ (call v).2.LooksLike (call v').2) :
    (s.guarded refused call).1 = (s'.guarded refused call).1 ∧
      LooksLike (s.guarded refused call).2 (s'.guarded refused call).2 := by
  obtain ⟨hanswer, hnext⟩ := guarded_rel (O := Eq) h.vault rfl hcall
  refine ⟨hanswer, ?_, hnext⟩
  rw [← guarded_memory, ← guarded_memory]
  exact h.memory

theorem LooksLike.crypt (h : LooksLike s s') (required : KeyPermission) (sessionId : SessionId)
    (slotId : UInt8) (input output : Span) :
    (s.crypt required sessionId slotId input output).1 =
        (s'.crypt required sessionId slotId input output).1 ∧
      LooksLike (s.crypt required sessionId slotId input output).2
        (s'.crypt required sessionId slotId input output).2 := by
  obtain ⟨vault, memory⟩ := s
  obtain ⟨vault', memory'⟩ := s'
  obtain ⟨hmemory, hvault⟩ := h
  obtain rfl : memory = memory' := hmemory
  cases hvault with
  | none => exact ⟨rfl, rfl, .none⟩
  | some hv =>
      simp only [VaultState.crypt, hv.request]
      refine ⟨trivial, ?_⟩
      split
      · exact ⟨rfl, .some hv⟩
      · exact ⟨rfl, .some hv⟩

/-- One call of the two. -/
theorem LooksLike.step (h : LooksLike s s') (event : Event) :
    machine.reply event s = machine.reply event s' ∧
      LooksLike (machine.next event s) (machine.next event s') := by
  cases event with
  | encrypt sessionId slotId _ input output => exact h.crypt .encrypt sessionId slotId input output
  | decrypt sessionId slotId _ input output => exact h.crypt .decrypt sessionId slotId input output
  | getVersion => exact ⟨rfl, h⟩
  | store address byte =>
      exact ⟨rfl, congrArg (fun mem => Memory.write mem address byte) h.memory, h.vault⟩
  | init | deinit | isReady =>
      obtain ⟨vault, memory⟩ := s
      obtain ⟨vault', memory'⟩ := s'
      obtain ⟨hmemory, hvault⟩ := h
      cases hvault with
      | none => exact ⟨rfl, hmemory, by constructor <;> exact .refl _⟩
      | some hv => exact ⟨rfl, hmemory, by constructor <;> exact hv⟩
  | isSessionValid sessionId =>
      refine ⟨?_, h⟩
      obtain ⟨vault, memory⟩ := s
      obtain ⟨vault', memory'⟩ := s'
      obtain ⟨-, hvault⟩ := h
      cases hvault with
      | none => rfl
      | some hv => exact congrArg (fun live => Answer.truth (decide (sessionId ∈ live))) hv.live
  | createSession sessionId =>
      apply h.guarded
      intro v v' hv
      obtain ⟨hcode, hout, hnext⟩ := hv.createSession sessionId
      exact ⟨by rw [hcode, hout], hnext⟩
  | closeSession sessionId =>
      apply h.guarded
      intro v v' hv
      obtain ⟨hcode, hnext⟩ := hv.closeSession sessionId
      exact ⟨congrArg Answer.status hcode, hnext⟩
  | importKey slotId algorithm keyData permissions =>
      apply h.guarded
      intro v v' hv
      obtain ⟨hcode, hnext⟩ := hv.importKey slotId ⟨algorithm, keyData, permissions⟩
      exact ⟨congrArg Answer.status hcode, hnext⟩
  | deleteKey slotId =>
      apply h.guarded
      intro v v' hv
      obtain ⟨hcode, hnext⟩ := hv.deleteKey slotId
      exact ⟨congrArg Answer.status hcode, hnext⟩
  | getKeySlotInfo slotId info =>
      apply h.guarded
      intro v v' hv
      exact ⟨by rw [hv.slotInfo slotId info], hv⟩
  | clearAllKeys =>
      apply h.guarded
      exact fun v v' hv => ⟨rfl, hv.live, hv.nextId, fun _ => rfl⟩

end

/-- Vaults that look alike move in step. -/
theorem simulates_looksLike : Machine.Simulation machine machine LooksLike Eq Eq :=
  .of_step fun event _ _ h => h.step event

/-! ## What the answers show -/

/-- Closing a session again and again shows how often its id is live. -/
theorem count_closings (sessionId : SessionId) (n : Nat) (v : Vault) (mem : Memory) :
    (machine.replies (List.replicate n (.closeSession sessionId)) ⟨some v, mem⟩).count
        (.status .ok) = min n (v.live.count sessionId) := by
  induction n generalizing v with
  | zero => simp
  | succ n ih =>
      rw [List.replicate_succ, Machine.replies_cons]
      by_cases hlive : sessionId ∈ v.live
      · have hreply : machine.reply (.closeSession sessionId) ⟨some v, mem⟩ = .status .ok := by
          simp only [machine, Machine.reply, step, guarded, Vault.closeSession, if_pos hlive]
        have hnext : machine.next (.closeSession sessionId) ⟨some v, mem⟩ =
            ⟨some (v.closeSession sessionId).2, mem⟩ := rfl
        have hcount : (v.closeSession sessionId).2.live.count sessionId =
            v.live.count sessionId - 1 := by
          rw [Vault.closeSession, if_pos hlive]
          exact Multiset.count_erase_self sessionId v.live
        have hpos : 0 < v.live.count sessionId := Multiset.count_pos.mpr hlive
        rw [hreply, hnext, List.count_cons_self, ih, hcount]
        omega
      · have hreply : machine.reply (.closeSession sessionId) ⟨some v, mem⟩ =
            .status .errSessionInvalid := by
          simp only [machine, Machine.reply, step, guarded, Vault.closeSession, if_neg hlive]
        have hnext : machine.next (.closeSession sessionId) ⟨some v, mem⟩ = ⟨some v, mem⟩ := by
          simp only [machine, Machine.next, step, guarded, Vault.closeSession, if_neg hlive]
        have hcount : v.live.count sessionId = 0 := Multiset.count_eq_zero.mpr hlive
        rw [hreply, hnext, List.count_cons_of_ne (by simp), ih, hcount]
        omega

/-- While there is room, opening a session shows the next id. -/
theorem reply_createSession_of_room {v : Vault} (hroom : v.live.card < kMaxSessions)
    (mem : Memory) :
    machine.reply (.createSession 0) ⟨some v, mem⟩ = .session .ok (ticket v.created) := by
  simp only [machine, Machine.reply, step, guarded, Vault.createSession, dif_pos hroom]

/-- And closing a session makes room. -/
theorem replies_close_create {v : Vault} {sessionId : SessionId} (hlive : sessionId ∈ v.live)
    (mem : Memory) :
    machine.replies [.closeSession sessionId, .createSession 0] ⟨some v, mem⟩ =
      [.status .ok, .session .ok (ticket v.created)] := by
  have hreply : machine.reply (.closeSession sessionId) ⟨some v, mem⟩ = .status .ok := by
    simp only [machine, Machine.reply, step, guarded, Vault.closeSession, if_pos hlive]
  have hnext : machine.next (.closeSession sessionId) ⟨some v, mem⟩ =
      ⟨some (v.closeSession sessionId).2, mem⟩ := rfl
  have hclosed : (v.closeSession sessionId).2.live = v.live.erase sessionId ∧
      (v.closeSession sessionId).2.created = v.created := by
    rw [Vault.closeSession, if_pos hlive]
    exact ⟨rfl, rfl⟩
  have hroom : (v.closeSession sessionId).2.live.card < kMaxSessions := by
    rw [hclosed.1]
    exact (Multiset.card_erase_lt_of_mem hlive).trans_le v.card_live
  rw [Machine.replies_cons, Machine.replies_cons, Machine.replies_nil, hreply, hnext,
    reply_createSession_of_room hroom, hclosed.2]

section

variable {v v' : Vault} {mem mem' : Memory}

theorem live_of_replies
    (h : ∀ events, machine.replies events ⟨some v, mem⟩ = machine.replies events ⟨some v', mem'⟩) :
    v.live = v'.live := by
  rw [Multiset.ext]
  intro sessionId
  have hclosings := count_closings sessionId kMaxSessions v mem
  have hclosings' := count_closings sessionId kMaxSessions v' mem'
  have hbound : v.live.count sessionId ≤ kMaxSessions :=
    (Multiset.count_le_card sessionId v.live).trans v.card_live
  have hbound' : v'.live.count sessionId ≤ kMaxSessions :=
    (Multiset.count_le_card sessionId v'.live).trans v'.card_live
  rw [h, hclosings'] at hclosings
  omega

theorem nextId_of_replies
    (h : ∀ events, machine.replies events ⟨some v, mem⟩ = machine.replies events ⟨some v', mem'⟩) :
    ticket v.created = ticket v'.created := by
  have hlive := live_of_replies h
  rcases Multiset.empty_or_exists_mem v.live with hempty | ⟨sessionId, hmem⟩
  · have hroom : v.live.card < kMaxSessions := by
      rw [hempty]
      decide
    have hreply := h [.createSession 0]
    simp only [Machine.replies_cons, Machine.replies_nil, reply_createSession_of_room hroom,
      reply_createSession_of_room (hlive ▸ hroom), List.cons.injEq, Answer.session.injEq] at hreply
    exact hreply.1.2
  · have hreplies := h [.closeSession sessionId, .createSession 0]
    rw [replies_close_create hmem, replies_close_create (hlive ▸ hmem)] at hreplies
    simp only [List.cons.injEq, Answer.session.injEq] at hreplies
    exact hreplies.2.1.2

theorem records_of_replies
    (h : ∀ events, machine.replies events ⟨some v, mem⟩ = machine.replies events ⟨some v', mem'⟩)
    (slotId : UInt8) :
    infoOf slotId (v.keys.lookup slotId) = infoOf slotId (v'.keys.lookup slotId) := by
  by_cases hslot : IsValidSlotId slotId
  · have hreply := h [.getKeySlotInfo slotId {}]
    simp only [Machine.replies_cons, Machine.replies_nil, machine, Machine.reply, step, guarded,
      Vault.slotInfo, if_pos hslot, List.cons.injEq, Answer.info.injEq] at hreply
    exact hreply.1.2
  · rw [v.keys.lookup_of_not_valid hslot, v'.keys.lookup_of_not_valid hslot]

end

/-- **Looking alike is answering alike.** -/
theorem looksLike_iff (s s' : VaultState) :
    LooksLike s s' ↔
      s.memory = s'.memory ∧ ∀ events, machine.replies events s = machine.replies events s' := by
  constructor
  · intro h
    exact ⟨h.memory, fun events => simulates_looksLike.replies_eq events h⟩
  · rintro ⟨hmemory, hreplies⟩
    refine ⟨hmemory, ?_⟩
    have hready := hreplies [.isReady]
    obtain ⟨vault, memory⟩ := s
    obtain ⟨vault', memory'⟩ := s'
    cases vault with
    | none =>
        cases vault' with
        | none => exact .none
        | some v' => cases hready
    | some v =>
        cases vault' with
        | none => cases hready
        | some v' =>
            exact .some ⟨live_of_replies hreplies, nextId_of_replies hreplies,
              records_of_replies hreplies⟩

end VaultState

/-! ## The firmware -/

namespace WiredHsm

variable {strategy strategy' : Strategy}

/-- What can be seen of a state: the memory, the flag, and of a firmware that is up the
live ids, the next id and the records. -/
structure SameView (hsm : WiredHsm strategy) (hsm' : WiredHsm strategy') : Prop where
  memory : hsm.memory = hsm'.memory
  isReady : hsm.api.isReady = hsm'.api.isReady
  live : hsm.api.isReady = true → hsm.world.sessions.live = hsm'.world.sessions.live
  nextId : hsm.api.isReady = true →
    hsm.world.sessions.nextSessionId = hsm'.world.sessions.nextSessionId
  records : hsm.api.isReady = true → ∀ i,
    (hsm.world.keystore.keySlots i).info = (hsm'.world.keystore.keySlots i).info

/-- What the tables of a firmware that is up show of its vault. -/
theorem Refines.shows {hsm : WiredHsm strategy} {v : Vault} {mem : Memory}
    (h : Refines hsm ⟨some v, mem⟩) :
    hsm.world.sessions.live = v.live ∧ hsm.world.sessions.nextSessionId = ticket v.created ∧
      ∀ slotId (hslot : IsValidSlotId slotId),
        (hsm.world.keystore.keySlots (slotIndex slotId hslot)).info =
          infoOf slotId (v.keys.lookup slotId) :=
  ⟨h.sessions.2.1, h.sessions.2.2, fun _ hslot => (h.sound.represents.slot hslot).1⟩

theorem Refines.sameView_iff {hsm : WiredHsm strategy} {hsm' : WiredHsm strategy'}
    {s s' : VaultState} (h : Refines hsm s) (h' : Refines hsm' s') :
    SameView hsm hsm' ↔ s.LooksLike s' := by
  have hready := h.isReady
  have hready' := h'.isReady
  have hmemory := h.memory
  have hmemory' := h'.memory
  obtain ⟨vault, memory⟩ := s
  obtain ⟨vault', memory'⟩ := s'
  constructor
  · rintro ⟨hmem, hflag, hlive, hnext, hrecords⟩
    refine ⟨hmemory.symm.trans (hmem.trans hmemory'), ?_⟩
    rw [hready, hready'] at hflag
    cases vault with
    | none =>
        cases vault' with
        | none => exact .none
        | some v' => cases hflag
    | some v =>
        cases vault' with
        | none => cases hflag
        | some v' =>
            obtain ⟨hbag, hticket, hinfo⟩ := h.shows
            obtain ⟨hbag', hticket', hinfo'⟩ := h'.shows
            refine .some ⟨?_, ?_, ?_⟩
            · rw [← hbag, ← hbag', hlive hready]
            · rw [← hticket, ← hticket', hnext hready]
            · intro slotId
              by_cases hslot : IsValidSlotId slotId
              · rw [← hinfo slotId hslot, ← hinfo' slotId hslot, hrecords hready]
              · rw [v.keys.lookup_of_not_valid hslot, v'.keys.lookup_of_not_valid hslot]
  · rintro ⟨hmem, hvault⟩
    have hsame : hsm.memory = hsm'.memory := hmemory.trans (hmem.trans hmemory'.symm)
    cases hvault with
    | none =>
        have hdown : hsm.api.isReady ≠ true := by
          rw [hready]
          exact Bool.false_ne_true
        exact ⟨hsame, hready.trans hready'.symm, fun hup => absurd hup hdown,
          fun hup => absurd hup hdown, fun hup => absurd hup hdown⟩
    | @some v v' hv =>
        obtain ⟨hbag, hticket, hinfo⟩ := h.shows
        obtain ⟨hbag', hticket', hinfo'⟩ := h'.shows
        refine ⟨hsame, hready.trans hready'.symm, fun _ => ?_, fun _ => ?_, fun _ i => ?_⟩
        · rw [hbag, hbag', hv.live]
        · rw [hticket, hticket', hv.nextId]
        · obtain ⟨slotId, hslot, rfl⟩ := KeystoreService.exists_slotIndex i
          rw [hinfo slotId hslot, hinfo' slotId hslot, hv.records slotId]

/--
**What a caller can find out, exactly.**  Take two reachable states, of either
strategy each, from any power-on and after any runs.  No client tells them apart, whatever
it calls and however it goes on by what it sees, if and only if they have the same
memory and flag and, when they are up, the same bag of live session ids, the same next
id and the same record in each slot.
-/
theorem observable_iff (strategy strategy' : Strategy)
    (accessCount accessCount' : Fin kMaxKeySlots → UInt32) (mem mem' : Memory)
    (events events' : List Event) :
    let hsm := (machine strategy).run events (powerOn strategy accessCount mem)
    let hsm' := (machine strategy').run events' (powerOn strategy' accessCount' mem')
    (∀ (α : Type) (p : Client α), (execute p hsm).1 = (execute p hsm').1) ↔ SameView hsm hsm' := by
  intro hsm hsm'
  have hrefines : Refines hsm (vaultAfter mem events) :=
    refines_run strategy accessCount mem events
  have hrefines' : Refines hsm' (vaultAfter mem' events') :=
    refines_run strategy' accessCount' mem' events'
  rw [hrefines.sameView_iff hrefines']
  constructor
  · intro hclients
    rw [VaultState.looksLike_iff]
    constructor
    · have hmemory := hclients Memory .observe
      rw [execute, execute, Program.exec_observe, Program.exec_observe] at hmemory
      rw [← hrefines.memory, ← hrefines'.memory]
      exact hmemory
    · intro later
      have hreplies := hclients (List Answer) (.performAll later)
      rw [execute, execute, Program.exec_performAll, Program.exec_performAll] at hreplies
      rw [← (simulates_vault strategy).replies_eq later hrefines,
        ← (simulates_vault strategy').replies_eq later hrefines']
      exact hreplies
  · intro halike α p
    rw [(hrefines.execute p).1, (hrefines'.execute p).1]
    exact (p.exec_simulation VaultState.simulates_looksLike (fun h => h.memory) halike).1

end WiredHsm

end Ehsm
