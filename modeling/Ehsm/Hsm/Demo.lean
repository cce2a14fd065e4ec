import Ehsm.Crypto.Overlap
import Ehsm.Hsm.Programs

/-!
# The demonstration program

`main.cpp` wires a firmware and drives it: it starts it, opens a session, imports
a key, enciphers a text, deciphers the result and compares, and cleans up.  Its
console output is left out.  The demonstration and the part of `main` after the
composition root are clients, so they are executed on the vault, and what they do
there they do on the firmware; `main` itself takes no firmware.

The text and the two arrays are objects of their own, so they share no byte; that is
what a `Frame` knows of them.

## Main results

* `WiredHsm.demo_never_mismatches` — what the demonstration returns and writes in
  every reachable state.
* `WiredHsm.main_exit` — the program succeeds, and what it leaves; and when its part
  after the composition root succeeds on a firmware that has been used.
-/

namespace Ehsm

open Reactive
open Program (perform observe)

namespace Answer

/-- The status of an answer that has one. -/
def code : Answer → Status
  | status code | session code _ | info code _ => code
  | truth _ | version _ | stored => .ok

/-- The out-parameter of `createSession`, which held `before`. -/
def sessionId (before : SessionId) : Answer → SessionId
  | session _ sessionId => sessionId
  | _ => before

end Answer

/-! ## The program -/

namespace Demo

/-- Test key for AES-256. -/
def kTestKey : List UInt8 :=
  [ 0x00, 0x01, 0x02, 0x03, 0x04, 0x05, 0x06, 0x07,
    0x08, 0x09, 0x0A, 0x0B, 0x0C, 0x0D, 0x0E, 0x0F,
    0x10, 0x11, 0x12, 0x13, 0x14, 0x15, 0x16, 0x17,
    0x18, 0x19, 0x1A, 0x1B, 0x1C, 0x1D, 0x1E, 0x1F ]

def kPlaintext : String := "Hello, Embedded HSM C++! This is a secret message."

def kTestKeySlotId : UInt8 := 0

/-- `strlen` of the text, all characters of which are single bytes. -/
def plaintextLen : Nat := kPlaintext.length

@[simp] theorem plaintextLen_eq : plaintextLen = 50 := by decide

/-- The size of the two arrays. -/
abbrev bufferSize : Nat := 256

/-- Where the text and the two arrays lie. -/
structure Frame where
  plaintext : Nat
  ciphertext : Nat
  decrypted : Nat
  plaintext_ciphertext :
    (Span.mk plaintext plaintextLen).Disjoint ⟨ciphertext, bufferSize⟩
  plaintext_decrypted :
    (Span.mk plaintext plaintextLen).Disjoint ⟨decrypted, bufferSize⟩
  ciphertext_decrypted :
    (Span.mk ciphertext bufferSize).Disjoint ⟨decrypted, bufferSize⟩

namespace Frame

def plaintextSpan (frame : Frame) : Span := ⟨frame.plaintext, plaintextLen⟩

def ciphertextArray (frame : Frame) : Span := ⟨frame.ciphertext, bufferSize⟩

def decryptedArray (frame : Frame) : Span := ⟨frame.decrypted, bufferSize⟩

/-- The part of the ciphertext array that is deciphered. -/
def ciphertextSpan (frame : Frame) : Span := ⟨frame.ciphertext, plaintextLen⟩

end Frame

/-- An array is created with all bytes zero. -/
def zeroFill (start : Nat) : Nat → Client Unit
  | 0 => pure ()
  | n + 1 => do
      zeroFill start n
      let _ ← perform (.store (start + n) 0)

/-- `memcmp` finds no difference. -/
def memcmpEqual (mem : Memory) (left right size : Nat) : Bool :=
  (List.range size).all fun i => mem (left + i) == mem (right + i)

def runEncryptDecryptDemo (frame : Frame) (sessionId : SessionId) : Client Status := do
  zeroFill frame.ciphertext bufferSize
  zeroFill frame.decrypted bufferSize
  let encrypted ← perform
    (.encrypt sessionId kTestKeySlotId .aes256 frame.plaintextSpan frame.ciphertextArray)
  if !encrypted.code.isOk then pure encrypted.code
  else do
    let decrypted ← perform
      (.decrypt sessionId kTestKeySlotId .aes256 frame.ciphertextSpan frame.decryptedArray)
    if !decrypted.code.isOk then pure decrypted.code
    else do
      let _ ← perform (.store (frame.decrypted + plaintextLen) 0)
      let mem ← observe
      if !memcmpEqual mem frame.plaintext frame.decrypted plaintextLen then
        pure .errCryptoFailed
      else pure .ok

inductive ExitCode where
  | success
  | failure
  deriving DecidableEq, Repr

/-- `main` after its composition root, over what the variable `sessionId` holds before
it is written. -/
def afterWiring (frame : Frame) (sessionId : SessionId) : Client ExitCode := do
  let started ← perform .init
  if !started.code.isOk then pure .failure
  else do
    let _ ← perform .getVersion
    let created ← perform (.createSession sessionId)
    if !created.code.isOk then pure .failure
    else do
      let imported ← perform (.importKey kTestKeySlotId .aes256 kTestKey
        (KeyPermission.encrypt.toByte ||| KeyPermission.decrypt.toByte))
      if !imported.code.isOk then pure .failure
      else do
        let status ← runEncryptDecryptDemo frame (created.sessionId sessionId)
        if !status.isOk then pure .failure
        else do
          let _ ← perform (.deleteKey kTestKeySlotId)
          let _ ← perform (.closeSession (created.sessionId sessionId))
          let _ ← perform .deinit
          pure .success

/-- The program: it wires a firmware of its own, and goes on with it.  What the access
counters and the memory hold then is left open. -/
def main (accessCount : Fin kMaxKeySlots → UInt32) (mem : Memory) (frame : Frame)
    (sessionId : SessionId) : ExitCode × WiredHsm .aes256 :=
  WiredHsm.execute (afterWiring frame sessionId) (.powerOn .aes256 accessCount mem)

end Demo

/-! ## Execution on the vault -/

namespace VaultState

section

variable {α β : Type} (s : VaultState)

theorem execute_bind (p : Client α) (next : α → Client β) :
    s.execute (p >>= next) = (s.execute p).2.execute (next (s.execute p).1) :=
  Program.exec_bind machine memory p next s

@[simp] theorem execute_pure (result : α) : s.execute (pure result) = (result, s) :=
  Program.exec_pure machine memory result s

/-- The answer to a request, whether the vault is started or not. -/
def request (required : KeyPermission) (sessionId : SessionId) (slotId : UInt8)
    (input output : Span) : Status :=
  s.vault.elim .errNotInitialized fun v => v.request required sessionId slotId input output

theorem request_started (v : Vault) (mem : Memory) :
    VaultState.request ⟨some v, mem⟩ = v.request := rfl

/-- A request that is granted, whatever the memory holds. -/
theorem crypt_granted {required : KeyPermission} {sessionId : SessionId} {slotId : UInt8}
    {input output : Span} (h : s.request required sessionId slotId input output = .ok)
    (mem : Memory) :
    ({ s with memory := mem } : VaultState).crypt required sessionId slotId input output =
      (.status .ok,
        { s with
          memory := transform (· ^^^ kMockEncryptKey) input.start output.start input.size mem }) := by
  obtain ⟨vault, memory⟩ := s
  cases vault with
  | none => cases h
  | some v =>
      have hok : v.request required sessionId slotId input output = .ok := h
      simp only [VaultState.crypt, hok, if_true]

/-- A request that is refused. -/
theorem crypt_refused {required : KeyPermission} {sessionId : SessionId} {slotId : UInt8}
    {input output : Span} (h : s.request required sessionId slotId input output ≠ .ok)
    (mem : Memory) :
    ({ s with memory := mem } : VaultState).crypt required sessionId slotId input output =
      (.status (s.request required sessionId slotId input output), { s with memory := mem }) := by
  obtain ⟨vault, memory⟩ := s
  cases vault with
  | none => rfl
  | some v =>
      have hrefused : v.request required sessionId slotId input output ≠ .ok := h
      simp only [VaultState.crypt, hrefused, if_false]
      rfl

/-- A program that starts with a call. -/
theorem execute_call {s s' : VaultState} {event : Event} {answer : Answer}
    (h : VaultState.step event s = (answer, s')) (next : Answer → Client β) :
    s.execute (perform event >>= next) = s'.execute (next answer) := by
  have hcall : s.execute (perform event) = (answer, s') :=
    (Program.exec_perform machine memory event s).trans h
  rw [execute_bind, hcall]

/-- A program that goes on only after a success. -/
theorem execute_checked (code : Status) (refused next : Client α) :
    s.execute (if !code.isOk then refused else next) =
      if code = .ok then s.execute next else s.execute refused := by
  by_cases hok : code = .ok
  · rw [if_pos hok, hok, StatusCode.isOk_ok, if_neg (by decide)]
  · rw [if_neg hok, StatusCode.isOk_of_ne hok, if_pos (by decide)]

theorem execute_encrypt (sessionId : SessionId) (slotId : UInt8) (algorithm : Algorithm)
    (input output : Span) :
    s.execute (perform (.encrypt sessionId slotId algorithm input output)) =
      s.crypt .encrypt sessionId slotId input output := rfl

theorem execute_decrypt (sessionId : SessionId) (slotId : UInt8) (algorithm : Algorithm)
    (input output : Span) :
    s.execute (perform (.decrypt sessionId slotId algorithm input output)) =
      s.crypt .decrypt sessionId slotId input output := rfl

theorem execute_zeroFill (start n : Nat) :
    s.execute (Demo.zeroFill start n) =
      ((), { s with memory := transform (fun _ => 0) start start n s.memory }) := by
  induction n with
  | zero => rfl
  | succ n ih =>
      rw [Demo.zeroFill, execute_bind, ih]
      rfl

end

end VaultState

/-! ## What the demonstration writes -/

/-- Spans with a byte each that share none lie one after the other. -/
theorem Span.Disjoint.apart {p q : Span} (h : p.Disjoint q) (hp : 0 < p.size) (hq : 0 < q.size) :
    p.start + p.size ≤ q.start ∨ q.start + q.size ≤ p.start := by
  by_contra hoverlap
  apply h (max p.start q.start)
  · exact ⟨Nat.le_max_left _ _, by omega⟩
  · exact ⟨Nat.le_max_right _ _, by omega⟩

namespace Demo

section

variable (frame : Frame) (mem : Memory)

/-- The order of the three objects is open, but they are apart. -/
theorem Frame.apart :
    (frame.plaintext + 50 ≤ frame.ciphertext ∨ frame.ciphertext + 256 ≤ frame.plaintext) ∧
      (frame.plaintext + 50 ≤ frame.decrypted ∨ frame.decrypted + 256 ≤ frame.plaintext) ∧
      (frame.ciphertext + 256 ≤ frame.decrypted ∨
        frame.decrypted + 256 ≤ frame.ciphertext) := by
  have htext : 0 < plaintextLen := by decide
  have harray : 0 < bufferSize := by decide
  exact ⟨frame.plaintext_ciphertext.apart htext harray,
    frame.plaintext_decrypted.apart htext harray,
    frame.ciphertext_decrypted.apart harray harray⟩

/-- The memory when the two arrays have been created. -/
def cleared : Memory :=
  transform (fun _ => 0) frame.decrypted frame.decrypted bufferSize
    (transform (fun _ => 0) frame.ciphertext frame.ciphertext bufferSize mem)

/-- The memory when the text has been enciphered. -/
def enciphered : Memory :=
  transform (· ^^^ kMockEncryptKey) frame.plaintext frame.ciphertext plaintextLen
    (cleared frame mem)

/-- The memory when the result has been deciphered and terminated. -/
def deciphered : Memory :=
  Memory.write
    (transform (· ^^^ kMockEncryptKey) frame.ciphertext frame.decrypted plaintextLen
      (enciphered frame mem))
    (frame.decrypted + plaintextLen) 0

/-- Only the two arrays are written. -/
def Frame.Keeps (mem mem' : Memory) : Prop :=
  ∀ address, ¬ frame.ciphertextArray.Contains address →
    ¬ frame.decryptedArray.Contains address → mem' address = mem address

theorem cleared_keeps : frame.Keeps mem (cleared frame mem) := by
  intro address hciphertext hdecrypted
  rw [Frame.ciphertextArray, Span.Contains] at hciphertext
  rw [Frame.decryptedArray, Span.Contains] at hdecrypted
  dsimp only at hciphertext hdecrypted
  rw [cleared, transform_frame _ _ _ _ _ (by omega), transform_frame _ _ _ _ _ (by omega)]

theorem enciphered_keeps : frame.Keeps mem (enciphered frame mem) := by
  intro address hciphertext hdecrypted
  have hkept := cleared_keeps frame mem address hciphertext hdecrypted
  rw [Frame.ciphertextArray, Span.Contains] at hciphertext
  dsimp only [bufferSize] at hciphertext
  rw [enciphered, plaintextLen_eq, transform_frame _ _ _ _ _ (by omega), hkept]

theorem deciphered_keeps : frame.Keeps mem (deciphered frame mem) := by
  intro address hciphertext hdecrypted
  have hkept := enciphered_keeps frame mem address hciphertext hdecrypted
  rw [Frame.decryptedArray, Span.Contains] at hdecrypted
  dsimp only [bufferSize] at hdecrypted
  rw [deciphered, plaintextLen_eq, Memory.write, Function.update_of_ne (by omega),
    transform_frame _ _ _ _ _ (by omega), hkept]

/-- The text, enciphered in one array and back in the other. -/
structure Frame.Shows (mem mem' : Memory) : Prop where
  ciphertext : ∀ i < plaintextLen,
    mem' (frame.ciphertext + i) = mem (frame.plaintext + i) ^^^ kMockEncryptKey
  decrypted : ∀ i < plaintextLen, mem' (frame.decrypted + i) = mem (frame.plaintext + i)
  terminated : mem' (frame.decrypted + plaintextLen) = 0

/-- No byte of the text is written. -/
theorem Frame.Keeps.plaintext {frame : Frame} {mem mem' : Memory} (h : frame.Keeps mem mem')
    {i : Nat} (hi : i < plaintextLen) : mem' (frame.plaintext + i) = mem (frame.plaintext + i) := by
  have hcontains : (Span.mk frame.plaintext plaintextLen).Contains (frame.plaintext + i) :=
    ⟨Nat.le_add_right _ _, Nat.add_lt_add_left hi _⟩
  exact h _ (frame.plaintext_ciphertext _ hcontains) (frame.plaintext_decrypted _ hcontains)

theorem deciphered_shows : frame.Shows mem (deciphered frame mem) := by
  obtain ⟨htext, -, harrays⟩ := frame.apart
  have henciphered : ∀ i < plaintextLen, enciphered frame mem (frame.ciphertext + i) =
      mem (frame.plaintext + i) ^^^ kMockEncryptKey := by
    intro i hi
    rw [enciphered, transform_of_safe _ _ _ (by rw [plaintextLen_eq]; omega) hi,
      (cleared_keeps frame mem).plaintext hi]
  constructor
  · intro i hi
    rw [← henciphered i hi]
    rw [plaintextLen_eq] at hi
    rw [deciphered, plaintextLen_eq, Memory.write, Function.update_of_ne (by omega),
      transform_frame _ _ _ _ _ (by omega)]
  · intro i hi
    have hne : frame.decrypted + i ≠ frame.decrypted + plaintextLen := by omega
    rw [deciphered, Memory.write, Function.update_of_ne hne,
      transform_of_safe _ _ _ (by rw [plaintextLen_eq]; omega) hi, henciphered i hi,
      xor_mockKey_twice]
  · rw [deciphered, Memory.write, Function.update_self]

/-- The comparison at the end cannot fail. -/
theorem memcmpEqual_deciphered :
    memcmpEqual (deciphered frame mem) frame.plaintext frame.decrypted plaintextLen = true := by
  rw [memcmpEqual, List.all_eq_true]
  intro i hi
  have hlt : i < plaintextLen := List.mem_range.mp hi
  rw [beq_iff_eq, (deciphered_keeps frame mem).plaintext hlt,
    (deciphered_shows frame mem).decrypted i hlt]

end

end Demo

/-! ## What it returns -/

namespace VaultState

open Demo

variable (s : VaultState)

/-- **The demonstration on the vault.**  It ends at the first refusal, and the vault
is as before. -/
theorem execute_demo (frame : Frame) (sessionId : SessionId) :
    s.execute (runEncryptDecryptDemo frame sessionId) =
      if s.request .encrypt sessionId kTestKeySlotId frame.plaintextSpan
          frame.ciphertextArray = .ok then
        if s.request .decrypt sessionId kTestKeySlotId frame.ciphertextSpan
            frame.decryptedArray = .ok then
          (.ok, { s with memory := deciphered frame s.memory })
        else
          (s.request .decrypt sessionId kTestKeySlotId frame.ciphertextSpan
              frame.decryptedArray, { s with memory := enciphered frame s.memory })
      else
        (s.request .encrypt sessionId kTestKeySlotId frame.plaintextSpan
            frame.ciphertextArray, { s with memory := cleared frame s.memory }) := by
  rw [runEncryptDecryptDemo, execute_bind, execute_zeroFill, execute_bind, execute_zeroFill,
    execute_bind, execute_encrypt]
  by_cases hencrypt : s.request .encrypt sessionId kTestKeySlotId frame.plaintextSpan
      frame.ciphertextArray = .ok
  · rw [if_pos hencrypt, s.crypt_granted hencrypt, execute_checked, if_pos (by rfl),
      execute_bind, execute_decrypt]
    by_cases hdecrypt : s.request .decrypt sessionId kTestKeySlotId frame.ciphertextSpan
        frame.decryptedArray = .ok
    · rw [if_pos hdecrypt, s.crypt_granted hdecrypt, execute_checked, if_pos (by rfl),
        execute_bind, execute_bind]
      have hequal := memcmpEqual_deciphered frame s.memory
      show VaultState.execute (if !memcmpEqual (deciphered frame s.memory) frame.plaintext
          frame.decrypted plaintextLen then pure StatusCode.errCryptoFailed else pure StatusCode.ok)
        { s with memory := deciphered frame s.memory } = _
      rw [hequal, if_neg (by decide), execute_pure]
    · rw [if_neg hdecrypt, s.crypt_refused hdecrypt, execute_checked,
        if_neg (by exact hdecrypt), execute_pure]
      rfl
  · rw [if_neg hencrypt, s.crypt_refused hencrypt, execute_checked,
      if_neg (by exact hencrypt), execute_pure]
    rfl

/-- Which answer it returns, and what it leaves. -/
theorem execute_demo_spec (frame : Frame) (sessionId : SessionId) {outcome : Status × VaultState}
    (houtcome : s.execute (runEncryptDecryptDemo frame sessionId) = outcome) :
    outcome.1 =
        (if s.request .encrypt sessionId kTestKeySlotId frame.plaintextSpan
            frame.ciphertextArray = .ok then
          s.request .decrypt sessionId kTestKeySlotId frame.ciphertextSpan frame.decryptedArray
        else
          s.request .encrypt sessionId kTestKeySlotId frame.plaintextSpan
            frame.ciphertextArray) ∧
      (outcome.1 = .ok → frame.Shows s.memory outcome.2.memory) ∧
      frame.Keeps s.memory outcome.2.memory ∧ outcome.2.vault = s.vault := by
  rw [execute_demo] at houtcome
  subst houtcome
  by_cases hencrypt : s.request .encrypt sessionId kTestKeySlotId frame.plaintextSpan
      frame.ciphertextArray = .ok
  · rw [if_pos hencrypt, if_pos hencrypt]
    by_cases hdecrypt : s.request .decrypt sessionId kTestKeySlotId frame.ciphertextSpan
        frame.decryptedArray = .ok
    · rw [if_pos hdecrypt]
      exact ⟨hdecrypt.symm, fun _ => deciphered_shows frame s.memory,
        deciphered_keeps frame s.memory, rfl⟩
    · rw [if_neg hdecrypt]
      exact ⟨rfl, fun hok => absurd hok hdecrypt, enciphered_keeps frame s.memory, rfl⟩
  · rw [if_neg hencrypt, if_neg hencrypt]
    exact ⟨rfl, fun hok => absurd hok hencrypt, cleared_keeps frame s.memory, rfl⟩

end VaultState

/-! ### After the composition root -/

namespace Demo

/-- The test key, for both directions. -/
def testImport : Import :=
  ⟨.aes256, kTestKey, KeyPermission.encrypt.toByte ||| KeyPermission.decrypt.toByte⟩

theorem testImport_fits : testImport.Fits := by decide

end Demo

namespace Vault

open Demo

/-- There is room for a session, and the slot of the test key is free. -/
def Accepts (v : Vault) : Prop :=
  v.live.card < kMaxSessions ∧ v.keys.lookup kTestKeySlotId = none

instance (v : Vault) : Decidable v.Accepts := by
  unfold Accepts
  infer_instance

/-- A vault with the session `sessionId` and the test key. -/
structure Prepared (v : Vault) (sessionId : SessionId) : Prop where
  session : sessionId ∈ v.live
  key : v.keys.lookup kTestKeySlotId = some testImport

variable {v : Vault}

theorem createSession_of_room (h : v.live.card < kMaxSessions) (sessionId : SessionId) :
    ∃ v', v.createSession sessionId = (.ok, ticket v.created, v') ∧
      ticket v.created ∈ v'.live ∧ v'.keys = v.keys := by
  rw [createSession, dif_pos h]
  exact ⟨_, rfl, Multiset.mem_cons_self _ _, rfl⟩

theorem importKey_of_free (h : v.keys.lookup kTestKeySlotId = none) {sessionId : SessionId}
    (hsession : sessionId ∈ v.live) :
    ∃ v', v.importKey kTestKeySlotId testImport = (.ok, v') ∧ v'.Prepared sessionId := by
  have hslot : IsValidSlotId kTestKeySlotId := by decide
  rw [importKey, dif_pos hslot, dif_pos testImport_fits, h, Option.isSome_none,
    if_neg (by decide)]
  exact ⟨_, rfl, hsession, by simp only [KeyMap.insert, Function.update_self]⟩

theorem importKey_of_filled (h : v.keys.lookup kTestKeySlotId ≠ none) :
    v.importKey kTestKeySlotId testImport = (.errKeySlotFull, v) := by
  have hslot : IsValidSlotId kTestKeySlotId := by decide
  rw [importKey, dif_pos hslot, dif_pos testImport_fits,
    if_pos (Option.isSome_iff_ne_none.mpr h)]

/-- Both requests of the demonstration are granted. -/
theorem Prepared.request {sessionId : SessionId} (h : v.Prepared sessionId)
    {required : KeyPermission} (hrequired : testImport.permissions &&& required.toByte ≠ 0)
    {input output : Span} (hbuffers : ¬ (input.size = 0 ∨ output.size < input.size)) :
    v.request required sessionId kTestKeySlotId input output = .ok := by
  have hslot : IsValidSlotId kTestKeySlotId := by decide
  have hpermits : v.permits kTestKeySlotId required = true := by
    rw [permits, h.key, bne_iff_ne]
    exact hrequired
  rw [Vault.request, if_neg hbuffers, if_neg (not_not.mpr h.session), if_neg (not_not.mpr hslot),
    if_pos hpermits]

end Vault

namespace VaultState

open Demo

/-- On a prepared vault the demonstration passes. -/
theorem execute_demo_of_prepared {v : Vault} {sessionId : SessionId}
    (h : v.Prepared sessionId) (frame : Frame) (mem : Memory) :
    VaultState.execute (runEncryptDecryptDemo frame sessionId) ⟨some v, mem⟩ =
      (.ok, ⟨some v, deciphered frame mem⟩) := by
  have hencrypt : v.request .encrypt sessionId kTestKeySlotId frame.plaintextSpan
      frame.ciphertextArray = .ok := by
    apply h.request (by decide)
    simp [Frame.plaintextSpan, Frame.ciphertextArray, bufferSize]
  have hdecrypt : v.request .decrypt sessionId kTestKeySlotId frame.ciphertextSpan
      frame.decryptedArray = .ok := by
    apply h.request (by decide)
    simp [Frame.ciphertextSpan, Frame.decryptedArray, bufferSize]
  rw [execute_demo, request_started, if_pos hencrypt, if_pos hdecrypt]

/-- The cleaning up ends with the vault down, whatever it answers on the way. -/
theorem execute_afterWiring_of_prepared {v : Vault} {sessionId : SessionId}
    (h : v.Prepared sessionId) (frame : Frame) (mem : Memory) :
    VaultState.execute (do
        let status ← runEncryptDecryptDemo frame sessionId
        if !status.isOk then pure ExitCode.failure
        else do
          let _ ← perform (.deleteKey kTestKeySlotId)
          let _ ← perform (.closeSession sessionId)
          let _ ← perform .deinit
          pure .success) ⟨some v, mem⟩ =
      (.success, ⟨none, deciphered frame mem⟩) := by
  rw [execute_bind, execute_demo_of_prepared h, execute_checked, if_pos rfl]
  rfl

theorem step_createSession {v v' : Vault} {sessionId out : SessionId} {code : Status}
    (h : v.createSession sessionId = (code, out, v')) (mem : Memory) :
    step (.createSession sessionId) ⟨some v, mem⟩ = (.session code out, ⟨some v', mem⟩) := by
  simp only [step, guarded, h]

theorem step_importTestKey {v v' : Vault} {code : Status}
    (h : v.importKey kTestKeySlotId testImport = (code, v')) (mem : Memory) :
    step (.importKey kTestKeySlotId .aes256 kTestKey
        (KeyPermission.encrypt.toByte ||| KeyPermission.decrypt.toByte)) ⟨some v, mem⟩ =
      (.status code, ⟨some v', mem⟩) := by
  rw [testImport] at h
  simp only [step, guarded, h]

/-- **The program on a vault that accepts** a session and the test key succeeds, and
leaves the vault down. -/
theorem execute_afterWiring_of_accepts (frame : Frame) (sessionId : SessionId) {s : VaultState}
    (h : (s.vault.getD .empty).Accepts) :
    s.execute (afterWiring frame sessionId) = (.success, ⟨none, deciphered frame s.memory⟩) := by
  obtain ⟨vault, mem⟩ := s
  have hinit : step .init ⟨vault, mem⟩ = (.status .ok, ⟨some (vault.getD .empty), mem⟩) := rfl
  obtain ⟨v₁, hcreate, hsession, hkeys⟩ :=
    Vault.createSession_of_room h.1 sessionId
  obtain ⟨v₂, himport, hprepared⟩ := Vault.importKey_of_free (hkeys ▸ h.2) hsession
  generalize vault.getD .empty = v at *
  have hversion : step .getVersion ⟨some v, mem⟩ =
      (.version HsmApiImpl.kVersionString, ⟨some v, mem⟩) := rfl
  rw [afterWiring, execute_call hinit, execute_checked, if_pos (by rfl), execute_call hversion,
    execute_call (step_createSession hcreate mem), execute_checked, if_pos (by rfl),
    execute_call (step_importTestKey himport mem), execute_checked, if_pos (by rfl)]
  exact execute_afterWiring_of_prepared hprepared frame mem

/-- **On any other** it fails before it writes to the memory, and leaves the vault up. -/
theorem execute_afterWiring_of_not_accepts (frame : Frame) (sessionId : SessionId) {s : VaultState}
    (h : ¬ (s.vault.getD .empty).Accepts) :
    ∃ v, s.execute (afterWiring frame sessionId) = (.failure, ⟨some v, s.memory⟩) := by
  obtain ⟨vault, mem⟩ := s
  have hinit : step .init ⟨vault, mem⟩ = (.status .ok, ⟨some (vault.getD .empty), mem⟩) := rfl
  dsimp only at h
  generalize vault.getD .empty = v at *
  have hversion : step .getVersion ⟨some v, mem⟩ =
      (.version HsmApiImpl.kVersionString, ⟨some v, mem⟩) := rfl
  rw [afterWiring, execute_call hinit, execute_checked, if_pos (by rfl), execute_call hversion]
  by_cases hroom : v.live.card < kMaxSessions
  · -- the session that was created stays open
    have hfilled : v.keys.lookup kTestKeySlotId ≠ none := fun hfree => h ⟨hroom, hfree⟩
    obtain ⟨v₁, hcreate, -, hkeys⟩ := Vault.createSession_of_room hroom sessionId
    have himport := Vault.importKey_of_filled (hkeys ▸ hfilled)
    refine ⟨v₁, ?_⟩
    rw [execute_call (step_createSession hcreate mem), execute_checked, if_pos (by rfl),
      execute_call (step_importTestKey himport mem), execute_checked, if_neg (by decide),
      execute_pure]
  · have hcreate : v.createSession sessionId = (.errSessionInvalid, sessionId, v) :=
      dif_neg hroom
    refine ⟨v, ?_⟩
    rw [execute_call (step_createSession hcreate mem), execute_checked,
      if_neg (by simp [Answer.code]), execute_pure]

end VaultState

/-! ## The firmware -/

namespace WiredHsm

open Demo

variable {strategy : Strategy}

/-- On the buffers of the demonstration only the flag, the session and the two
permissions are left to decide. -/
theorem demo_decision (frame : Frame) (sessionId : SessionId) (hsm : WiredHsm strategy) :
    (if decision .encrypt sessionId kTestKeySlotId frame.plaintextSpan frame.ciphertextArray
        hsm = .ok then
      decision .decrypt sessionId kTestKeySlotId frame.ciphertextSpan frame.decryptedArray hsm
    else
      decision .encrypt sessionId kTestKeySlotId frame.plaintextSpan frame.ciphertextArray hsm) =
      verdict hsm.api.isReady frame.plaintextSpan frame.ciphertextArray
        (hsm.world.sessions.isSessionValid sessionId) kTestKeySlotId
        (grants hsm.world.keystore kTestKeySlotId .encrypt &&
          grants hsm.world.keystore kTestKeySlotId .decrypt) := by
  have hencrypt : ¬ BadBuffers frame.plaintextSpan frame.ciphertextArray := by
    simp [BadBuffers, Span.isEmpty_iff, Frame.plaintextSpan, Frame.ciphertextArray, bufferSize]
  have hdecrypt : ¬ BadBuffers frame.ciphertextSpan frame.decryptedArray := by
    simp [BadBuffers, Span.isEmpty_iff, Frame.ciphertextSpan, Frame.decryptedArray, bufferSize]
  have hslot : IsValidSlotId kTestKeySlotId := by decide
  simp only [decision, verdict, hencrypt, hdecrypt, hslot, not_false_eq_true, decide_true,
    firstFailing, if_true]
  generalize hsm.api.isReady = ready
  generalize hsm.world.sessions.isSessionValid sessionId = active
  generalize grants hsm.world.keystore kTestKeySlotId .encrypt = encrypts
  generalize grants hsm.world.keystore kTestKeySlotId .decrypt = decrypts
  revert ready active encrypts decrypts
  decide

theorem verdict_ne_errCryptoFailed (ready active granted : Bool) (input output : Span)
    (keySlotId : UInt8) :
    verdict ready input output active keySlotId granted ≠ .errCryptoFailed := by
  simp only [verdict, firstFailing]
  repeat' split
  all_goals decide

/-- The demonstration on a firmware that holds some vault. -/
theorem Refines.demo {hsm : WiredHsm strategy} {s : VaultState} (h : Refines hsm s)
    (frame : Frame) (sessionId : SessionId) (outcome : Status × WiredHsm strategy)
    (houtcome : outcome = WiredHsm.execute (runEncryptDecryptDemo frame sessionId) hsm) :
    outcome.1 =
        verdict hsm.api.isReady frame.plaintextSpan frame.ciphertextArray
          (hsm.world.sessions.isSessionValid sessionId) kTestKeySlotId
          (grants hsm.world.keystore kTestKeySlotId .encrypt &&
            grants hsm.world.keystore kTestKeySlotId .decrypt) ∧
      (outcome.1 = .ok → frame.Shows hsm.memory outcome.2.memory) ∧
      frame.Keeps hsm.memory outcome.2.memory ∧
      Refines outcome.2 ⟨s.vault, outcome.2.memory⟩ := by
  obtain ⟨hresult, hstate⟩ := h.execute (runEncryptDecryptDemo frame sessionId)
  obtain ⟨result, hexecute⟩ : ∃ result,
      s.execute (runEncryptDecryptDemo frame sessionId) = result := ⟨_, rfl⟩
  rw [← houtcome, hexecute] at hresult hstate
  obtain ⟨hcode, hshows, hkeeps, hvault⟩ := s.execute_demo_spec frame sessionId hexecute
  have hrequest : ∀ required input output,
      s.request required sessionId kTestKeySlotId input output =
        decision required sessionId kTestKeySlotId input output hsm := by
    intro required input output
    exact (h.decision_eq required sessionId kTestKeySlotId input output).symm
  rw [← hresult, hrequest, hrequest, demo_decision] at hcode
  rw [← hresult, ← hstate.memory, ← h.memory] at hshows
  rw [← hstate.memory, ← h.memory] at hkeeps
  refine ⟨hcode, hshows, hkeeps, ?_⟩
  rw [← hvault, hstate.memory]
  exact hstate

/--
**The demonstration never reports a mismatch.**  In every reachable state, with either
strategy and under any session id, it returns the first of these that applies: not
initialized, session invalid, authorisation failed (if the slot of the test key does
not grant both directions), success.  On success the one array shows the enciphered
text and the other the text with a zero behind it.  In every case only the two arrays
are written, and the sessions and keys stay as they are.
-/
theorem demo_never_mismatches (strategy : Strategy) (accessCount : Fin kMaxKeySlots → UInt32)
    (mem : Memory) (events : List Event) (frame : Frame) (sessionId : SessionId) :
    let hsm := (machine strategy).run events (powerOn strategy accessCount mem)
    let outcome := execute (runEncryptDecryptDemo frame sessionId) hsm
    outcome.1 =
        verdict hsm.api.isReady frame.plaintextSpan frame.ciphertextArray
          (hsm.world.sessions.isSessionValid sessionId) kTestKeySlotId
          (grants hsm.world.keystore kTestKeySlotId .encrypt &&
            grants hsm.world.keystore kTestKeySlotId .decrypt) ∧
      outcome.1 ≠ .errCryptoFailed ∧
      (outcome.1 = .ok → frame.Shows hsm.memory outcome.2.memory) ∧
      frame.Keeps hsm.memory outcome.2.memory ∧
      Refines outcome.2 ⟨(vaultAfter mem events).vault, outcome.2.memory⟩ := by
  intro hsm outcome
  obtain ⟨hcode, hshows, hkeeps, hvault⟩ :=
    (refines_run strategy accessCount mem events).demo frame sessionId outcome rfl
  refine ⟨hcode, ?_, hshows, hkeeps, hvault⟩
  rw [hcode]
  exact verdict_ne_errCryptoFailed _ _ _ _ _ _

/-! ### Starting the program anywhere -/

/-- A firmware that is down, or has room for a session and a free slot for the test
key. -/
def Ready (hsm : WiredHsm strategy) : Prop :=
  hsm.api.isReady = false ∨
    (hsm.world.sessions.live.card < kMaxSessions ∧
      (hsm.world.keystore.keySlots 0).info.isOccupied = false)

theorem Refines.ready_iff {hsm : WiredHsm strategy} {s : VaultState} (h : Refines hsm s) :
    Ready hsm ↔ (s.vault.getD .empty).Accepts := by
  have hready := h.isReady
  have hsessions := h.sessions
  have hslot : IsValidSlotId kTestKeySlotId := by decide
  have hinfo := (h.sound.represents.slot hslot).1
  have hindex : slotIndex kTestKeySlotId hslot = 0 := rfl
  rw [hindex] at hinfo
  rw [Ready, hready, hinfo, infoOf_isOccupied]
  cases hv : s.vault with
  | none =>
      refine iff_of_true (.inl rfl) ⟨?_, rfl⟩
      decide
  | some v =>
      rw [VaultState.bag, hv] at hsessions
      rw [VaultState.map, hv, hsessions.2.1, Option.getD_some, Vault.Accepts]
      have hentry : KeyMap.entry (Option.map Vault.keys (some v)) kTestKeySlotId =
          v.keys.lookup kTestKeySlotId := rfl
      rw [hentry, Option.isSome_eq_false_iff, Option.isNone_iff_eq_none]
      simp

/-- What a success leaves: the text on show in the two arrays and nothing else written,
and a firmware that is down with no session and no key. -/
structure Finished (frame : Frame) (mem : Memory) (hsm : WiredHsm strategy) : Prop where
  shows_text : frame.Shows mem hsm.memory
  keeps : frame.Keeps mem hsm.memory
  down : hsm.api.isReady = false
  sessions : hsm.world.sessions.live = 0
  keys : ∀ i, (hsm.world.keystore.keySlots i).key = {}

theorem Refines.finished {frame : Frame} {mem : Memory} {hsm : WiredHsm strategy}
    (h : Refines hsm ⟨none, deciphered frame mem⟩) : Finished frame mem hsm := by
  have hmemory : hsm.memory = deciphered frame mem := h.memory
  constructor
  · rw [hmemory]
    exact deciphered_shows frame mem
  · rw [hmemory]
    exact deciphered_keeps frame mem
  · exact h.isReady
  · exact h.sessions.2
  · intro i
    obtain ⟨slotId, hslot, rfl⟩ := KeystoreService.exists_slotIndex i
    exact (h.sound.represents.2 slotId hslot).2

/-- The part after the composition root, on a firmware that holds some vault. -/
theorem Refines.afterWiring {hsm : WiredHsm strategy} {s : VaultState} (h : Refines hsm s)
    (frame : Frame) (sessionId : SessionId) (outcome : ExitCode × WiredHsm strategy)
    (houtcome : outcome = WiredHsm.execute (Demo.afterWiring frame sessionId) hsm) :
    (outcome.1 = .success ↔ Ready hsm) ∧
      (outcome.1 = .success → Finished frame hsm.memory outcome.2) ∧
      (outcome.1 = .failure → outcome.2.memory = hsm.memory ∧ outcome.2.api.isReady = true) := by
  obtain ⟨hresult, hstate⟩ := h.execute (Demo.afterWiring frame sessionId)
  rw [← houtcome] at hresult hstate
  rw [h.ready_iff, h.memory]
  by_cases haccepts : (s.vault.getD .empty).Accepts
  · have hmain := VaultState.execute_afterWiring_of_accepts frame sessionId haccepts
    rw [hmain] at hresult hstate
    refine ⟨iff_of_true hresult haccepts, fun _ => hstate.finished, fun hfailed => ?_⟩
    rw [hresult] at hfailed
    cases hfailed
  · obtain ⟨v, hmain⟩ := VaultState.execute_afterWiring_of_not_accepts frame sessionId haccepts
    rw [hmain] at hresult hstate
    have hfailed : outcome.1 ≠ .success := by
      rw [hresult]
      simp
    exact ⟨iff_of_false hfailed haccepts, fun hok => absurd hok hfailed,
      fun _ => ⟨hstate.memory, hstate.isReady⟩⟩

/--
**The program succeeds.**  Whatever the memory, the access counters and the
uninitialised variable hold when it starts, `main` succeeds; it leaves the text on show
in its two arrays, writes nothing else, and leaves the firmware down with no session
and no key byte in any slot.

Its part after the composition root, on any firmware in any reachable state, succeeds
exactly when the firmware is down or has room for one more session and no key in the
slot of the test key, and then leaves the same.  Otherwise it writes no byte of memory
and leaves the firmware up.
-/
theorem main_exit (accessCount : Fin kMaxKeySlots → UInt32) (mem : Memory) (frame : Frame)
    (sessionId : SessionId) :
    ((main accessCount mem frame sessionId).1 = .success ∧
        Finished frame mem (main accessCount mem frame sessionId).2) ∧
      ∀ (strategy : Strategy) (events : List Event),
        let hsm := (machine strategy).run events (powerOn strategy accessCount mem)
        let outcome := execute (Demo.afterWiring frame sessionId) hsm
        (outcome.1 = .success ↔ Ready hsm) ∧
          (outcome.1 = .success → Finished frame hsm.memory outcome.2) ∧
          (outcome.1 = .failure →
            outcome.2.memory = hsm.memory ∧ outcome.2.api.isReady = true) := by
  constructor
  · obtain ⟨hexit, hleaves, -⟩ :=
      (refines_start .aes256 accessCount mem).afterWiring frame sessionId
        (main accessCount mem frame sessionId) rfl
    -- a firmware that has just been wired is down
    have hready : Ready (powerOn .aes256 accessCount mem) := .inl rfl
    have hok := hexit.mpr hready
    exact ⟨hok, hleaves hok⟩
  · intro strategy events hsm outcome
    exact (refines_run strategy accessCount mem events).afterWiring frame sessionId outcome rfl

end WiredHsm

end Ehsm
