import Ehsm.Types
import Ehsm.Reactive.Machine

/-!
# The session manager

`SessionManager` of `src/middleware/session_manager.cpp`: a table of
`kMaxSessions` entries, a counter for the next id, and an initialisation flag.
The two loops over the table that stop at the first suitable entry are
`updateFirst`.  Each operation returns its status, its out-parameter if it has
one, and the manager it leaves.
-/

namespace Ehsm

open Reactive

/-- One table entry; the field defaults are those of the source. -/
structure Session where
  id : SessionId := kInvalidSessionId
  isActive : Bool := false
  jobCount : UInt32 := 0
  deriving DecidableEq, Repr

/-- The manager.  The table is a `std::array`, so its length is part of it. -/
structure SessionManager where
  sessions : List Session
  sessions_length : sessions.length = kMaxSessions
  isInitialized : Bool
  nextSessionId : SessionId
  deriving DecidableEq

namespace SessionManager

/-- A constructed manager. -/
def construct : SessionManager where
  sessions := List.replicate kMaxSessions {}
  sessions_length := List.length_replicate
  isInitialized := false
  nextSessionId := 1

/-- The reset loop of `init` and `deinit`. -/
def resetSessions (sm : SessionManager) : SessionManager where
  sessions := sm.sessions.map fun session =>
    { session with id := kInvalidSessionId, isActive := false, jobCount := 0 }
  sessions_length := by rw [List.length_map, sm.sessions_length]
  isInitialized := sm.isInitialized
  nextSessionId := sm.nextSessionId

def init (sm : SessionManager) : Status × SessionManager :=
  if sm.isInitialized then (.ok, sm)
  else (.ok, { sm.resetSessions with nextSessionId := 1, isInitialized := true })

def deinit (sm : SessionManager) : Status × SessionManager :=
  if !sm.isInitialized then (.errNotInitialized, sm)
  else (.ok, { sm.resetSessions with isInitialized := false })

/-- The counter after an id was taken from it: it skips `kInvalidSessionId`. -/
def advance (nextSessionId : SessionId) : SessionId :=
  let nextSessionId := nextSessionId + 1
  if nextSessionId = kInvalidSessionId then 1 else nextSessionId

/-- The entry `createSession` writes over the first inactive one. -/
def openEntry (sm : SessionManager) (session : Session) : Session :=
  { session with id := sm.nextSessionId, isActive := true, jobCount := 0 }

def createSession (sessionId : SessionId) (sm : SessionManager) :
    Status × SessionId × SessionManager :=
  if !sm.isInitialized then (.errNotInitialized, sessionId, sm)
  else
    match h : updateFirst (fun session => !session.isActive) sm.openEntry sm.sessions with
    | some sessions =>
        (.ok, sm.nextSessionId,
          { sm with
            sessions := sessions
            sessions_length := by rw [length_updateFirst h, sm.sessions_length]
            nextSessionId := advance sm.nextSessionId })
    | none => (.errSessionInvalid, sessionId, sm)

/-- The entry `closeSession` writes over the first active one with the id. -/
def closeEntry (session : Session) : Session :=
  { session with isActive := false, id := kInvalidSessionId }

/-- The test `closeSession` and `isSessionValid` make on an entry. -/
def holds (sessionId : SessionId) (session : Session) : Bool :=
  session.id == sessionId && session.isActive

def closeSession (sessionId : SessionId) (sm : SessionManager) : Status × SessionManager :=
  if !sm.isInitialized then (.errNotInitialized, sm)
  else
    match h : updateFirst (holds sessionId) closeEntry sm.sessions with
    | some sessions =>
        (.ok,
          { sm with
            sessions := sessions
            sessions_length := by rw [length_updateFirst h, sm.sessions_length] })
    | none => (.errSessionInvalid, sm)

def isSessionValid (sessionId : SessionId) (sm : SessionManager) : Bool :=
  if !sm.isInitialized then false
  else sm.sessions.any (holds sessionId)

/-! ## What each operation does

One lemma per operation.  The two searches are resolved into the entries before
the one they stop at, that entry, and the entries after it.
-/

theorem init_of_initialized (sm : SessionManager) (h : sm.isInitialized = true) :
    sm.init = (.ok, sm) := by
  simp [init, h]

theorem init_of_not_initialized (sm : SessionManager) (h : sm.isInitialized = false) :
    sm.init = (.ok, { sm.resetSessions with nextSessionId := 1, isInitialized := true }) := by
  simp [init, h]

theorem deinit_of_not_initialized (sm : SessionManager) (h : sm.isInitialized = false) :
    sm.deinit = (.errNotInitialized, sm) := by
  simp [deinit, h]

theorem deinit_of_initialized (sm : SessionManager) (h : sm.isInitialized = true) :
    sm.deinit = (.ok, { sm.resetSessions with isInitialized := false }) := by
  simp [deinit, h]

/-- No entry is active after the reset loop. -/
theorem resetSessions_inactive (sm : SessionManager) :
    ∀ session ∈ sm.resetSessions.sessions, session.isActive = false := by
  intro session hsession
  obtain ⟨old, -, rfl⟩ := List.mem_map.mp hsession
  rfl

theorem createSession_of_not_initialized (sm : SessionManager) (sessionId : SessionId)
    (h : sm.isInitialized = false) :
    sm.createSession sessionId = (.errNotInitialized, sessionId, sm) := by
  simp [createSession, h]

/-- On an initialised manager `createSession` either finds every entry active
and changes nothing, or opens the first inactive entry. -/
theorem createSession_cases (sm : SessionManager) (sessionId : SessionId)
    (h : sm.isInitialized = true) :
    ((∀ session ∈ sm.sessions, session.isActive = true) ∧
        sm.createSession sessionId = (.errSessionInvalid, sessionId, sm)) ∨
      ∃ pre session post sm', sm.sessions = pre ++ session :: post ∧
        session.isActive = false ∧
        sm.createSession sessionId = (.ok, sm.nextSessionId, sm') ∧
        sm'.sessions = pre ++ sm.openEntry session :: post ∧
        sm'.isInitialized = true ∧ sm'.nextSessionId = advance sm.nextSessionId := by
  unfold createSession
  rw [if_neg (by simp [h])]
  split
  · next sessions hfound =>
      right
      obtain ⟨pre, session, post, htable, -, hinactive, rfl⟩ :=
        updateFirst_eq_some_iff.mp hfound
      exact ⟨pre, session, post, _, htable, by simpa using hinactive, rfl, rfl, h, rfl⟩
  · next hfull =>
      left
      have hall := updateFirst_eq_none_iff.mp hfull
      exact ⟨fun session hsession => by simpa using hall session hsession, rfl⟩

theorem holds_iff {sessionId : SessionId} {session : Session} :
    holds sessionId session = true ↔ session.id = sessionId ∧ session.isActive = true := by
  simp [holds]

theorem closeSession_of_not_initialized (sm : SessionManager) (sessionId : SessionId)
    (h : sm.isInitialized = false) :
    sm.closeSession sessionId = (.errNotInitialized, sm) := by
  simp [closeSession, h]

/-- On an initialised manager `closeSession` either finds no active entry with
the id and changes nothing, or closes the first one. -/
theorem closeSession_cases (sm : SessionManager) (sessionId : SessionId)
    (h : sm.isInitialized = true) :
    ((∀ session ∈ sm.sessions, holds sessionId session = false) ∧
        sm.closeSession sessionId = (.errSessionInvalid, sm)) ∨
      ∃ pre session post sm', sm.sessions = pre ++ session :: post ∧
        session.id = sessionId ∧ session.isActive = true ∧
        sm.closeSession sessionId = (.ok, sm') ∧
        sm'.sessions = pre ++ closeEntry session :: post ∧
        sm'.isInitialized = true ∧ sm'.nextSessionId = sm.nextSessionId := by
  unfold closeSession
  rw [if_neg (by simp [h])]
  split
  · next sessions hfound =>
      right
      obtain ⟨pre, session, post, htable, -, hholds, rfl⟩ :=
        updateFirst_eq_some_iff.mp hfound
      obtain ⟨hid, hactive⟩ := holds_iff.mp hholds
      exact ⟨pre, session, post, _, htable, hid, hactive, rfl, rfl, h, rfl⟩
  · next habsent =>
      left
      exact ⟨updateFirst_eq_none_iff.mp habsent, rfl⟩

/-- A session id is valid exactly when the manager is initialised and some
active entry has it. -/
theorem isSessionValid_iff (sm : SessionManager) (sessionId : SessionId) :
    sm.isSessionValid sessionId = true ↔
      sm.isInitialized = true ∧
        ∃ session ∈ sm.sessions, session.id = sessionId ∧ session.isActive = true := by
  unfold isSessionValid
  cases h : sm.isInitialized with
  | false => simp
  | true => simp [List.any_eq_true, holds_iff]

/-- Writing an entry that neither had nor gets an active id leaves the validity of
that id alone. -/
theorem isSessionValid_of_entry {sm sm' : SessionManager} {sessionId : SessionId}
    {pre post : List Session} {session session' : Session}
    (htable : sm.sessions = pre ++ session :: post)
    (htable' : sm'.sessions = pre ++ session' :: post)
    (hflag : sm'.isInitialized = sm.isInitialized) (hold : holds sessionId session = false)
    (hnew : holds sessionId session' = false) :
    sm'.isSessionValid sessionId = sm.isSessionValid sessionId := by
  rw [isSessionValid, isSessionValid, hflag, htable, htable']
  simp [hold, hnew]

/-- Opening a session leaves the validity of every other id alone. -/
theorem isSessionValid_createSession (sm : SessionManager) (out : SessionId)
    {sessionId : SessionId}
    (hne : (sm.createSession out).1 = .ok → (sm.createSession out).2.1 ≠ sessionId) :
    (sm.createSession out).2.2.isSessionValid sessionId = sm.isSessionValid sessionId := by
  cases hinit : sm.isInitialized with
  | false => rw [sm.createSession_of_not_initialized out hinit]
  | true =>
      rcases sm.createSession_cases out hinit with
        ⟨-, hres⟩ | ⟨pre, session, post, sm', htable, hinactive, hres, htable', hinit', -⟩
      · rw [hres]
      · rw [hres] at hne ⊢
        have hother : sm.nextSessionId ≠ sessionId := hne rfl
        apply isSessionValid_of_entry htable htable' (hinit'.trans hinit.symm)
        · simp [holds, hinactive]
        · simp [holds, openEntry, hother]

/-- Closing a session leaves the validity of every other id alone. -/
theorem isSessionValid_closeSession (sm : SessionManager) {closed sessionId : SessionId}
    (hne : closed ≠ sessionId) :
    (sm.closeSession closed).2.isSessionValid sessionId = sm.isSessionValid sessionId := by
  cases hinit : sm.isInitialized with
  | false => rw [sm.closeSession_of_not_initialized closed hinit]
  | true =>
      rcases sm.closeSession_cases closed hinit with
        ⟨-, hres⟩ | ⟨pre, session, post, sm', htable, hid, -, hres, htable', hinit', -⟩
      · rw [hres]
      · rw [hres]
        apply isSessionValid_of_entry htable htable' (hinit'.trans hinit.symm)
        · simp [holds, hid, hne]
        · simp [holds, closeEntry]

/-! ## The manager as a machine -/

/-- The calls of `ISessionManager`.  `createSession` carries the value its
out-parameter has before the call. -/
inductive Op where
  | init
  | deinit
  | createSession (sessionId : SessionId)
  | closeSession (sessionId : SessionId)
  | isSessionValid (sessionId : SessionId)
  deriving DecidableEq, Repr

/-- What a call answers: a status, a status with the out-parameter, or a truth
value. -/
inductive Reply where
  | status (status : Status)
  | session (status : Status) (sessionId : SessionId)
  | valid (answer : Bool)
  deriving DecidableEq, Repr

def step : Op → SessionManager → Reply × SessionManager
  | .init, sm => (.status sm.init.1, sm.init.2)
  | .deinit, sm => (.status sm.deinit.1, sm.deinit.2)
  | .createSession sessionId, sm =>
      (.session (sm.createSession sessionId).1 (sm.createSession sessionId).2.1,
        (sm.createSession sessionId).2.2)
  | .closeSession sessionId, sm =>
      (.status (sm.closeSession sessionId).1, (sm.closeSession sessionId).2)
  | .isSessionValid sessionId, sm => (.valid (sm.isSessionValid sessionId), sm)

def machine : Machine SessionManager Op Reply := ⟨step⟩

/-- Only `init` and `deinit` move the flag. -/
theorem isInitialized_next (op : Op) (sm : SessionManager) :
    (machine.next op sm).isInitialized =
      match op with
      | .init => true
      | .deinit => false
      | _ => sm.isInitialized := by
  simp only [machine, Machine.next]
  cases op with
  | init => cases h : sm.isInitialized <;> simp [step, init, h]
  | deinit => cases h : sm.isInitialized <;> simp [step, deinit, h]
  | isSessionValid sessionId => rfl
  | createSession sessionId =>
      cases h : sm.isInitialized with
      | false =>
          simp only [step, createSession_of_not_initialized sm sessionId h]
          exact h
      | true =>
          simp only [step]
          rcases sm.createSession_cases sessionId h with
            ⟨-, hres⟩ | ⟨_, _, _, sm', _, _, hres, _, hflag, _⟩
          · rw [hres]
            exact h
          · rw [hres]
            exact hflag
  | closeSession sessionId =>
      cases h : sm.isInitialized with
      | false =>
          simp only [step, closeSession_of_not_initialized sm sessionId h]
          exact h
      | true =>
          simp only [step]
          rcases sm.closeSession_cases sessionId h with
            ⟨-, hres⟩ | ⟨_, _, _, sm', _, _, _, hres, _, hflag, _⟩
          · rw [hres]
            exact h
          · rw [hres]
            exact hflag

end SessionManager

end Ehsm
