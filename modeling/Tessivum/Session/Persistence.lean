/-
Tessivum.Session.Persistence — the storage contract behind sessions and its
in-memory implementation (`SessionPersistence` and `MemorySessionPersistence`
of `src/session.rs`).

A backend is a state with the operations of the trait. The mutating operations
answer and give the next state, so that a failure may, in principle, leave
something behind; `Persistence.Lawful` says what the trait's documentation asks
for: an append that succeeds commits exactly the event, and one that fails
leaves every committed log as it was.

A cancellation token is the sequence of answers its successive reads get.
-/
import Tessivum.Session.Log

namespace Tessivum.Session

open Library Protocol

/-! ## Cancellation -/

/-- The answers of `is_cancelled` at the successive reads of a token. -/
def Cancellation : Type := Nat → Bool

def Cancellation.never : Cancellation := fun _ => false

/-- The token as a callee sees it after `n` reads by its caller. -/
def Cancellation.after (token : Cancellation) (n : Nat) : Cancellation := fun k => token (n + k)

@[simp] theorem Cancellation.never_after (n : Nat) :
    Cancellation.never.after n = Cancellation.never := rfl

/-- `check_cancellation`, at the `n`-th read. -/
def checkCancellation (token : Cancellation) (n : Nat) : Except SessionError Unit :=
  failIf (token n = true) .cancelled

@[simp] theorem checkCancellation_never (n : Nat) :
    checkCancellation .never n = .ok () := rfl

/-! ## The contract -/

/-- Persistent session metadata. The source's `flush_count` is left out:
no modelled operation flushes. -/
structure SessionInspection where
  header : SessionHeader
  eventCount : Nat
  nextSeq : Nat
  deriving DecidableEq, Repr

/-- The operations of `SessionPersistence` that the modelled code uses. -/
structure Persistence (σ : Type) where
  create : σ → SessionHeader → Cancellation → Except SessionError Unit × σ
  createSeeded : σ → SessionHeader → List SessionEvent → Cancellation →
    Except SessionError Unit × σ
  append : σ → SessionId → SessionEvent → Cancellation → Except SessionError Unit × σ
  load : σ → SessionId → Cancellation → Except SessionError (Option SessionHeader)
  inspect : σ → SessionId → Cancellation → Except SessionError (Option SessionInspection)
  readFrom : σ → SessionId → Nat → Cancellation → Except SessionError (List SessionEvent)
  delete : σ → SessionId → Cancellation → Except SessionError Unit × σ

namespace Persistence

variable {σ : Type}

/-- The committed log of one session: what a complete read returns. -/
def committed (P : Persistence σ) (disk : σ) (id : SessionId) : Option (List SessionEvent) :=
  (P.readFrom disk id 0 .never).toOption

/-- Mutations commit exactly what they are given, or nothing, and an
append leaves every header as it was created. -/
structure Lawful (P : Persistence σ) : Prop where
  create_ok : ∀ {disk header token disk'},
    P.create disk header token = (.ok (), disk') →
      P.committed disk' header.id = some [] ∧ P.load disk' header.id .never = .ok (some header)
  createSeeded_ok : ∀ {disk header events token disk'},
    P.createSeeded disk header events token = (.ok (), disk') →
      P.committed disk' header.id = some events
        ∧ P.load disk' header.id .never = .ok (some header)
  append_ok : ∀ {disk id e token disk'}, P.append disk id e token = (.ok (), disk') →
    ∃ log, P.committed disk id = some log ∧ P.committed disk' id = some (log ++ [e])
  append_error : ∀ {disk id e token err disk'},
    P.append disk id e token = (.error err, disk') →
      ∀ other, P.committed disk' other = P.committed disk other
  append_load : ∀ {disk id e token result disk'},
    P.append disk id e token = (result, disk') →
      ∀ other, P.load disk' other .never = P.load disk other .never

end Persistence

/-- A mutation that either gives the next state or leaves the state as
it was. -/
def orUnchanged {σ : Type} (s : σ) : Except SessionError σ → Except SessionError Unit × σ
  | .ok s' => (.ok (), s')
  | .error e => (.error e, s)

variable {σ : Type} {s s' : σ} {x : Except SessionError σ}

@[simp] theorem orUnchanged_eq_ok : orUnchanged s x = (.ok (), s') ↔ x = .ok s' := by
  cases x <;> simp [orUnchanged]

theorem orUnchanged_eq_error {err : SessionError} (h : orUnchanged s x = (.error err, s')) :
    s' = s := by
  cases x with
  | ok _ => simp [orUnchanged] at h
  | error _ => simp only [orUnchanged, Prod.mk.injEq] at h; exact h.2.symm

/-! ## Memory -/

/-- One session held in memory. -/
structure MemorySession where
  header : SessionHeader
  events : List SessionEvent
  deriving DecidableEq, Repr

/-- The session map of `MemorySessionPersistence`. -/
abbrev MemoryState : Type := SessionId → Option MemorySession

namespace Memory

def empty : MemoryState := fun _ => none

variable (sessions : MemoryState)

def insert (id : SessionId) (session : MemorySession) : MemoryState :=
  Function.update sessions id (some session)

def create (header : SessionHeader) (token : Cancellation) : Except SessionError MemoryState := do
  checkCancellation token 0
  validateHeader header
  failIf (sessions header.id).isSome (.alreadyExists header.id)
  .ok (insert sessions header.id { header, events := [] })

/-- The loop over a seed prefix: every event valid, numbered from
`expected` on. -/
def checkSeed (S : Serde) : Nat → List SessionEvent → Except SessionError Unit
  | _, [] => .ok ()
  | expected, e :: rest => do
    liftProtocol (e.validate S)
    failIf (e.seq ≠ expected) (.sequenceGap expected e.seq)
    checkSeed S (expected + 1) rest

def createSeeded (S : Serde) (sessions : MemoryState) (header : SessionHeader)
    (events : List SessionEvent) (token : Cancellation) : Except SessionError MemoryState := do
  checkCancellation token 0
  validateHeader header
  checkSeed S 0 events
  failIf (sessions header.id).isSome (.alreadyExists header.id)
  checkCancellation token 1
  .ok (insert sessions header.id { header, events })

def append (S : Serde) (sessions : MemoryState) (id : SessionId) (e : SessionEvent)
    (token : Cancellation) : Except SessionError MemoryState := do
  checkCancellation token 0
  liftProtocol (e.validate S)
  match sessions id with
  | none => .error (.notFound id)
  | some session =>
    checkSeq session.events e
    .ok (insert sessions id { session with events := session.events ++ [e] })

def load (id : SessionId) (token : Cancellation) : Except SessionError (Option SessionHeader) := do
  checkCancellation token 0
  .ok ((sessions id).map MemorySession.header)

def inspectMemorySession (session : MemorySession) : Except SessionError SessionInspection := do
  let next ← nextSeq session.events
  .ok { header := session.header, eventCount := session.events.length, nextSeq := next }

def inspect (id : SessionId) (token : Cancellation) :
    Except SessionError (Option SessionInspection) := do
  checkCancellation token 0
  match sessions id with
  | none => .ok none
  | some session => do
    let inspection ← inspectMemorySession session
    .ok (some inspection)

def readFrom (id : SessionId) (fromSeq : Nat) (token : Cancellation) :
    Except SessionError (List SessionEvent) := do
  checkCancellation token 0
  match sessions id with
  | none => .error (.notFound id)
  | some session => .ok (session.events.filter fun e => fromSeq ≤ e.seq)

def delete (id : SessionId) (token : Cancellation) : Except SessionError MemoryState := do
  checkCancellation token 0
  failIf (sessions id).isNone (.notFound id)
  .ok (Function.update sessions id none)

end Memory

/-- `MemorySessionPersistence`. -/
def memoryPersistence (S : Serde) : Persistence MemoryState where
  create sessions header token := orUnchanged sessions (Memory.create sessions header token)
  createSeeded sessions header events token :=
    orUnchanged sessions (Memory.createSeeded S sessions header events token)
  append sessions id e token := orUnchanged sessions (Memory.append S sessions id e token)
  load := Memory.load
  inspect := Memory.inspect
  readFrom := Memory.readFrom
  delete sessions id token := orUnchanged sessions (Memory.delete sessions id token)

/-! ## The memory backend is lawful -/

namespace Memory

variable {header : SessionHeader} {token : Cancellation} {sessions sessions' : MemoryState}
  {S : Serde} {id : SessionId}

theorem create_eq_ok (h : create sessions header token = .ok sessions') :
    sessions' = insert sessions header.id { header, events := [] } := by
  simp only [create, check_bind_eq_ok] at h
  obtain ⟨_, _, _, h⟩ := h
  exact (ok.inj h).symm

theorem createSeeded_eq_ok {events : List SessionEvent}
    (h : createSeeded S sessions header events token = .ok sessions') :
    sessions' = insert sessions header.id { header, events } := by
  simp only [createSeeded, check_bind_eq_ok] at h
  obtain ⟨_, _, _, _, _, h⟩ := h
  exact (ok.inj h).symm

theorem append_eq_ok {e : SessionEvent} (h : append S sessions id e token = .ok sessions') :
    ∃ session, sessions id = some session ∧ checkSeq session.events e = .ok ()
      ∧ sessions' = insert sessions id { session with events := session.events ++ [e] } := by
  simp only [append, check_bind_eq_ok] at h
  obtain ⟨_, _, h⟩ := h
  cases hs : sessions id with
  | none => rw [hs] at h; cases h
  | some session =>
    rw [hs] at h
    simp only [check_bind_eq_ok] at h
    exact ⟨session, rfl, h.1, (ok.inj h.2).symm⟩

@[simp] theorem readFrom_zero (sessions : MemoryState) (id : SessionId) :
    readFrom sessions id 0 .never
      = match sessions id with
        | none => .error (.notFound id)
        | some session => .ok session.events := by
  cases h : sessions id <;> simp [readFrom, h]

@[simp] theorem committed_eq (S : Serde) (sessions : MemoryState) (id : SessionId) :
    (memoryPersistence S).committed sessions id = (sessions id).map MemorySession.events := by
  show (readFrom sessions id 0 .never).toOption = _
  rw [readFrom_zero]
  cases sessions id <;> rfl

@[simp] theorem insert_self (sessions : MemoryState) (id : SessionId) (session : MemorySession) :
    insert sessions id session id = some session :=
  update_self _ _ _

theorem insert_of_ne (sessions : MemoryState) {other : SessionId} (h : other ≠ id)
    {session : MemorySession} : insert sessions id session other = sessions other :=
  update_of_ne h _ _

theorem load_never (S : Serde) (sessions : MemoryState) (id : SessionId) :
    (memoryPersistence S).load sessions id .never
      = .ok ((sessions id).map MemorySession.header) := rfl

end Memory

/-- The memory backend is lawful. -/
theorem memoryPersistence_lawful (S : Serde) : (memoryPersistence S).Lawful where
  create_ok h := by
    have hs := Memory.create_eq_ok (orUnchanged_eq_ok.mp h)
    refine ⟨?_, ?_⟩
    · rw [Memory.committed_eq, hs, Memory.insert_self]
      rfl
    · rw [Memory.load_never, hs, Memory.insert_self]
      rfl
  createSeeded_ok h := by
    have hs := Memory.createSeeded_eq_ok (orUnchanged_eq_ok.mp h)
    refine ⟨?_, ?_⟩
    · rw [Memory.committed_eq, hs, Memory.insert_self]
      rfl
    · rw [Memory.load_never, hs, Memory.insert_self]
      rfl
  append_ok h := by
    obtain ⟨session, hget, _, hs⟩ := Memory.append_eq_ok (orUnchanged_eq_ok.mp h)
    refine ⟨session.events, ?_, ?_⟩
    · rw [Memory.committed_eq, hget]
      rfl
    · rw [Memory.committed_eq, hs, Memory.insert_self]
      rfl
  append_error h other := by
    have hs := orUnchanged_eq_error h
    rw [hs]
  append_load {disk id e token result disk'} h other := by
    cases result with
    | error err =>
      have hs := orUnchanged_eq_error h
      rw [hs]
    | ok u =>
      obtain ⟨_, hget, _, hs⟩ := Memory.append_eq_ok (orUnchanged_eq_ok.mp h)
      rw [Memory.load_never, Memory.load_never, hs]
      by_cases hid : other = id
      · rw [hid, Memory.insert_self, hget]
        rfl
      · rw [Memory.insert_of_ne disk hid]

end Tessivum.Session
