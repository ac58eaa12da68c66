/-
Tessivum.Session.State — the derived state of a session and the checks
one event passes before it is admitted (`src/session.rs`).

A session is an append-only log. From the log it derives the SURFACE,
the list of model-visible messages with the sequence number and the
citations of the event that produced each. An event of one of the three
surface types either appends its message or replaces a half-open range
of surface positions by it.

Each check of the source is its own function here, under the source's
name, so that the two admission paths (`append_under_gate` in
`Tessivum.Session.Store`, `build_state` in `Tessivum.Session.Log`) can be
written with the source's own order of checks.

`usize` is taken to be 64 bits wide, so `usize::try_from` of a `u64`
always succeeds.
-/
import Tessivum.Protocol.Event

namespace Tessivum.Session

open Library Protocol

/-- Failures at the session and persistence boundary. -/
inductive SessionError where
  | protocol (error : TessivumError)
  | cancelled
  | notFound (id : SessionId)
  | duplicateLive (id : SessionId)
  | alreadyExists (id : SessionId)
  | sequenceGap (expected actual : Nat)
  | sequenceExhausted
  | headerIdMismatch
  | emptySessionId
  | invalidSeedLength (seedLength eventCount : Nat)
  | invalidSeedBoundary
  | duplicateSeedBoundary
  | staleSurface (expected actual : List Nat)
  | surfaceRange (start stop len : Nat)
  | missingSourceEvent (sourceSeq : Nat)
  | invalidSurfaceMessage
  | invalidSurfaceRole
  | invalidTurnId
  | invalidTurnLifecycle
  | orphanTurn
  | seedRequiresEvents
  | invalidInboxEvent (reason : String)
  | inboxMutationOutOfOrder (itemId : MessageId)
  | rawArtifactsUnsupported
  | deleteUnsupported
  deriving DecidableEq, Repr

/-- `SessionError::to_string`. -/
def SessionError.display : SessionError → String
  | .protocol error => error.display
  | .cancelled => "session operation was cancelled"
  | .notFound id => "session does not exist: " ++ id.asStr
  | .duplicateLive id => "session is already live: " ++ id.asStr
  | .alreadyExists id => "session already exists: " ++ id.asStr
  | .sequenceGap expected actual => "event sequence is not contiguous: expected "
      ++ toString expected ++ ", got " ++ toString actual
  | .sequenceExhausted => "session event sequence space is exhausted"
  | .headerIdMismatch => "session header identity does not match the requested session"
  | .emptySessionId => "session id must not be empty"
  | .invalidSeedLength seedLength eventCount => "seed length " ++ toString seedLength
      ++ " exceeds " ++ toString eventCount ++ " committed events"
  | .invalidSeedBoundary => "session/end-seed does not match the declared seed boundary"
  | .duplicateSeedBoundary => "session has more than one seed boundary"
  | .staleSurface _ _ => "surface changed before conditional append"
  | .surfaceRange start stop len => "surface replacement range [" ++ toString start ++ ", "
      ++ toString stop ++ ") is outside a surface of length " ++ toString len
  | .missingSourceEvent sourceSeq => "surface source event sequence " ++ toString sourceSeq
      ++ " is not committed"
  | .invalidSurfaceMessage => "surface event payload does not contain a valid message"
  | .invalidSurfaceRole => "surface event role does not match its event type"
  | .invalidTurnId => "turn lifecycle event is missing a numeric turn id"
  | .invalidTurnLifecycle => "turn lifecycle is inconsistent"
  | .orphanTurn => "a live restoration cannot resume an orphaned turn"
  | .seedRequiresEvents => "a non-empty seed must be created through create_seeded"
  | .invalidInboxEvent reason => "invalid durable inbox event: " ++ reason
  | .inboxMutationOutOfOrder itemId => "durable inbox mutation is out of order for message "
      ++ itemId.asStr
  | .rawArtifactsUnsupported =>
    "this persistence backend does not expose per-session raw artifacts"
  | .deleteUnsupported => "this persistence backend does not support session deletion"

/-- A protocol failure crossing into the session boundary (`#[from]`). -/
def liftProtocol {α : Type} : Except TessivumError α → Except SessionError α
  | .ok a => .ok a
  | .error e => .error (.protocol e)

@[simp] theorem liftProtocol_eq_ok {α : Type} {x : Except TessivumError α} {a : α} :
    liftProtocol x = .ok a ↔ x = .ok a := by
  cases x <;> simp [liftProtocol]

/-- One derived, model-visible message with its durable provenance. -/
structure SurfaceMessage where
  eventSeq : Nat
  message : Message
  sourceEventSeqs : Option (List Nat)
  deriving DecidableEq, Repr

/-- The derived state of one session log. -/
structure SessionState where
  events : List SessionEvent
  surface : List SurfaceMessage
  seedLength : Nat
  endSeedSeen : Bool
  deriving DecidableEq, Repr

/-! ## Header and sequence checks -/

def validateHeader (header : SessionHeader) : Except SessionError Unit := do
  liftProtocol header.validate
  failIf header.id.asStr.isEmpty .emptySessionId

/-- `next_seq`: one past the last event, if a `u64` holds it. -/
def nextSeq (events : List SessionEvent) : Except SessionError Nat :=
  match events.getLast? with
  | none => .ok 0
  | some e => if e.seq + 1 < u64Bound then .ok (e.seq + 1) else .error .sequenceExhausted

def checkSeq (events : List SessionEvent) (e : SessionEvent) : Except SessionError Unit := do
  let expected ← nextSeq events
  failIf (e.seq ≠ expected) (.sequenceGap expected e.seq)

def validateSeedBoundary (header : SessionHeader) (state : SessionState) (e : SessionEvent) :
    Except SessionError Unit :=
  if e.eventType ≠ "session/end-seed" then .ok ()
  else do
    failIf state.endSeedSeen .duplicateSeedBoundary
    failIf (state.events.length ≠ state.seedLength ∨ header.seedLength.isNone)
      .invalidSeedBoundary

def validateSource (prior : List SessionEvent) (source : Nat) : Except SessionError Unit :=
  failIf (!prior.any fun p => p.seq == source) (.missingSourceEvent source)

variable (e : SessionEvent)

def validateSources (prior : List SessionEvent) : Except SessionError Unit :=
  match e.sourceEventSeqs with
  | none => .ok ()
  | some sources => forAllOk (validateSource prior) sources

/-! ## Surface -/

def expectedRole (eventType : String) : Option MessageRole :=
  if eventType = "user/message" then some .user
  else if eventType = "assistant/message" then some .assistant
  else if eventType = "tool/result" then some .user
  else none

/-- Where a surface event keeps its message: the payload itself for
`user/message`, the payload's `message` field otherwise. -/
def surfaceData : Except SessionError Value :=
  if e.eventType = "user/message" then .ok e.data
  else match e.data.get "message" with
    | some v => .ok v
    | none => .error .invalidSurfaceMessage

/-- Deserialise and validate a message, reporting `err` on failure. -/
def decodeMessage (S : Serde) (v : Value) (err : SessionError) : Except SessionError Message :=
  match S.messageFromValue v with
  | none => .error err
  | some m =>
    match m.validate with
    | .ok () => .ok m
    | .error _ => .error err

def decodeSurfaceEvent (S : Serde) (e : SessionEvent) :
    Except SessionError (Option SurfaceMessage) :=
  match expectedRole e.eventType with
  | none => .ok none
  | some role => do
    let data ← surfaceData e
    let message ← decodeMessage S data .invalidSurfaceMessage
    failIf (message.role ≠ role) .invalidSurfaceRole
    .ok (some { eventSeq := e.seq, message, sourceEventSeqs := e.sourceEventSeqs })

def validateSurfaceOperation (projection : Option SurfaceMessage) (surface : List SurfaceMessage) :
    Except SessionError Unit :=
  match projection with
  | none => .ok ()
  | some _ =>
    match e.surfaceOp with
    | some .append => .ok ()
    | some (.replace start stop) =>
      failIf (start > stop ∨ stop > surface.length)
        (.surfaceRange start stop surface.length)
    | none => .error .invalidSurfaceMessage

/-- `Vec::splice` of a half-open range by one element. -/
def splice {α : Type} (xs : List α) (start stop : Nat) (x : α) : List α :=
  xs.take start ++ x :: xs.drop stop

/-- `apply_surface_operation`. The last arm is `unreachable!` in the
source: `validateSurfaceOperation` has refused a surface event without an
operation before this runs. -/
def applySurfaceOperation (projection : Option SurfaceMessage) (surface : List SurfaceMessage) :
    List SurfaceMessage :=
  match projection with
  | none => surface
  | some m =>
    match e.surfaceOp with
    | some .append => surface ++ [m]
    | some (.replace start stop) => splice surface start stop m
    | none => surface

def SessionState.record (state : SessionState) (e : SessionEvent)
    (projection : Option SurfaceMessage) : SessionState :=
  { events := state.events ++ [e]
    surface := applySurfaceOperation e projection state.surface
    seedLength := state.seedLength
    endSeedSeen := if e.eventType = "session/end-seed" then true else state.endSeedSeen }

@[simp] theorem SessionState.record_events (state : SessionState) (e : SessionEvent)
    (p : Option SurfaceMessage) : (state.record e p).events = state.events ++ [e] := rfl

@[simp] theorem SessionState.record_surface (state : SessionState) (e : SessionEvent)
    (p : Option SurfaceMessage) :
    (state.record e p).surface = applySurfaceOperation e p state.surface := rfl

end Tessivum.Session
