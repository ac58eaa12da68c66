/-
Tessivum.Session.Recovery — closing an interrupted turn and restoring a session
(`interrupted_turn_closers` and `SessionStore::restore` of `src/session.rs`).

A cold restore reads the committed log, rebuilds the session, scans the log for
a turn that was never ended, and appends what ends it: one failed tool result
for each tool call without an answer, the end of an open step, and the end of
the turn.

The scan reads turn and step numbers out of the free-form payloads; a missing number
of a `turn/start` or an `assistant/message` is an error of the whole scan, one
of a `step/start` is not.
-/
import Tessivum.Session.Store

namespace Tessivum.Session

open Library Protocol

/-! ## The scan -/

/-- A tool call of the open step that has no result yet. -/
structure PendingCall where
  callId : ToolCallId
  step : Nat
  callSeq : Option Nat
  deriving DecidableEq, Repr

/-- What the scan has seen so far. -/
structure TurnScan where
  openTurn : Option Nat
  openStep : Option Nat
  pending : List PendingCall
  deriving DecidableEq, Repr

def TurnScan.idle : TurnScan := { openTurn := none, openStep := none, pending := [] }

/-- A `u64` field of an event's payload. -/
def dataU64 (e : SessionEvent) (key : String) : Option Nat :=
  (e.data.get key).bind Value.asU64

def turnId (e : SessionEvent) : Except SessionError Nat :=
  match dataU64 e "turn" with
  | some turn => .ok turn
  | none => .error .invalidTurnId

def messageStep (e : SessionEvent) : Except SessionError Nat :=
  match dataU64 e "step" with
  | some step => .ok step
  | none => .error .invalidTurnLifecycle

/-- The surface message the scan expects an event to carry. -/
def surfaceMessageOf (S : Serde) (e : SessionEvent) : Except SessionError SurfaceMessage := do
  match ← decodeSurfaceEvent S e with
  | some m => .ok m
  | none => .error .invalidSurfaceMessage

def toolCalls (m : Message) : List ToolCallId :=
  m.content.filterMap fun
    | .toolCall id _ _ => some id
    | _ => none

/-- Record the `tool/call` event of the first pending call with an id. -/
def markCalled (callId : Option String) (seq : Nat) : List PendingCall → List PendingCall
  | [] => []
  | call :: rest =>
    if some call.callId.asStr = callId then { call with callSeq := some seq } :: rest
    else call :: markCalled callId seq rest

def dropAnswered (source : MessageSource) (pending : List PendingCall) : List PendingCall :=
  match source with
  | .tool callId => pending.filter fun call => call.callId ≠ callId
  | _ => pending

def scanEvent (S : Serde) (scan : TurnScan) (e : SessionEvent) : Except SessionError TurnScan :=
  if e.eventType = "turn/start" then do
    let turn ← turnId e
    .ok { openTurn := some turn, openStep := none, pending := [] }
  else if e.eventType = "turn/end" then .ok .idle
  else if e.eventType = "step/start" then .ok { scan with openStep := dataU64 e "step" }
  else if e.eventType = "step/end" then .ok { scan with openStep := none, pending := [] }
  else if e.eventType = "assistant/message" then do
    let step ← messageStep e
    let m ← surfaceMessageOf S e
    .ok { scan with pending := scan.pending ++ (toolCalls m.message).map fun callId =>
      { callId, step, callSeq := none } }
  else if e.eventType = "tool/call" then
    .ok { scan with pending :=
            markCalled ((e.data.get "callId").bind Value.asStr) e.seq scan.pending }
  else if e.eventType = "tool/result" then do
    let m ← surfaceMessageOf S e
    .ok { scan with pending := dropAnswered m.message.source scan.pending }
  else .ok scan

/-! ## The closing events -/

/-- `checked_add(1)` on a sequence number. -/
def seqAfter (seq : Nat) : Except SessionError Nat :=
  if seq + 1 < u64Bound then .ok (seq + 1) else .error .sequenceExhausted

/-- The code, error name and text a pending call is closed with. -/
def closingText (call : PendingCall) : String × String × String :=
  if call.callSeq.isSome then
    ("TOOL_OUTCOME_UNKNOWN", "ToolOutcomeUnknownError",
     "The tool call was interrupted after it was recorded, but no result was durably recorded. "
       ++ "Its outcome is unknown. Decide whether to retry from the tool semantics: retry only if "
       ++ "the operation is read-only or idempotent; if it may have side effects, first verify "
       ++ "external state or ask the user. Do not retry blindly.")
  else
    ("TOOL_NOT_STARTED", "ToolNotStartedError",
     "The tool call was interrupted before the Harness recorded it as started. "
       ++ "Retry it if it is still needed.")

def closingMessage (call : PendingCall) (seq : Nat) : Message :=
  { id := ⟨"interrupted-tool-result-" ++ call.callId.asStr ++ "-" ++ toString seq⟩
    role := .user
    content := [.toolResult call.callId [.text (closingText call).2.2] (some true)]
    source := .tool call.callId }

/-- The `tool/result` that closes a pending call. -/
def toolCloser (S : Serde) (turn time : Nat) (call : PendingCall) (seq : Nat) : SessionEvent :=
  { eventType := "tool/result", seq, time
    data := .object
      [("error", .object [("code", .string (closingText call).1),
          ("name", .string (closingText call).2.1)]),
       ("message", S.messageToValue (closingMessage call seq)),
       ("step", .ofNat call.step), ("turn", .ofNat turn)]
    ignorable := none
    sourceEventSeqs := call.callSeq.map fun sourceSeq => [sourceSeq]
    surfaceOp := some .append }

/-- The `step/end` of the open step. -/
def stepCloser (turn step time seq : Nat) : SessionEvent :=
  .plain "step/end" seq time (.object [("step", .ofNat step), ("turn", .ofNat turn)])

/-- The `turn/end` of the interrupted turn. -/
def turnCloser (turn time seq : Nat) : SessionEvent :=
  .plain "turn/end" seq time (.object
    [("reason", .object [("kind", .string "interrupted")]), ("synthetic", .bool true),
     ("turn", .ofNat turn)])

/-- The loop over the pending calls, from the next free number on. -/
def closeCalls (S : Serde) (turn time : Nat) : Nat → List PendingCall →
    Except SessionError (List SessionEvent × Nat)
  | seq, [] => .ok ([], seq)
  | seq, call :: rest => do
    let next ← seqAfter seq
    let (closers, last) ← closeCalls S turn time next rest
    .ok (toolCloser S turn time call seq :: closers, last)

/-- The end of the open step, if there is one, and of the turn. -/
def closeTurn (turn time : Nat) (openStep : Option Nat) (seq : Nat) :
    Except SessionError (List SessionEvent) :=
  match openStep with
  | none => .ok [turnCloser turn time seq]
  | some step => do
    let next ← seqAfter seq
    .ok [stepCloser turn step time seq, turnCloser turn time next]

/-- What closes a scanned turn, after the last event of the log. -/
def closersOf (S : Serde) (scan : TurnScan) (last : Option SessionEvent) :
    Except SessionError (List SessionEvent) :=
  match scan.openTurn, last with
  | some turn, some last => do
    let seq ← seqAfter last.seq
    let (calls, seq) ← closeCalls S turn last.time seq scan.pending
    let ends ← closeTurn turn last.time scan.openStep seq
    .ok (calls ++ ends)
  | _, _ => .ok []

def interruptedTurnClosers (S : Serde) (events : List SessionEvent) :
    Except SessionError (List SessionEvent) := do
  let scan ← events.foldlM (scanEvent S) .idle
  closersOf S scan events.getLast?

/-! ## Restoring -/

/-- Whether restoration resumes an agent, reads metadata, or recovers a
cold session. -/
inductive RestoreMode where
  | live | metadata | cold
  deriving DecidableEq, Repr

section Restore

variable {σ : Type} (S : Serde) (P : Persistence σ)

def Live.appendAll (live : Live σ) (token : Cancellation) :
    List SessionEvent → Except SessionError Unit × Live σ
  | [] => (.ok (), live)
  | e :: rest =>
    match live.append S P e token with
    | (.error err, live') => (.error err, live')
    | (.ok (), live') => live'.appendAll token rest

/-- The session a restore reads back before it repairs anything. -/
def Store.readBack (store : Store σ) (id : SessionId) (token : Cancellation) :
    Except SessionError (Live σ) := do
  checkCancellation token 0
  store.ensureNotLive id
  let header ← match ← P.load store.disk id (token.after 1) with
    | some header => .ok header
    | none => .error (.notFound id)
  validateHeader header
  failIf (header.id ≠ id) .headerIdMismatch
  let events ← P.readFrom store.disk id 0 (token.after 2)
  let state ← buildState S header events
  .ok { header, state, disk := store.disk }

/-- `SessionStore::restore`. The appends of the closing events read the
caller's token again, from its fourth read on. -/
def Store.restore (store : Store σ) (id : SessionId) (mode : RestoreMode)
    (token : Cancellation) : Except SessionError (Live σ) × Store σ :=
  let read := do
    let live ← store.readBack S P id token
    let closers ← interruptedTurnClosers S live.state.events
    .ok (live, closers)
  match read with
  | .error err => (.error err, store)
  | .ok (live, closers) =>
    if closers = [] then store.insertLive live
    else if mode = .live then (.error .orphanTurn, store)
    else if mode ≠ .cold then store.insertLive live
    else
      match live.appendAll S P (token.after 3) closers with
      | (.error err, live') => (.error err, { store with disk := live'.disk })
      | (.ok (), live') => store.insertLive live'

end Restore

end Tessivum.Session
