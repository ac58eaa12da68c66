/-
Tessivum.Protocol.Event — the session header, the session event envelope and
their validation (`src/protocol.rs`), with the deserialisers the source gets
from `serde`.

`SessionEvent::validate` is the first check of every admission path and the
only one every persistence backend repeats. It bounds the numbers of the
envelope, refuses unknown event types that are not marked ignorable, checks the
payload of the four `tool-workflow` events, and ties surface metadata to the
three surface event types.

`Serde` collects the functions `serde` generates for the derive attributes of
the payload types. They are arbitrary functions here.
-/
import Tessivum.Protocol.Message

namespace Tessivum.Protocol

open Library

/-! ## Session header -/

def sessionFormatVersion : Nat := 0

def maxModeIdBytes : Nat := 64

def modeIdByte (c : Char) : Bool := c.isLower || c.isDigit || c == '-'

/-- The test of `validate_mode_id`. -/
def modeIdValid (id : String) : Bool :=
  !id.isEmpty && id.utf8ByteSize ≤ maxModeIdBytes
    && (match id.toList with
      | c :: _ => c.isLower
      | [] => false)
    && id.toList.all modeIdByte && id.toList.getLast? != some '-'
    && !containsText ['-', '-'] id.toList

/-- A mode id. Every constructor of the source's type checks the text or
uses one of the four built-in names, so an invalid id cannot be held. -/
structure AgentModeId where
  asStr : String
  valid : modeIdValid asStr = true
  deriving DecidableEq, Repr

def AgentModeId.new (value : String) : Except TessivumError AgentModeId :=
  if h : modeIdValid value = true then .ok ⟨value, h⟩
  else .error
    { code := "MODE_INVALID_ID"
      message := "mode id must match [a-z][a-z0-9-]* without repeated or trailing hyphens"
      phase := "agent-mode"
      details := .object [("id", .string value), ("maximum", .ofNat maxModeIdBytes)] }

def AgentModeId.standard : AgentModeId := ⟨"standard", by decide⟩
def AgentModeId.ptc : AgentModeId := ⟨"ptc", by decide⟩
def AgentModeId.minimal : AgentModeId := ⟨"minimal", by decide⟩
def AgentModeId.composition : AgentModeId := ⟨"composition", by decide⟩

/-- Durable classification for sessions created by delegation. -/
inductive SessionOrigin where
  | subagent
  deriving DecidableEq, Repr

/-- Durable metadata kept outside a session's append-only event log. -/
structure SessionHeader where
  version : Nat
  id : SessionId
  createdAt : Nat
  cwd : Option String
  parentSession : Option SessionId
  seedLength : Option Nat
  origin : Option SessionOrigin
  delegationDepth : Option Nat
  agentMode : Option AgentModeId
  deriving DecidableEq, Repr

def SessionHeader.plain (id : SessionId) (createdAt : Nat) : SessionHeader :=
  { version := sessionFormatVersion, id, createdAt, cwd := none, parentSession := none
    seedLength := none, origin := none, delegationDepth := none, agentMode := none }

def SessionHeader.validate (h : SessionHeader) : Except TessivumError Unit := do
  failIf (h.version ≠ sessionFormatVersion)
    (invalid "UNSUPPORTED_SESSION_FORMAT" "session header version is not supported"
      (.object [("version", .ofNat h.version), ("supportedVersion", .ofNat sessionFormatVersion)]))
  checkSafeInteger "createdAt" h.createdAt
  validateOptional (checkSafeInteger "seedLength") h.seedLength
  validateOptional (checkSafeInteger "delegationDepth") h.delegationDepth

/-! ## Session events -/

/-- An operation that places a message-producing event on the derived
surface. -/
inductive SurfaceOp where
  | append
  | replace (start stop : Nat)
  deriving DecidableEq, Repr

def SurfaceOp.validate : SurfaceOp → Except TessivumError Unit
  | .append => .ok ()
  | .replace start stop => do
    checkSafeInteger "surfaceOp.start" start
    checkSafeInteger "surfaceOp.end" stop
    failIf (start > stop)
      (invalid "INVALID_SURFACE_RANGE" "surface replacement start must not exceed end"
        (.object [("start", .ofNat start), ("end", .ofNat stop)]))

/-- A JSON-lossless append-only session event envelope. -/
structure SessionEvent where
  eventType : String
  seq : Nat
  time : Nat
  data : Value
  ignorable : Option Bool
  sourceEventSeqs : Option (List Nat)
  surfaceOp : Option SurfaceOp
  deriving DecidableEq, Repr

variable (eventType : String)

/-- An event without optional fields, as the crate's own writers build
them. -/
def SessionEvent.plain (seq time : Nat) (data : Value) : SessionEvent :=
  { eventType, seq, time, data, ignorable := none, sourceEventSeqs := none, surfaceOp := none }

/-- Canonical terminal outcome for one durable workflow member. -/
inductive WorkflowAgentOutcome where
  | completed | failed | cancelled
  deriving DecidableEq, Repr

/-- Canonical terminal reason for one durable workflow run. -/
inductive WorkflowStopReason where
  | completed | cancelled | error
  deriving DecidableEq, Repr

structure ToolWorkflowRunStartData where
  runId : String
  name : String

structure ToolWorkflowAgentStartData where
  runId : String
  seq : Nat
  label : String
  phase : Option String
  childId : SessionId

structure ToolWorkflowAgentEndData where
  runId : String
  seq : Nat
  outcome : WorkflowAgentOutcome

structure ToolWorkflowRunEndData where
  runId : String
  stopReason : WorkflowStopReason

/-- What `serde` generates for the payload types: deserialisation from a
JSON value, with the error text it reports, and serialisation into
one. -/
structure Serde where
  messageFromValue : Value → Option Message
  messageToValue : Message → Value
  runStartFromValue : Value → Except String ToolWorkflowRunStartData
  agentStartFromValue : Value → Except String ToolWorkflowAgentStartData
  agentEndFromValue : Value → Except String ToolWorkflowAgentEndData
  runEndFromValue : Value → Except String ToolWorkflowRunEndData

/-- A faithful message deserialises from its own serialisation. -/
def Serde.RoundTrips (S : Serde) : Prop :=
  ∀ m : Message, m.Faithful → S.messageFromValue (S.messageToValue m) = some m

/-! ### Event types -/

/-- `is_known_event_type`. -/
def knownEventTypes : List String :=
  ["turn/start", "turn/end", "step/start", "step/end", "user/message", "assistant/chunk",
   "assistant/message", "agent/inbox/enqueued", "agent/inbox/spliced", "tool/call",
   "tool/result", "tool/code-dispatch-start", "tool/code-dispatch", "todo/write",
   "cordis/dynamic", "schedule/change", "goal/change", "plan/change", "plan/mode",
   "command/run", "command/done", "feedback/record", "permission/preset", "sandbox/mode",
   "approval/policy", "agent-mode/selected", "approval/asked", "approval/decided",
   "question/asked", "question/resolved", "job/done", "subagent/contained-start",
   "subagent/contained-end", "subagent/descriptor", "tool-workflow/run-start",
   "tool-workflow/agent-start", "tool-workflow/agent-end", "tool-workflow/run-end",
   "request/header", "request/context", "llm/retry", "llm/retry-started",
   "session/model-selected", "session/title", "web/deepseek-search-llm-request",
   "session/end-seed"]

def isKnownEventType : Bool := knownEventTypes.contains eventType

def isSurfaceEventType : Bool :=
  eventType == "user/message" || eventType == "assistant/message" || eventType == "tool/result"

/-! ### Workflow payloads -/

def workflowNonempty (field value : String) : Except TessivumError Unit :=
  failIf value.isEmpty (invalid "INVALID_TOOL_WORKFLOW_EVENT"
    "tool-workflow identity fields must not be empty" (.object [("field", .string field)]))

/-- `workflow_event_data`: the deserialiser's error under the event's
code. -/
def workflowEventData {α : Type} (decoded : Except String α) : Except TessivumError α :=
  match decoded with
  | .ok data => .ok data
  | .error reason => .error (invalid "INVALID_TOOL_WORKFLOW_EVENT"
      "tool-workflow event data does not match its canonical schema"
      (.object [("type", .string eventType), ("error", .string reason)]))

/-- The check two workflow events make of their member sequence. -/
def workflowSequence (eventType field : String) (seq : Nat) : Except TessivumError Unit := do
  checkSafeInteger field seq
  failIf (seq = 0)
    (invalid "INVALID_TOOL_WORKFLOW_EVENT" "tool-workflow agent sequence must be positive"
      (.object [("type", .string eventType), ("seq", .ofNat seq)]))

def validateToolWorkflowEvent (S : Serde) (eventType : String) (data : Value) :
    Except TessivumError Unit :=
  if eventType = "tool-workflow/run-start" then do
    let data ← workflowEventData eventType (S.runStartFromValue data)
    workflowNonempty "runId" data.runId
    workflowNonempty "name" data.name
  else if eventType = "tool-workflow/agent-start" then do
    failIf (data.get "phase" = some .null) (invalid "INVALID_TOOL_WORKFLOW_EVENT"
      "tool-workflow agent phase must be omitted or a string"
      (.object [("type", .string eventType)]))
    let data ← workflowEventData eventType (S.agentStartFromValue data)
    workflowNonempty "runId" data.runId
    workflowSequence eventType "tool-workflow.agent-start.seq" data.seq
    workflowNonempty "childId" data.childId.asStr
  else if eventType = "tool-workflow/agent-end" then do
    let data ← workflowEventData eventType (S.agentEndFromValue data)
    workflowNonempty "runId" data.runId
    workflowSequence eventType "tool-workflow.agent-end.seq" data.seq
  else if eventType = "tool-workflow/run-end" then do
    let data ← workflowEventData eventType (S.runEndFromValue data)
    workflowNonempty "runId" data.runId
  else .ok ()

/-! ### The envelope -/

def validateSourceSeq (seq source : Nat) : Except TessivumError Unit := do
  checkSafeInteger "sourceEventSeqs" source
  failIf (source ≥ seq)
    (invalid "INVALID_SOURCE_EVENT_SEQS" "sourceEventSeqs must cite earlier events"
      (.object [("seq", .ofNat seq), ("sourceEventSeq", .ofNat source)]))

def validateCitations (e : SessionEvent) : Except TessivumError Unit :=
  match e.sourceEventSeqs with
  | none => .ok ()
  | some sources => do
    failIf (e.eventType ≠ "assistant/message" ∧ sources = [])
      (invalid "INVALID_SOURCE_EVENT_SEQS"
        "only assistant/message may cite an empty sourceEventSeqs list"
        (.object [("type", .string e.eventType)]))
    forAllOk (validateSourceSeq e.seq) sources

/-- The surface part of `SessionEvent::validate`. -/
def validateSurfaceMetadata (e : SessionEvent) : Except TessivumError Unit :=
  if isSurfaceEventType e.eventType then
    match e.surfaceOp with
    | none => .error (invalid "MISSING_SURFACE_OPERATION"
        "surface events must declare surfaceOp" (.object [("type", .string e.eventType)]))
    | some op => do
      op.validate
      validateCitations e
      failIf (op ≠ .append ∧ (e.sourceEventSeqs = none ∨ e.sourceEventSeqs = some []))
        (invalid "INVALID_SURFACE_REPLACEMENT"
          "surface replacements must cite shadowed source events" .null)
  else
    failIf (e.surfaceOp.isSome ∨ e.sourceEventSeqs.isSome)
      (invalid "INVALID_SURFACE_METADATA"
        "surface metadata is only valid on user/message, assistant/message, and tool/result"
        (.object [("type", .string e.eventType)]))

def SessionEvent.validate (S : Serde) (e : SessionEvent) : Except TessivumError Unit := do
  checkSafeInteger "seq" e.seq
  checkSafeInteger "time" e.time
  failIf (e.ignorable = some false)
    (invalid "INVALID_IGNORABLE_EVENT" "ignorable must be true when present" .null)
  failIf (!isKnownEventType e.eventType ∧ e.ignorable ≠ some true)
    (invalid "UNKNOWN_REQUIRED_EVENT" "unknown session events must be marked ignorable"
      (.object [("type", .string e.eventType)]))
  validateToolWorkflowEvent S e.eventType e.data
  validateSurfaceMetadata e

/-! ## What a passed check says -/

theorem checkSafeInteger_eq_ok {name : String} {value : Nat} :
    checkSafeInteger name value = .ok () ↔ value ≤ maxSafeInteger := by
  unfold checkSafeInteger
  rw [failIf_eq_ok]
  omega

theorem validateNonempty_eq_ok {code field value : String} :
    validateNonempty code field value = .ok () ↔ isBlank value = false := by
  unfold validateNonempty
  rw [failIf_eq_ok, not_eq_true]

variable {e : SessionEvent} {S : Serde}

theorem SessionEvent.validate_eq_ok :
    e.validate S = .ok () ↔
      e.seq ≤ maxSafeInteger ∧ e.time ≤ maxSafeInteger ∧ e.ignorable ≠ some false
        ∧ (isKnownEventType e.eventType = true ∨ e.ignorable = some true)
        ∧ validateToolWorkflowEvent S e.eventType e.data = .ok ()
        ∧ validateSurfaceMetadata e = .ok () := by
  unfold SessionEvent.validate
  simp only [check_bind_eq_ok, checkSafeInteger_eq_ok, failIf_eq_ok, not_eq_true',
    ne_eq, not_and_or, not_eq_false, Decidable.not_not]

theorem SessionEvent.surfaceOp_of_validate (h : e.validate S = .ok ())
    (hs : isSurfaceEventType e.eventType = true) : ∃ op, e.surfaceOp = some op := by
  obtain ⟨_, _, _, _, _, h⟩ := SessionEvent.validate_eq_ok.mp h
  unfold validateSurfaceMetadata at h
  rw [if_pos hs] at h
  cases hop : e.surfaceOp with
  | none => rw [hop] at h; cases h
  | some op => exact ⟨op, rfl⟩

end Tessivum.Protocol
