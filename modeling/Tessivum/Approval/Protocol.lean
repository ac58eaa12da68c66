/-
Tessivum.Approval.Protocol — approvals and questions as they are asked,
answered and written to the log (`src/approval.rs`, `src/question.rs`).

Both leave two audit events: one when the user is asked, one when the
outcome is known. The events carry the id under which the pair belongs
together; a JSON object lists its fields in key order, as the source's
maps do.
-/
import Tessivum.Session.Store

namespace Tessivum.Approval

open Library Protocol Session

/-! ## Approvals -/

/-- The only approval policies. -/
inductive ApprovalPolicy where
  | ask
  | never
  deriving DecidableEq, Repr

def ApprovalPolicy.asStr : ApprovalPolicy → String
  | .ask => "ask"
  | .never => "never"

/-- A one-shot decision result. Every variant other than `allowedOnce` is
denying. -/
inductive ApprovalOutcome where
  | allowedOnce
  | rejected
  | cancelled
  | unavailable
  deriving DecidableEq, Repr

def ApprovalOutcome.asStr : ApprovalOutcome → String
  | .allowedOnce => "allowed-once"
  | .rejected => "rejected"
  | .cancelled => "cancelled"
  | .unavailable => "unavailable"

/-- An action and its arguments. Only the action becomes durable. -/
structure ApprovalRequest where
  action : String
  details : Value
  deriving DecidableEq, Repr

/-- `ApprovalRequest::validate`. -/
def ApprovalRequest.isValid (request : ApprovalRequest) : Bool :=
  !isBlank request.action && request.action.utf8ByteSize ≤ 256

structure ApprovalAsked where
  approvalId : String
  sessionId : SessionId
  turn : Nat
  policy : ApprovalPolicy
  request : ApprovalRequest
  toolName : String
  callId : Option ToolCallId
  reason : Option String
  deriving DecidableEq, Repr

def optionalString (key : String) : Option String → List (String × Value)
  | none => []
  | some text => [(key, .string text)]

def ApprovalAsked.toValue (asked : ApprovalAsked) : Value :=
  .object ([("approvalId", .string asked.approvalId)]
    ++ optionalString "callId" (asked.callId.map ToolCallId.asStr)
    ++ [("policy", .string asked.policy.asStr)]
    ++ optionalString "reason" asked.reason
    ++ [("request", .object [("action", .string asked.request.action)]),
        ("sessionId", .string asked.sessionId.asStr), ("toolName", .string asked.toolName),
        ("turn", .ofNat asked.turn)])

structure ApprovalDecision where
  approvalId : String
  turn : Nat
  outcome : ApprovalOutcome
  deriving DecidableEq, Repr

def ApprovalDecision.toValue (decision : ApprovalDecision) : Value :=
  .object [("approvalId", .string decision.approvalId),
    ("outcome", .string decision.outcome.asStr), ("turn", .ofNat decision.turn)]

/-- What a hook answers. A hook may only veto. -/
inductive HookReply where
  | pass
  | veto (reason : String)
  | panicked
  deriving DecidableEq, Repr

def HookReply.denies : HookReply → Bool
  | .pass => false
  | _ => true

/-- What an answerer answers. -/
inductive AnswererReply where
  | allow
  | deny
  | decline
  | failed
  | panicked
  deriving DecidableEq, Repr

/-- `waterfall`: the first answerer that does not decline decides. -/
def waterfall : List AnswererReply → ApprovalOutcome
  | [] => .unavailable
  | .allow :: _ => .allowedOnce
  | .deny :: _ => .rejected
  | .decline :: rest => waterfall rest
  | .failed :: _ => .unavailable
  | .panicked :: _ => .unavailable

/-! ## Questions -/

/-- One selectable answer offered to the user. -/
structure AskUserQuestionOption where
  label : String
  description : Option String
  deriving DecidableEq, Repr

/-- One question. The intent is the label a plan review approves with. -/
structure AskUserQuestionItem where
  id : String
  question : String
  detail : Option String
  header : Option String
  options : Option (List AskUserQuestionOption)
  multiSelect : Option Bool
  intent : Option String
  deriving DecidableEq, Repr

/-- One structured answer. -/
structure AskUserQuestionAnswerItem where
  id : String
  selected : List String
  custom : Option String
  deriving DecidableEq, Repr

abbrev AskUserQuestionAnswer : Type := List AskUserQuestionAnswerItem

/-- `validate_intents`: an intent names one of its options and comes with
detail. -/
def validIntent (item : AskUserQuestionItem) : Bool :=
  match item.intent with
  | none => true
  | some approve =>
    (item.options.getD []).any (fun option => option.label == approve) && item.detail.isSome

def matchesItem (answer : AskUserQuestionAnswerItem) (item : AskUserQuestionItem) : Bool :=
  answer.id == item.id && decide answer.selected.Nodup
    && answer.custom.all (fun custom => !isBlank custom)
    && (item.multiSelect == some true
      || (decide (answer.selected.length ≤ 1)
        && (answer.custom.isNone || answer.selected.isEmpty)))
    && answer.selected.all fun selected =>
      (item.options.getD []).any fun option => option.label == selected

def matchesAnswer (answer : AskUserQuestionAnswer) (questions : List AskUserQuestionItem) : Bool :=
  answer.length == questions.length
    && (answer.zip questions).all fun (answer, item) => matchesItem answer item

def AskUserQuestionOption.toValue (option : AskUserQuestionOption) : Value :=
  .object (optionalString "description" option.description ++ [("label", .string option.label)])

def AskUserQuestionItem.toValue (item : AskUserQuestionItem) : Value :=
  .object (optionalString "detail" item.detail ++ optionalString "header" item.header
    ++ [("id", .string item.id)]
    ++ (match item.intent with
      | none => []
      | some approve => [("intent",
          .object [("approve", .string approve), ("kind", .string "plan-review")])])
    ++ (match item.multiSelect with
      | none => []
      | some multiSelect => [("multiSelect", .bool multiSelect)])
    ++ (match item.options with
      | none => []
      | some options => [("options", .array (options.map AskUserQuestionOption.toValue))])
    ++ [("question", .string item.question)])

def AskUserQuestionAnswerItem.toValue (item : AskUserQuestionAnswerItem) : Value :=
  .object (optionalString "custom" item.custom
    ++ [("id", .string item.id), ("selected", .array (item.selected.map .string))])

def answerValue (answer : AskUserQuestionAnswer) : Value :=
  .object [("answers", .array (answer.map AskUserQuestionAnswerItem.toValue))]

structure QuestionAsked where
  rpcId : String
  sessionId : SessionId
  turn : Nat
  callId : ToolCallId
  questions : List AskUserQuestionItem
  deriving DecidableEq, Repr

def QuestionAsked.toValue (asked : QuestionAsked) : Value :=
  .object [("callId", .string asked.callId.asStr),
    ("questions", .array (asked.questions.map AskUserQuestionItem.toValue)),
    ("rpcId", .string asked.rpcId), ("sessionId", .string asked.sessionId.asStr),
    ("turn", .ofNat asked.turn)]

/-- `QuestionResolved`. The outcome is answered when there is an answer
and cancelled when there is none. -/
structure QuestionResolved where
  rpcId : String
  turn : Nat
  answer : Option AskUserQuestionAnswer
  deriving DecidableEq, Repr

def QuestionResolved.outcome (resolved : QuestionResolved) : String :=
  if resolved.answer.isSome then "answered" else "cancelled"

def QuestionResolved.toValue (resolved : QuestionResolved) : Value :=
  .object ((match resolved.answer with
    | none => []
    | some answer => [("answer", answerValue answer)])
    ++ [("outcome", .string resolved.outcome), ("rpcId", .string resolved.rpcId),
        ("turn", .ofNat resolved.turn)])

/-! ## Events -/

/-- The event `append` of both modules writes under a number read
before. -/
def auditEvent (eventType : String) (data : Value) (seq : Nat) : SessionEvent :=
  { eventType, seq, time := 0, data, ignorable := some true, sourceEventSeqs := none
    surfaceOp := none }

def auditTypes : List String :=
  ["approval/asked", "approval/decided", "question/asked", "question/resolved"]

/-- One event's part in `active_turn`. -/
def activeTurnStep (active : Option Nat) (e : SessionEvent) : Option Nat :=
  if e.eventType = "turn/start" then (e.data.get "turn").bind Value.asU64
  else if e.eventType = "turn/end" then none
  else active

def activeTurn (events : List SessionEvent) : Option Nat := events.foldl activeTurnStep none

/-- The audit events of one id, in the order of the log: whether it is
the asked or the settled event of the pair, and what it carries. -/
inductive Mark where
  | asked (data : Value)
  | settled (data : Value)
  deriving DecidableEq

/-- The mark an event leaves on the id kept under `key`, for the two
event types of a kind. -/
def markOf (askedType settledType key id : String) (e : SessionEvent) : Option Mark :=
  if (e.data.get key).bind Value.asStr = some id then
    if e.eventType = askedType then some (.asked e.data)
    else if e.eventType = settledType then some (.settled e.data)
    else none
  else none

def approvalMarks (id : String) (log : List SessionEvent) : List Mark :=
  log.filterMap (markOf "approval/asked" "approval/decided" "approvalId" id)

def questionMarks (id : String) (log : List SessionEvent) : List Mark :=
  log.filterMap (markOf "question/asked" "question/resolved" "rpcId" id)

end Tessivum.Approval
