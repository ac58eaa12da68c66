/-
Tessivum.Approval.System — approvals and questions beside the other writers of
a session (`ApprovalService` of `src/approval.rs`, `HostQuestionRegistry` of
`src/question.rs`).

An approval holds the service's write gate while it asks and again while it
decides; in between, hooks and answerers run and anything may happen. Both
write their events under a number they read from the session before, with
nothing held in between that other writers would respect: `read…` and the
`commit…` after it are two steps.

Every lock acquisition and every resumption after an await is one step, so a
run is an arbitrary interleaving of any number of calls with set policies,
registrations, the user's replies and the writers of other events. Ids are
drawn at random in the source; `uuid n` is the id call `n` draws.
-/
import Tessivum.Approval.Protocol

namespace Tessivum.Approval

open Library Protocol Session

/-! ## State -/

/-- Where an `approve` stands. -/
inductive ApprovalPhase where
  /-- waiting for the write gate -/
  | waiting
  /-- the gate is held and the checks are passed -/
  | entered
  /-- the number of the asked event is read -/
  | askRead (seq : Nat)
  /-- asked, and the gate released -/
  | asked
  /-- the hooks passed and the policy asks -/
  | answering
  /-- the outcome is known, waiting for the gate -/
  | settling (outcome : ApprovalOutcome)
  /-- the gate is held and the outcome final -/
  | deciding (outcome : ApprovalOutcome)
  /-- the number of the decision is read -/
  | decideRead (outcome : ApprovalOutcome) (seq : Nat)
  | returned (outcome : ApprovalOutcome)
  deriving DecidableEq, Repr

/-- One `approve`. The policy, the hooks and the answerers are those it
found when it asked; the replies are what these answered. -/
structure ApprovalCall where
  request : ApprovalRequest
  toolName : String
  callId : Option ToolCallId
  reason : Option String
  turn : Nat
  cancelled : Bool
  generation : Nat
  policy : ApprovalPolicy
  hooks : List Nat
  answerers : List Nat
  hookReplies : List HookReply
  answererReplies : List AnswererReply
  phase : ApprovalPhase
  deriving DecidableEq, Repr

/-- What a waiting question is told. -/
inductive QuestionReply where
  | answered (answer : AskUserQuestionAnswer)
  | cancelled
  deriving DecidableEq, Repr

/-- The errors of `ask`, one a code. -/
inductive QuestionError where
  /-- `EMPTY_QUESTIONS` -/
  | emptyQuestions
  /-- `BAD_INTENT` -/
  | badIntent
  /-- `ASK_ABORTED` -/
  | aborted
  /-- `ASK_MISSING_AGENT` -/
  | missingAgent
  /-- `CALLER_NOT_LIVE` -/
  | callerNotLive
  /-- `NO_ACTIVE_TURN` -/
  | noActiveTurn
  /-- `QUESTION_PERSISTENCE_FAILED` -/
  | persistenceFailed
  /-- `ASK_CANCELLED` -/
  | cancelled
  deriving DecidableEq, Repr

/-- Where an `ask` stands. -/
inductive QuestionPhase where
  /-- the slot was found and a turn is active -/
  | begun
  /-- registered as pending -/
  | registered
  | askRead (seq : Nat)
  /-- asked, waiting for a reply -/
  | waiting
  | resolving (answer : Option AskUserQuestionAnswer)
  | resolveRead (answer : Option AskUserQuestionAnswer) (seq : Nat)
  | returned (result : Except QuestionError AskUserQuestionAnswer)
  deriving DecidableEq

/-- One `ask`: whether it is pending in the registry, and the reply its
channel holds. `since` is the length of the log when it found its turn
active; no step reads it. -/
structure QuestionCall where
  questions : List AskUserQuestionItem
  callId : ToolCallId
  turn : Nat
  since : Nat
  cancelled : Bool
  pending : Bool
  reply : Option QuestionReply
  phase : QuestionPhase
  deriving DecidableEq

/-- The session, the agent's liveness, the approval service and the
question registry's slot for the session. -/
structure ConsentSystem (σ : Type) where
  session : Live σ
  agentLive : Bool
  policy : ApprovalPolicy
  nextId : Nat
  pendingDecisions : List Nat
  hooks : List Nat
  answerers : List Nat
  hostAnswerers : List Nat
  gate : Option Nat
  approvals : Nat
  approval : Nat → ApprovalCall
  slotOpen : Bool
  questions : Nat
  question : Nat → QuestionCall

namespace ConsentSystem

variable {σ : Type}

variable (s : ConsentSystem σ)

def log : List SessionEvent := s.session.state.events

/-- `next_id`. -/
def idAfter (id : Nat) : Nat := if id + 1 < u64Bound then id + 1 else 1

def setApproval (n : Nat) (call : ApprovalCall) : ConsentSystem σ :=
  { s with approval := Function.update s.approval n call }

def approvalAt (n : Nat) (phase : ApprovalPhase) : ConsentSystem σ :=
  s.setApproval n { s.approval n with phase }

def setQuestion (n : Nat) (call : QuestionCall) : ConsentSystem σ :=
  { s with question := Function.update s.question n call }

def questionAt (n : Nat) (phase : QuestionPhase) : ConsentSystem σ :=
  s.setQuestion n { s.question n with phase }

/-! ## The owner and the other writers -/

section Writers

variable (S : Serde) (P : Persistence σ)

/-- Another writer of the session: the agent loop, the inbox, the goals.
None of them writes an audit event. -/
def write (s : ConsentSystem σ) (call : Call) : ConsentSystem σ :=
  if (call.event s.session).eventType ∈ auditTypes then s
  else { s with session := (s.session.call S P call).2 }

/-- `set_policy`, under a number read before. The gate is held from the
append to the change of the policy. -/
def setPolicy (s : ConsentSystem σ) (policy : ApprovalPolicy) (seq : Nat)
    (token : Cancellation) : ConsentSystem σ :=
  if s.gate.isNone && s.agentLive then
    let event := auditEvent "approval/policy" (.object [("policy", .string policy.asStr)]) seq
    match s.session.append S P event token with
    | (.ok (), session) => { s with session, policy }
    | (.error _, session) => { s with session }
  else s

end Writers

/-- What a registration is for. -/
inductive RegistrationKind where
  | answerer
  | hostAnswerer
  | hook
  deriving DecidableEq, Repr

/-- `register_answerer`, `register_host_answerer` and `register_hook`. -/
def register (kind : RegistrationKind) : ConsentSystem σ :=
  if s.agentLive then
    let id := idAfter s.nextId
    match kind with
    | .answerer => { s with nextId := id, answerers := s.answerers ++ [id] }
    | .hostAnswerer => { s with nextId := id, hostAnswerers := s.hostAnswerers ++ [id] }
    | .hook => { s with nextId := id, hooks := s.hooks ++ [id] }
  else s

/-- `ApprovalRegistration::close`. -/
def closeRegistration (kind : RegistrationKind) (id : Nat) : ConsentSystem σ :=
  match kind with
  | .answerer => { s with answerers := s.answerers.filter (· != id) }
  | .hostAnswerer => { s with hostAnswerers := s.hostAnswerers.filter (· != id) }
  | .hook => { s with hooks := s.hooks.filter (· != id) }

/-! ## Approvals -/

/-- The start of `approve_with_audit`, up to the write gate. -/
def approve (request : ApprovalRequest) (cancelled : Bool) (toolName : String)
    (callId : Option ToolCallId) (reason : Option String) : ConsentSystem σ :=
  let phase : ApprovalPhase :=
    if !s.agentLive || !request.isValid then .returned .unavailable
    else if cancelled then .returned .cancelled
    else if (activeTurn s.log).isNone then .returned .unavailable
    else .waiting
  let call : ApprovalCall :=
    { request, toolName, callId, reason, turn := (activeTurn s.log).getD 0, cancelled
      generation := 0, policy := .ask, hooks := [], answerers := [], hookReplies := []
      answererReplies := [], phase }
  { s.setApproval s.approvals call with approvals := s.approvals + 1 }

def cancelApproval (n : Nat) : ConsentSystem σ :=
  s.setApproval n { s.approval n with cancelled := true }

def stillActive (turn : Nat) : Bool :=
  s.agentLive && activeTurn s.log == some turn

def enterApproval (n : Nat) : ConsentSystem σ :=
  let call := s.approval n
  if call.phase = .waiting ∧ s.gate.isNone then
    if call.cancelled then s.approvalAt n (.returned .cancelled)
    else if !s.stillActive call.turn then s.approvalAt n (.returned .rejected)
    else
      let generation := idAfter s.nextId
      { s.setApproval n { call with
        generation, policy := s.policy, hooks := s.hooks
        answerers := s.answerers ++ s.hostAnswerers, phase := .entered } with
        nextId := generation, gate := some n }
  else s

def leaveApproval (n : Nat) (outcome : ApprovalOutcome) : ConsentSystem σ :=
  { s.approvalAt n (.returned outcome) with gate := none }

/-- `next_seq`, for the asked event. -/
def readAsk (n : Nat) : ConsentSystem σ :=
  if (s.approval n).phase = .entered then
    match nextSeq s.log with
    | .ok seq => s.approvalAt n (.askRead seq)
    | .error _ => s.leaveApproval n .rejected
  else s

variable (uuid : Nat → String)

/-- What approval `n` asks. -/
def approvalAsked (s : ConsentSystem σ) (n : Nat) : ApprovalAsked :=
  let call := s.approval n
  { approvalId := uuid n, sessionId := s.session.header.id, turn := call.turn
    policy := call.policy, request := call.request, toolName := call.toolName
    callId := call.callId, reason := call.reason }

def askedEvent (s : ConsentSystem σ) (n seq : Nat) : SessionEvent :=
  auditEvent "approval/asked" (approvalAsked uuid s n).toValue seq

/-- The token of a call during one append: cancelled before, or firing
while the append looks at it, or not at all. -/
def tokenDuring (cancelled : Bool) : Cancellation := fun _ => cancelled

/-- The append of the asked event. The token may fire meanwhile. -/
def commitAsk (S : Serde) (P : Persistence σ) (uuid : Nat → String) (s : ConsentSystem σ)
    (n : Nat) (fires : Bool) : ConsentSystem σ :=
  let call := { s.approval n with cancelled := (s.approval n).cancelled || fires }
  match call.phase with
  | .askRead seq =>
    match s.session.append S P (askedEvent uuid s n seq) (tokenDuring call.cancelled) with
    | (.ok (), session) =>
      { s.setApproval n { call with phase := .asked } with
        session
        pendingDecisions := call.generation :: s.pendingDecisions
        gate := none }
    | (.error _, session) =>
      { s.setApproval n { call with phase := .returned .rejected } with
        session, gate := none }
  | _ => s

def consultHooks (n : Nat) (replies : List HookReply) : ConsentSystem σ :=
  let call := s.approval n
  if call.phase = .asked ∧ replies.length = call.hooks.length then
    let phase : ApprovalPhase :=
      if call.cancelled then .settling .cancelled
      else if replies.any HookReply.denies then .settling .rejected
      else
        match call.policy with
        | .never => .settling .rejected
        | .ask => .answering
    s.setApproval n { call with hookReplies := replies, phase }
  else s

def answerApproval (n : Nat) (replies : List AnswererReply) : ConsentSystem σ :=
  let call := s.approval n
  if call.phase = .answering ∧ replies.length = call.answerers.length then
    if call.cancelled then s.approvalAt n (.settling .cancelled)
    else s.setApproval n { call with
      answererReplies := replies, phase := .settling (waterfall replies) }
  else s

def abortApproval (n : Nat) : ConsentSystem σ :=
  if (s.approval n).phase = .answering ∧ (s.approval n).cancelled then
    s.approvalAt n (.settling .cancelled)
  else s

def finalOutcome (n : Nat) (outcome : ApprovalOutcome) : ApprovalOutcome :=
  if !s.pendingDecisions.contains (s.approval n).generation then .rejected
  else if outcome = .allowedOnce && (s.approval n).cancelled then .cancelled
  else if outcome = .allowedOnce && !s.stillActive (s.approval n).turn then .rejected
  else outcome

def decideApproval (n : Nat) : ConsentSystem σ :=
  match (s.approval n).phase with
  | .settling outcome =>
    if s.gate.isNone then
      { s.approvalAt n (.deciding (s.finalOutcome n outcome)) with
        pendingDecisions := s.pendingDecisions.filter (· != (s.approval n).generation)
        gate := some n }
    else s
  | _ => s

/-- `next_seq`, for the decision. -/
def readDecision (n : Nat) : ConsentSystem σ :=
  match (s.approval n).phase with
  | .deciding outcome =>
    match nextSeq s.log with
    | .ok seq => s.approvalAt n (.decideRead outcome seq)
    | .error _ => s.leaveApproval n .rejected
  | _ => s

def decidedEvent (s : ConsentSystem σ) (n : Nat) (outcome : ApprovalOutcome) (seq : Nat) :
    SessionEvent :=
  auditEvent "approval/decided"
    (ApprovalDecision.toValue { approvalId := uuid n, turn := (s.approval n).turn, outcome }) seq

/-- The append of the decision. Its token is never cancelled. -/
def commitDecision (S : Serde) (P : Persistence σ) (uuid : Nat → String) (s : ConsentSystem σ)
    (n : Nat) : ConsentSystem σ :=
  match (s.approval n).phase with
  | .decideRead outcome seq =>
    match s.session.append S P (decidedEvent uuid s n outcome seq) .never with
    | (.ok (), session) => { s.leaveApproval n outcome with session }
    | (.error _, session) => { s.leaveApproval n .rejected with session }
  | _ => s

/-! ## Questions -/

/-- The start of `ask`, up to the first look at the slots. -/
def ask (questions : List AskUserQuestionItem) (callId : ToolCallId) (cancelled : Bool) :
    ConsentSystem σ :=
  let phase : QuestionPhase :=
    if questions.isEmpty then .returned (.error .emptyQuestions)
    else if questions.any fun item => !validIntent item then .returned (.error .badIntent)
    else if cancelled then .returned (.error .aborted)
    else if !s.slotOpen then .returned (.error .missingAgent)
    else if !s.agentLive then .returned (.error .callerNotLive)
    else if (activeTurn s.log).isNone then .returned (.error .noActiveTurn)
    else .begun
  let call : QuestionCall :=
    { questions, callId, turn := (activeTurn s.log).getD 0, since := s.log.length, cancelled
      pending := false, reply := none, phase }
  { s.setQuestion s.questions call with questions := s.questions + 1 }

def cancelQuestion (n : Nat) : ConsentSystem σ :=
  s.setQuestion n { s.question n with cancelled := true }

/-- The second look at the slots: the question becomes pending. -/
def registerQuestion (n : Nat) : ConsentSystem σ :=
  let call := s.question n
  if call.phase = .begun then
    if !s.slotOpen then s.questionAt n (.returned (.error .missingAgent))
    else if !s.stillActive call.turn then s.questionAt n (.returned (.error .callerNotLive))
    else s.setQuestion n { call with pending := true, phase := .registered }
  else s

/-- `remove_pending`, and the question returns. -/
def leaveQuestion (n : Nat) (result : Except QuestionError AskUserQuestionAnswer) :
    ConsentSystem σ :=
  s.setQuestion n { s.question n with pending := false, phase := .returned result }

/-- `next_seq`, for the asked event. -/
def readAsked (n : Nat) : ConsentSystem σ :=
  if (s.question n).phase = .registered then
    match nextSeq s.log with
    | .ok seq => s.questionAt n (.askRead seq)
    | .error _ => s.leaveQuestion n (.error .persistenceFailed)
  else s

def questionAskedEvent (s : ConsentSystem σ) (n seq : Nat) : SessionEvent :=
  auditEvent "question/asked"
    (QuestionAsked.toValue { rpcId := uuid n, sessionId := s.session.header.id
                             turn := (s.question n).turn, callId := (s.question n).callId
                             questions := (s.question n).questions }) seq

/-- The append of the asked event. The token may fire meanwhile. -/
def commitAsked (S : Serde) (P : Persistence σ) (uuid : Nat → String) (s : ConsentSystem σ)
    (n : Nat) (fires : Bool) : ConsentSystem σ :=
  let call := { s.question n with cancelled := (s.question n).cancelled || fires }
  match call.phase with
  | .askRead seq =>
    match s.session.append S P (questionAskedEvent uuid s n seq) (tokenDuring call.cancelled) with
    | (.ok (), session) => { s.setQuestion n { call with phase := .waiting } with session }
    | (.error _, session) =>
      { s.setQuestion n { call with
        pending := false, phase := .returned (.error .persistenceFailed) } with session }
  | _ => s

def QuestionPhase.listens : QuestionPhase → Bool
  | .registered => true
  | .askRead _ => true
  | .waiting => true
  | _ => false

/-- A reply to a pending question: the entry is taken out, and the reply
accepted while the call still listens. -/
def reply (s : ConsentSystem σ) (n : Nat) (reply : QuestionReply) : ConsentSystem σ :=
  s.setQuestion n { s.question n with
    pending := false
    reply := if QuestionPhase.listens (s.question n).phase then some reply
      else (s.question n).reply }

/-- `respond_answer` for the session's own question. -/
def respondAnswer (n : Nat) (answer : AskUserQuestionAnswer) : ConsentSystem σ :=
  if (s.question n).pending && matchesAnswer answer (s.question n).questions then
    s.reply n (.answered answer)
  else s

/-- `respond_cancelled`, and what `cancel_session`, `cancel_turn` and
`cancel_all` do to one pending question. -/
def respondCancelled (n : Nat) : ConsentSystem σ :=
  if (s.question n).pending then s.reply n .cancelled else s

/-- The answer a question settles on: none if it was cancelled, its turn
has ended or its owner is gone. -/
def settledAnswer (n : Nat) (answer : AskUserQuestionAnswer) : Option AskUserQuestionAnswer :=
  if !(s.question n).cancelled && activeTurn s.log == some (s.question n).turn
      && (s.slotOpen && s.agentLive) then some answer
  else none

/-- The select completes: the cancellation first, then the reply. -/
def receive (n : Nat) : ConsentSystem σ :=
  if (s.question n).phase = .waiting then
    if (s.question n).cancelled then s.questionAt n (.resolving none)
    else
      match (s.question n).reply with
      | none => s
      | some .cancelled => s.questionAt n (.resolving none)
      | some (.answered answer) => s.questionAt n (.resolving (s.settledAnswer n answer))
  else s

/-- `next_seq`, for the resolution. -/
def readResolved (n : Nat) : ConsentSystem σ :=
  match (s.question n).phase with
  | .resolving answer =>
    match nextSeq s.log with
    | .ok seq => s.questionAt n (.resolveRead answer seq)
    | .error _ => s.leaveQuestion n (.error .persistenceFailed)
  | _ => s

def resolvedEvent (s : ConsentSystem σ) (n : Nat) (answer : Option AskUserQuestionAnswer)
    (seq : Nat) : SessionEvent :=
  auditEvent "question/resolved"
    (QuestionResolved.toValue { rpcId := uuid n, turn := (s.question n).turn, answer }) seq

/-- What `ask` returns for a settled answer. -/
def answerResult : Option AskUserQuestionAnswer → Except QuestionError AskUserQuestionAnswer
  | some answer => .ok answer
  | none => .error .cancelled

/-- The append of the resolution. Its token is never cancelled. -/
def commitResolved (S : Serde) (P : Persistence σ) (uuid : Nat → String) (s : ConsentSystem σ)
    (n : Nat) : ConsentSystem σ :=
  match (s.question n).phase with
  | .resolveRead answer seq =>
    match s.session.append S P (resolvedEvent uuid s n answer seq) .never with
    | (.ok (), session) => { s.leaveQuestion n (answerResult answer) with session }
    | (.error _, session) => { s.leaveQuestion n (.error .persistenceFailed) with session }
  | _ => s

end ConsentSystem

/-! ## Runs -/

/-- One step of anyone. -/
inductive ConsentStep where
  | write (call : Call)
  | setPolicy (policy : ApprovalPolicy) (seq : Nat) (token : Cancellation)
  | register (kind : ConsentSystem.RegistrationKind)
  | closeRegistration (kind : ConsentSystem.RegistrationKind) (id : Nat)
  | setLive (live : Bool)
  | setSlot (installed : Bool)
  | approve (request : ApprovalRequest) (cancelled : Bool) (toolName : String)
      (callId : Option ToolCallId) (reason : Option String)
  | cancelApproval (n : Nat)
  | enterApproval (n : Nat)
  | readAsk (n : Nat)
  | commitAsk (n : Nat) (fires : Bool)
  | consultHooks (n : Nat) (replies : List HookReply)
  | answerApproval (n : Nat) (replies : List AnswererReply)
  | abortApproval (n : Nat)
  | decideApproval (n : Nat)
  | readDecision (n : Nat)
  | commitDecision (n : Nat)
  | ask (questions : List AskUserQuestionItem) (callId : ToolCallId) (cancelled : Bool)
  | cancelQuestion (n : Nat)
  | registerQuestion (n : Nat)
  | readAsked (n : Nat)
  | commitAsked (n : Nat) (fires : Bool)
  | respondAnswer (n : Nat) (answer : AskUserQuestionAnswer)
  | respondCancelled (n : Nat)
  | receive (n : Nat)
  | readResolved (n : Nat)
  | commitResolved (n : Nat)

namespace ConsentSystem

variable {σ : Type} (S : Serde) (P : Persistence σ) (uuid : Nat → String)

def step (s : ConsentSystem σ) : ConsentStep → ConsentSystem σ
  | .write call => s.write S P call
  | .setPolicy policy seq token => s.setPolicy S P policy seq token
  | .register kind => s.register kind
  | .closeRegistration kind id => s.closeRegistration kind id
  | .setLive agentLive => { s with agentLive }
  | .setSlot slotOpen => { s with slotOpen }
  | .approve request cancelled toolName callId reason =>
    s.approve request cancelled toolName callId reason
  | .cancelApproval n => s.cancelApproval n
  | .enterApproval n => s.enterApproval n
  | .readAsk n => s.readAsk n
  | .commitAsk n fires => s.commitAsk S P uuid n fires
  | .consultHooks n replies => s.consultHooks n replies
  | .answerApproval n replies => s.answerApproval n replies
  | .abortApproval n => s.abortApproval n
  | .decideApproval n => s.decideApproval n
  | .readDecision n => s.readDecision n
  | .commitDecision n => s.commitDecision S P uuid n
  | .ask questions callId cancelled => s.ask questions callId cancelled
  | .cancelQuestion n => s.cancelQuestion n
  | .registerQuestion n => s.registerQuestion n
  | .readAsked n => s.readAsked n
  | .commitAsked n fires => s.commitAsked S P uuid n fires
  | .respondAnswer n answer => s.respondAnswer n answer
  | .respondCancelled n => s.respondCancelled n
  | .receive n => s.receive n
  | .readResolved n => s.readResolved n
  | .commitResolved n => s.commitResolved S P uuid n

/-- A service and a registry over a session, before any call. -/
def fresh (session : Live σ) (policy : ApprovalPolicy) : ConsentSystem σ :=
  { session, agentLive := true, policy, nextId := 0, pendingDecisions := [], hooks := []
    answerers := [], hostAnswerers := [], gate := none, approvals := 0
    approval := fun _ =>
      { request := ⟨"", .null⟩, toolName := "", callId := none, reason := none, turn := 0
        cancelled := false, generation := 0, policy := .ask, hooks := [], answerers := []
        hookReplies := [], answererReplies := [], phase := .returned .unavailable }
    slotOpen := true, questions := 0
    question := fun _ =>
      { questions := [], callId := ⟨""⟩, turn := 0, since := 0, cancelled := false
        pending := false, reply := none, phase := .returned (.error .missingAgent) } }

def runFrom (s : ConsentSystem σ) (steps : List ConsentStep) : ConsentSystem σ :=
  steps.foldl (step S P uuid) s

end ConsentSystem

end Tessivum.Approval
