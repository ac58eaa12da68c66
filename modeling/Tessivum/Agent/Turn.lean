/-
Tessivum.Agent.Turn — one turn of the agent loop (`run_turn`, `run_tools` and
what they call, `src/agent_loop.rs`).

A turn is a program that asks its environment (`Library.Interaction`).
Everything the source awaits or reads from outside is a question: the
cancellation token, the session's append, the inbox, the skill service, prompt
assembly, compaction, the model stream, the retry policy, the tools.

The events are those `run_turn` itself appends, with the data it decides on, and
those that the compaction it calls appends in between. The contents of the model
request do not influence which events are appended and are left to the
environment. The source retries a failed generation without
a bound of its own, so that loop takes the number of attempts as fuel; a turn
that needs more has not returned.
-/
import Tessivum.Library.Interaction
import Tessivum.Llm.Assembler

namespace Tessivum.Agent

open Library Protocol Llm

/-! ## Events -/

/-- Durable cancellation cause. -/
inductive TurnEndCancelCause where
  | user
  | parent
  | hook (reason : String)
  | disposed
  | legacy
  deriving DecidableEq, Repr

/-- Why a turn ended. -/
inductive TurnEndReason where
  | completed
  | aborted (reason : TurnEndCancelCause)
  | blocked
  | error (error : LlmFailure)
  | maxTokens
  | interrupted
  deriving DecidableEq, Repr

/-- What a retry announces. -/
structure RetryPlan where
  retryId : String
  retry : Nat
  data : Value
  deriving DecidableEq, Repr

/-- What a compaction appends (`src/compaction.rs`): its notes, the summary in
place of the messages it covers, and a tool result with a shorter text in place
of another. -/
inductive CompactionEvent where
  | start (data : Value)
  | summary (data : Value)
  | replacement (message : Message)
  | finish (data : Value)
  | prunedResult (message : Message) (pruned : Value)
  deriving DecidableEq, Repr

/-- The events of a turn. `dispatch` is an event a tool result carries in
its `codeDispatches`, under the type the tool chose. -/
inductive TurnEvent where
  | turnStart (turn : Nat)
  | stepStart (turn step : Nat)
  | stepEnd (turn step : Nat)
  | turnEnd (turn : Nat) (reason : TurnEndReason)
  | userMessage (message : Message)
  | assistantChunk (turn step : Nat) (chunk : StreamChunk)
  | assistantMessage (turn step : Nat) (message : Message) (usage : Option TokenUsage)
      (sourceEventSeqs : List Nat)
  | toolCall (turn step : Nat) (callId : ToolCallId) (name arguments : String)
  | toolResult (turn step : Nat) (message : Message) (sourceSeq : Nat) (metadata : Value)
  | dispatch (eventType : String) (data : Value)
  | planMode (active : Bool)
  | requestHeader (header : Value) (reason : String)
  | requestContext (context : Value)
  | llmRetry (turn step : Nat) (plan : RetryPlan)
  | llmRetryStarted (retryId : String) (turn step retry : Nat)
  | compaction (event : CompactionEvent)
  deriving DecidableEq, Repr

/-! ## Questions -/

/-- What the session answers to a refused append. -/
inductive AppendError where
  | cancelled
  | refused (message : String)
  deriving DecidableEq, Repr

/-- `SessionError::to_string`. -/
def AppendError.display : AppendError → String
  | .cancelled => "session operation was cancelled"
  | .refused message => message

/-- The errors a turn returns. -/
inductive AgentError where
  | session (error : AppendError)
  | runtime (text : String)
  | message (error : TessivumError)
  deriving DecidableEq, Repr

/-- What `append_skill_context` reads from the skill service: the
catalogue text it has to show, if any, and the skills the messages
invoke. -/
structure SkillContext where
  catalog : Option String
  invoked : List String
  deriving DecidableEq, Repr

/-- The settled outcome of one tool call. -/
structure ToolOutput where
  content : List ContentBlock
  isError : Bool
  metadata : Value
  deriving DecidableEq, Repr

/-- The calls a turn makes. -/
inductive TurnQuery where
  | isCancelled
  | cancellationCause
  | nextTurn
  | append (event : TurnEvent) (finalization : Bool)
  | claimStepBatch
  | skillCatalog (messages : List Message)
  | skill (name : String)
  | workspaceInstructions
  | runtimeContext
  | assemblePrompt
  | compactPressure
  | compactOverflow
  | requestHeaderReason
  | requestContext
  | generate
  | messageId
  | retryPolicy (failure : LlmFailure)
  | sleep
  | executeTool (call : ToolCallId) (name arguments : String)
  | hasNextStep
  deriving DecidableEq, Repr

/-- What `compact_for_request` has appended, and what it returned. -/
structure CompactionAnswer (α : Type) where
  events : List CompactionEvent
  outcome : Except LlmFailure α

def TurnQuery.Answer : TurnQuery → Type
  | .isCancelled => Bool
  | .cancellationCause => TurnEndCancelCause
  | .nextTurn => Nat
  | .append _ _ => Except AppendError Nat
  | .claimStepBatch => Except AgentError (List Message)
  | .skillCatalog _ => Except AgentError (Option SkillContext)
  | .skill _ => Except AgentError String
  | .workspaceInstructions => Option String
  | .runtimeContext => Option (String × Nat)
  | .assemblePrompt => Except AgentError Unit
  | .compactPressure => CompactionAnswer Unit
  | .compactOverflow => CompactionAnswer Bool
  | .requestHeaderReason => Option (Value × String)
  | .requestContext => Option Value
  | .generate => Except TessivumError (List (Except TessivumError StreamChunk))
  | .messageId => MessageId
  | .retryPolicy _ => Option RetryPlan
  | .sleep => Bool
  | .executeTool _ _ _ => ToolOutput
  | .hasNextStep => Bool

abbrev TurnM (α : Type) : Type := Fallible AgentError TurnQuery TurnQuery.Answer α

def call (q : TurnQuery) : Prog TurnQuery TurnQuery.Answer q.Answer := Prog.query q

def ask (q : TurnQuery) : TurnM q.Answer := Fallible.query q

/-! ## Appending -/

/-- `append`: once cancelled, events are written under the finalization
token, which is never cancelled. The token is chosen before the write. -/
def append (event : TurnEvent) : TurnM Nat := do
  let cancelled ← ask .isCancelled
  Fallible.ofResult do
    let written : Except AppendError Nat ← call (.append event cancelled)
    pure (written.mapError .session)

/-- `append` where its result is not used. -/
def appendEvent (event : TurnEvent) : TurnM Unit := do
  let _ ← append event
  pure ()

def appendOptional : Option TurnEvent → TurnM Unit
  | none => pure ()
  | some event => appendEvent event

/-- An `if` without an `else`. -/
def onlyIf (condition : Bool) (action : TurnM Unit) : TurnM Unit :=
  if condition then action else pure ()

def aborted : TurnM TurnEndReason := do
  let cause : TurnEndCancelCause ← ask .cancellationCause
  pure (.aborted cause)

variable (turn step : Nat)

def closeStep : TurnM Unit := appendEvent (.stepEnd turn step)

def endReason (cancelled : Bool) (reason : TurnEndReason) : TurnM TurnEndReason :=
  if cancelled then aborted else pure reason

def endTurn (turn : Nat) (reason : TurnEndReason) : TurnM Unit := do
  let cancelled : Bool ← ask .isCancelled
  let reason ← endReason cancelled reason
  appendEvent (.turnEnd turn reason)

/-- `end_turn` with `aborted`. -/
def endAborted (turn : Nat) : TurnM Unit := do
  let reason ← aborted
  endTurn turn reason

def closeCancelledStep : TurnM Unit := do
  closeStep turn step
  endAborted turn

def failTurn (error : LlmFailure) : TurnM Unit := do
  closeStep turn step
  endTurn turn (.error error)

/-! ## What a step puts before the model -/

def pluginMessage (id text plugin : String) (form : Option ContextForm)
    (summary : Option String) : Message :=
  { id := ⟨id⟩, role := .user, content := [.text text]
    source := .plugin plugin none form none summary }

def appendMessages : List Message → TurnM Unit
  | [] => pure ()
  | message :: rest => do
    appendEvent (.userMessage message)
    appendMessages rest

def appendSkills (turn step : Nat) : Nat → List String → TurnM Unit
  | _, [] => pure ()
  | index, name :: rest => do
    let tag ← Fallible.ofResult (call (.skill name))
    appendEvent (.userMessage
      { id := ⟨s!"skill-invocation-{turn}-{step}-{index}"⟩, role := .user
        content := [.text tag], source := .skillInvocation name .instructions })
    appendSkills turn step (index + 1) rest

def appendSkillContext (messages : List Message) : TurnM Unit := do
  let context : Option SkillContext ←
    Fallible.ofResult (call (.skillCatalog messages))
  match context with
  | none => pure ()
  | some context => do
    appendOptional (context.catalog.map fun text => .userMessage
      (pluginMessage s!"skill-catalog-{turn}-{step}" text "@deepseek-ai/dsh-tool-skill"
        (some .catalog) none))
    appendSkills turn step 0 context.invoked

/-- `append_workspace_instructions`: an unreadable or unchanged file adds
nothing. -/
def appendWorkspaceInstructions (turn : Nat) : TurnM Unit := do
  let text : Option String ← ask .workspaceInstructions
  appendOptional (text.map fun text => .userMessage
    (pluginMessage s!"workspace-instructions-{turn}" text "tessivum-workspace-instructions"
      (some .instructions) (some "AGENTS.md")))

def appendRuntimeContext : TurnM Unit := do
  let context : Option (String × Nat) ← ask .runtimeContext
  appendOptional (context.map fun (text, ordinal) => .userMessage
    (pluginMessage s!"runtime-context-{turn}-{step}-{ordinal}" text
      "tessivum/runtime-context" none none))

def appendRequest : TurnM Unit := do
  let header : Option (Value × String) ← ask .requestHeaderReason
  appendOptional (header.map fun (header, reason) => .requestHeader header reason)
  let context : Option Value ← ask .requestContext
  appendOptional (context.map .requestContext)

/-! ## Generation -/

/-- `AgentError::to_string`. -/
def AgentError.display : AgentError → String
  | .session error => error.display
  | .runtime text => "agent runtime failed: " ++ text
  | .message error => error.display

/-- The error of an attempt whose chunk could not be appended. -/
def chunkAppendFailed (error : AgentError) : TessivumError :=
  { code := "SESSION_APPEND_FAILED", message := error.display, phase := "agent-loop"
    details := .null }

/-- The chunks of one stream, each appended as it arrives. A failed
append is an error of the attempt. -/
def consumeChunks (turn step : Nat) :
    List (Except TessivumError StreamChunk) → BlockAssembler → List Nat → Option LlmGeneration →
      Prog TurnQuery TurnQuery.Answer (Except TessivumError (LlmGeneration × List Nat))
  | [], _, seqs, some generation => pure (.ok (generation, seqs))
  | [], _, _, none => pure (.error (llmError "LLM_STREAM_ENDED_EARLY"
      "the LLM stream ended before a finish chunk" .null))
  | .error error :: _, _, _, _ => pure (.error error)
  | .ok chunk :: rest, assembler, seqs, generation =>
    match assembler.push chunk with
    | .error error => pure (.error error)
    | .ok (completed, assembler) => do
      let written ← (append (.assistantChunk turn step chunk)).run
      match written with
      | .error error => pure (.error (chunkAppendFailed error))
      | .ok seq =>
        consumeChunks turn step rest assembler (seqs ++ [seq]) (completed.or generation)

variable (provider model : String)

/-- `consume_generation_attempt`, over a provider and a model the request
names. -/
def consumeGenerationAttempt (turn step : Nat) :
    Prog TurnQuery TurnQuery.Answer (Except TessivumError (LlmGeneration × List Nat)) := do
  let stream : Except TessivumError (List (Except TessivumError StreamChunk)) ←
    call .generate
  match stream with
  | .error error => pure (.error error)
  | .ok chunks => do
    let id : MessageId ← call .messageId
    consumeChunks turn step chunks (.new provider model id) [] none

def isContextOverflow (code : String) : Bool :=
  code = "CONTEXT_OVERFLOW" ∨ code = "CONTEXT_WINDOW_EXCEEDED"
    ∨ code = "CONTEXT_LENGTH_EXCEEDED"

/-- `schedule_retry`, past what the policy decides. -/
def scheduleRetry (failure : LlmFailure) : TurnM Bool := do
  let plan : Option RetryPlan ← ask (.retryPolicy failure)
  match plan with
  | none => pure false
  | some plan => do
    appendEvent (.llmRetry turn step plan)
    let cancelled : Bool ← ask .isCancelled
    if cancelled then pure false
    else
      let interrupted : Bool ← ask .sleep
      if interrupted then pure false
      else
        let cancelled : Bool ← ask .isCancelled
        if cancelled then pure false
        else
          appendEvent (.llmRetryStarted plan.retryId turn step plan.retry)
          let cancelled : Bool ← ask .isCancelled
          pure (!cancelled)

/-- How a failed attempt goes on: another attempt, with or without an
overflow recovered, or the turn has ended. -/
inductive Recovery where
  | again (overflowRecovered : Bool)
  | ended
  deriving DecidableEq, Repr

/-- A failed attempt, after its overflow is dealt with: retry, or end the
turn. -/
def retryOrFail (recovered : Bool) (error : LlmFailure) : TurnM Recovery := do
  let retried ← scheduleRetry turn step error
  if retried then pure (.again recovered)
  else
    let cancelled : Bool ← ask .isCancelled
    if cancelled then do
      closeCancelledStep turn step
      pure .ended
    else do
      failTurn turn step error
      pure .ended

/-- The error branch of an attempt. A context overflow is compacted away
once per step. -/
def recoverAttempt (recovered : Bool) (error : LlmFailure) : TurnM Recovery := do
  if !recovered && isContextOverflow error.code then
    let compacted : CompactionAnswer Bool ← ask .compactOverflow
    match compacted.outcome with
    | .ok true => pure (.again true)
    | .ok false => retryOrFail turn step recovered error
    | .error failure => do
      failTurn turn step failure
      pure .ended
  else retryOrFail turn step recovered error

def failure (error : TessivumError) : LlmFailure :=
  { message := error.message, code := error.code, status := none
    providerRetryAfterMs := none, requestId := none }

/-- The generation loop of a step: a generation with the numbers of its
chunks, or nothing where the turn has ended. -/
def generateStep (provider model : String) (turn step : Nat) :
    Nat → Bool → Bool → TurnM (Option (LlmGeneration × List Nat))
  | 0, _, _ => Fallible.ofResult .stop
  | attempts + 1, first, recovered => do
    onlyIf (!first) (appendRuntimeContext turn step)
    let attempt : Except TessivumError (LlmGeneration × List Nat) ←
      ExceptT.lift (consumeGenerationAttempt provider model turn step)
    let again (error : LlmFailure) : TurnM (Option (LlmGeneration × List Nat)) := do
      match ← recoverAttempt turn step recovered error with
      | .again recovered => generateStep provider model turn step attempts false recovered
      | .ended => pure none
    match attempt with
    | .ok (generation, seqs) =>
      match generation.finishReason with
      | .error error => again error
      | .aborted _ => do
        closeCancelledStep turn step
        pure none
      | _ => pure (some (generation, seqs))
    | .error error => do
      let cancelled : Bool ← ask .isCancelled
      if cancelled then do
        closeCancelledStep turn step
        pure none
      else again (failure error)

/-! ## Tools -/

def toolCalls (message : Message) : List (ToolCallId × String × String) :=
  message.content.filterMap fun
    | .toolCall id name arguments => some (id, name, arguments)
    | _ => none

/-- The `tool/call` events, with their numbers. -/
def appendToolCalls (turn step : Nat) :
    List (ToolCallId × String × String) → TurnM (List Nat)
  | [] => pure []
  | (id, name, arguments) :: rest => do
    let seq ← append (.toolCall turn step id name arguments)
    let seqs ← appendToolCalls turn step rest
    pure (seq :: seqs)

/-- The tools run side by side; their outputs are taken in the order of
the calls. Arguments that are not JSON are answered without a run, by an
output of the same shape. -/
def executeTools : List (ToolCallId × String × String) →
    TurnM (List (ToolCallId × ToolOutput))
  | [] => pure []
  | (id, name, arguments) :: rest => do
    let output : ToolOutput ← ask (.executeTool id name arguments)
    let outputs ← executeTools rest
    pure ((id, output) :: outputs)

/-- The events a tool output carries, those with a type and data. -/
def codeDispatches (output : ToolOutput) : List (String × Value) :=
  (((output.metadata.get "codeDispatches").bind Value.asArray).getD []).filterMap fun dispatch => do
    let eventType ← (dispatch.get "type").bind Value.asStr
    let data ← dispatch.get "data"
    pure (eventType, data)

def appendDispatches : List (String × Value) → TurnM Unit
  | [] => pure ()
  | (eventType, data) :: rest => do
    appendEvent (.dispatch eventType data)
    appendDispatches rest

def deferredContext (turn step seq : Nat) (output : ToolOutput) : Option Message := do
  let context ← output.metadata.get "deferredContext"
  let plugin ← (context.get "plugin").bind Value.asStr
  let summary ← (context.get "summary").bind Value.asStr
  let text ← (context.get "text").bind Value.asStr
  pure (pluginMessage s!"tool-context-{turn}-{step}-{seq}" text plugin (some .notice)
    (some summary))

/-- The message of a `tool/result`. -/
def resultMessage (id : MessageId) (call : ToolCallId) (output : ToolOutput) : Message :=
  { id, role := .user, content := [.toolResult call output.content (some output.isError)]
    source := .tool call }

/-- One output: its dispatches, its result, its deferred context. -/
def appendOutput (call : ToolCallId) (output : ToolOutput) (seq : Nat) : TurnM Unit := do
  appendDispatches (codeDispatches output)
  let id : MessageId ← ask .messageId
  appendEvent (.toolResult turn step (resultMessage id call output) seq
    ((output.metadata.remove "deferredPlanExit").remove "deferredContext"))
  appendOptional ((deferredContext turn step seq output).map .userMessage)

/-- The outputs in order, and whether one of them leaves plan mode. -/
def appendOutputs (turn step : Nat) :
    List ((ToolCallId × ToolOutput) × Nat) → TurnM Bool
  | [] => pure false
  | ((call, output), seq) :: rest => do
    appendOutput turn step call output seq
    let exit ← appendOutputs turn step rest
    pure (((output.metadata.get "deferredPlanExit").bind Value.asBool).getD false || exit)

def runTools (assistant : Message) : TurnM Bool := do
  let calls := toolCalls assistant
  let seqs ← appendToolCalls turn step calls
  let outputs ← executeTools calls
  appendOutputs turn step (outputs.zip seqs)

/-! ## Steps and turns -/

/-- The finish of a step. It answers whether the turn goes on. -/
def finishStep (turn step maxSteps : Nat) (generation : LlmGeneration) : TurnM Bool :=
  match generation.finishReason with
  | .toolCalls => do
    let exitPlanMode ← runTools turn step generation.message
    closeStep turn step
    onlyIf exitPlanMode (appendEvent (.planMode false))
    let cancelled : Bool ← ask .isCancelled
    if cancelled then do
      endAborted turn
      pure false
    else if step = maxSteps then do
      endTurn turn .blocked
      pure false
    else pure true
  | .stop => do
    closeStep turn step
    let cancelled : Bool ← ask .isCancelled
    if cancelled then do
      endAborted turn
      pure false
    else
      let more : Bool ← ask .hasNextStep
      if more then
        if step = maxSteps then do
          endTurn turn .blocked
          pure false
        else pure true
      else do
        endTurn turn .completed
        pure false
  | .maxTokens => do
    closeStep turn step
    endTurn turn .maxTokens
    pure false
  | .error error => do
    failTurn turn step error
    pure false
  | .aborted _ => do
    closeCancelledStep turn step
    pure false

def generateAndFinish (attempts turn step maxSteps : Nat) : TurnM Bool := do
  let generated ← generateStep provider model turn step attempts true false
  match generated with
  | none => pure false
  | some (generation, seqs) => do
    let cancelled : Bool ← ask .isCancelled
    if cancelled then do
      closeCancelledStep turn step
      pure false
    else do
      appendEvent (.assistantMessage turn step generation.message generation.usage seqs)
      finishStep turn step maxSteps generation

def requestStep (attempts turn step maxSteps : Nat) : TurnM Bool := do
  appendRuntimeContext turn step
  Fallible.ofResult (call .assemblePrompt)
  let compacted : CompactionAnswer Unit ← ask .compactPressure
  match compacted.outcome with
  | .error error => do
    failTurn turn step error
    pure false
  | .ok () => do
    appendRequest
    generateAndFinish provider model attempts turn step maxSteps

def runStep (attempts turn step maxSteps : Nat) (initial : Option Message) : TurnM Bool := do
  appendEvent (.stepStart turn step)
  let claimed : List Message ← Fallible.ofResult (call .claimStepBatch)
  let messages := claimed ++ initial.toList
  appendMessages messages
  appendSkillContext turn step messages
  onlyIf (step = 1) (appendWorkspaceInstructions turn)
  let cancelled : Bool ← ask .isCancelled
  if cancelled then do
    closeCancelledStep turn step
    pure false
  else requestStep provider model attempts turn step maxSteps

def runSteps (provider model : String) (attempts turn maxSteps : Nat) :
    Nat → Option Message → TurnM Unit
  | 0, _ => endTurn turn .blocked
  | remaining + 1, initial => do
    let cancelled : Bool ← ask .isCancelled
    if cancelled then endAborted turn
    else
      let more ← runStep provider model attempts turn (maxSteps - remaining) maxSteps initial
      if more then runSteps provider model attempts turn maxSteps remaining none else pure ()

def runTurn (attempts maxSteps : Nat) (initial : Message) : TurnM Unit := do
  let cancelled : Bool ← ask .isCancelled
  if cancelled then pure ()
  else
    let turn : Nat ← ask .nextTurn
    appendEvent (.turnStart turn)
    runSteps provider model attempts turn maxSteps maxSteps (some initial)

/-! ## The log of a turn -/

/-- The events a compaction brings. -/
def compactionEvents : (q : TurnQuery) → q.Answer → List TurnEvent
  | .compactPressure, (compacted : CompactionAnswer Unit) => compacted.events.map .compaction
  | .compactOverflow, (compacted : CompactionAnswer Bool) => compacted.events.map .compaction
  | _, _ => []

/-- The log after one question: an append that went through adds its
event, and a compaction those of its own. -/
def observe (log : List TurnEvent) : (q : TurnQuery) → q.Answer → List TurnEvent
  | .append event _, .ok _ => log ++ [event]
  | .compactPressure, compacted => log ++ compactionEvents .compactPressure compacted
  | .compactOverflow, compacted => log ++ compactionEvents .compactOverflow compacted
  | _, _ => log

end Tessivum.Agent
