/-
Tessivum.Compaction.Execute — running a compaction
(`CompactionService::execute` of `src/compaction.rs`) among concurrent writers.

An attempt appends up to four events: the start, the summary, the replacement
of the selected region, and the end. `Environment` says what the others call at
each point, what every read of the cancellation token answers, and what the
model call gives.

The request sent to the model is left out: its answer is arbitrary.
-/
import Tessivum.Compaction.Plan

namespace Tessivum.Compaction

open Library Protocol Session

/-! ## Runs -/

/-- One append call, with its result. -/
structure Attempt where
  own : Bool
  event : SessionEvent
  token : Cancellation
  result : Except SessionError Unit

/-- The live session and the append calls made so far. -/
structure Run (σ : Type) where
  live : Live σ
  attempts : List Attempt

structure AppendSpec where
  eventType : String
  data : Value
  sourceEventSeqs : Option (List Nat)
  surfaceOp : Option SurfaceOp
  expectedSurfaceEventSeqs : Option (List Nat)
  ignorable : Option Bool

def AppendSpec.build (spec : AppendSpec) (seq : Nat) : SessionEvent :=
  { eventType := spec.eventType, seq, time := 0, data := spec.data, ignorable := spec.ignorable
    sourceEventSeqs := spec.sourceEventSeqs, surfaceOp := spec.surfaceOp }

def callToken : Call → Cancellation
  | .append _ token => token
  | .appendNext _ token => token
  | .appendIfSurface _ _ token => token
  | .appendNextIfSurface _ _ token => token

section Runs

variable {σ : Type} (S : Serde) (P : Persistence σ)

def Run.foreignCall (run : Run σ) (c : Call) : Run σ :=
  let (result, live) := run.live.call S P c
  { live, attempts := run.attempts ++
      [{ own := false, event := c.event run.live, token := callToken c, result }] }

def Run.interfere (run : Run σ) (calls : List Call) : Run σ := calls.foldl (Run.foreignCall S P) run

/-- `append`, as a call of the attempt. -/
def Run.append (run : Run σ) (spec : AppendSpec) (token : Cancellation) :
    Except SessionError Nat × Run σ :=
  let call := Call.appendNextIfSurface spec.build spec.expectedSurfaceEventSeqs token
  let (result, live) :=
    run.live.appendNextIfSurface S P spec.build spec.expectedSurfaceEventSeqs token
  (result, { live, attempts := run.attempts ++
    [{ own := true, event := call.event run.live, token, result := result.map fun _ => () }] })

end Runs

/-! ## Environments -/

/-- The points at which other writers may call. -/
inductive Point where
  | turn | start | summary | replacement | finish | close
  deriving DecidableEq, Repr

/-- Everything that is not decided by the attempt itself. -/
structure Environment where
  compactionId : String
  /-- The calls of the other writers at each point. -/
  calls : Point → List Call
  /-- The model call. -/
  outcome : Except TessivumError LlmGeneration
  /-- `is_cancelled` on entry, after the model call, when the summary
  append has failed, after it has succeeded, and when the replacement
  append has failed. -/
  cancelledOnEntry : Bool
  cancelledAfterModel : Bool
  cancelledAfterSummaryError : Bool
  cancelledAfterSummary : Bool
  cancelledAfterReplacementError : Bool
  /-- The token as the three cancellable appends read it. -/
  startToken : Cancellation
  summaryToken : Cancellation
  replacementToken : Cancellation

/-- The parts of the service an attempt reads. -/
structure Service where
  config : CompactionConfig
  /-- `serde_json` of a message and of content blocks. -/
  text : Message → Option String
  contentToValue : List ContentBlock → Value
  /-- `context_window_resolver` for the configured model. -/
  contextWindow : Option Nat

/-! ## The attempt -/

def defaultSystemPrompt : String :=
  "Summarize the supplied conversation faithfully. Return only the summary as plain text; do not call tools."

def summaryTokenLimit (service : Service) (id : SessionId) : Option Nat := do
  let window ← service.contextWindow
  let reserve := service.config.maxTokens.getD (max (window / 4) 1)
  let overhead := (service.config.system.getD defaultSystemPrompt).utf8ByteSize
    + service.config.provider.utf8ByteSize + service.config.model.utf8ByteSize
    + id.asStr.utf8ByteSize + 256
  some (window - reserve - overhead)

/-- One turn of the loop of `open_turn`. -/
def openTurnStep (turn : Option Nat) (e : SessionEvent) : Option Nat :=
  let named := (e.data.get "turn").bind Value.asU64
  if e.eventType = "turn/start" then named
  else if e.eventType = "turn/end" ∧ named = turn then none
  else turn

def openTurn (events : List SessionEvent) : Option Nat := events.foldl openTurnStep none

def noteSpec (eventType : String) (data : Value) : AppendSpec :=
  { eventType, data, sourceEventSeqs := none, surfaceOp := none
    expectedSurfaceEventSeqs := none, ignorable := some true }

def startSpec (compactionId : String) (turn : Option Nat) : AppendSpec :=
  noteSpec "compaction/start"
    (.object [("compactionId", .string compactionId), ("turn", .ofOptNat turn)])

def summarySpec (service : Service) (plan : Plan) (compactionId : String)
    (generation : LlmGeneration) (summary : List ContentBlock) : AppendSpec :=
  noteSpec "compaction/summary" (.object
    [("compactionId", .string compactionId), ("llmStreamCall", .bool true),
     ("model", .string service.config.model), ("provider", .string service.config.provider),
     ("rawOutput", service.contentToValue generation.message.content),
     ("shadowedRange", .object [("end", .ofOptNat plan.shadowedEventSeqs.getLast?),
       ("start", .ofOptNat plan.shadowedEventSeqs.head?)]),
     ("shadowedSeqs", .array (plan.shadowedEventSeqs.map Value.ofNat)),
     ("shadowedTokenCount", .ofNat plan.tokenEstimate),
     ("summary", service.contentToValue summary), ("usage", generation.usage)])

def replacementSpec (S : Serde) (plan : Plan) (startSeq summarySeq stop : Nat)
    (replacement : Message) : AppendSpec :=
  { eventType := "user/message", data := S.messageToValue replacement
    sourceEventSeqs := some (startSeq :: summarySeq :: plan.shadowedEventSeqs)
    surfaceOp := some (.replace plan.range.start stop)
    expectedSurfaceEventSeqs := some plan.expectedSurfaceEventSeqs, ignorable := none }

def endSpec (compactionId : String) (turn : Option Nat) (error : Option CompactionError) :
    AppendSpec :=
  noteSpec "compaction/end" (.object ([("compactionId", .string compactionId)]
    ++ optField "error" (error.map fun err => .string err.display)
    ++ [("turn", .ofOptNat turn)]))

/-- The model's answer and its summary, or the error the attempt ends
with. -/
def checkedSummary (service : Service) (env : Environment) :
    Except CompactionError (LlmGeneration × List ContentBlock) := do
  let generation ← env.outcome.mapError fun err =>
    if env.cancelledAfterModel then .cancelled else .llm err
  failIf env.cancelledAfterModel .cancelled
  checkFinish generation.finishReason
  let summary ← summaryBlocks generation.message service.config.maxSummaryCodepoints
  .ok (generation, summary)

def compactionSessionError (cancelled : Bool) (err : SessionError) : CompactionError :=
  if cancelled ∨ err = .cancelled then .cancelled else .session err

structure CompactionEventSeqs where
  start : Nat
  summary : Nat
  replacement : Nat
  stop : Nat
  deriving DecidableEq, Repr

structure CompactionResult where
  compactionId : String
  trigger : CompactionTrigger
  range : CompactionRange
  shadowedEventSeqs : List Nat
  tokenEstimate : Nat
  eventSeqs : CompactionEventSeqs
  deriving DecidableEq, Repr

section Execute

variable {σ : Type} (S : Serde) (P : Persistence σ) (service : Service) (env : Environment)

/-- `append_end`: the token is a fresh one, which nobody cancels. -/
def appendEnd (run : Run σ) (turn : Option Nat) (error : Option CompactionError) :
    Except SessionError Nat × Run σ :=
  (run.interfere S P (env.calls .close)).append S P (endSpec env.compactionId turn error) .never

def finishError (run : Run σ) (err : CompactionError) :
    Except CompactionError CompactionResult × Run σ :=
  let run := run.interfere S P (env.calls .finish)
  match appendEnd S P env run (openTurn run.live.state.events) (some err) with
  | (.error failure, run) => (.error (.session failure), run)
  | (.ok _, run) => (.error err, run)

/-- `plan.range.end.checked_add(1)`. -/
def exclusiveEnd (range : CompactionRange) : Except CompactionError Nat :=
  if range.last + 1 < u64Bound then .ok (range.last + 1)
  else .error (invalidCompaction "INVALID_COMPACTION_REGION"
    "compaction range end cannot be represented as an exclusive bound"
    (.object [("end", .ofNat range.last)]))

variable (trigger : CompactionTrigger)

/-- The replacement and the end, after the summary. A region that cannot
be written as an exclusive one returns at once, without an end event. -/
def executeReplacement (plan : Plan) (turn : Option Nat) (startSeq summarySeq : Nat)
    (replacement : Message) (run : Run σ) : Except CompactionError CompactionResult × Run σ :=
  match exclusiveEnd plan.range with
  | .error err => (.error err, run)
  | .ok stop =>
    match (run.interfere S P (env.calls .replacement)).append S P
        (replacementSpec S plan startSeq summarySeq stop replacement) env.replacementToken with
    | (.error err, run) =>
      finishError S P env run
        (compactionSessionError env.cancelledAfterReplacementError err)
    | (.ok replacementSeq, run) =>
      match appendEnd S P env run turn none with
      | (.error failure, run) => (.error (.session failure), run)
      | (.ok endSeq, run) =>
        (.ok { compactionId := env.compactionId, trigger, range := plan.range
               shadowedEventSeqs := plan.shadowedEventSeqs
               tokenEstimate := plan.tokenEstimate
               eventSeqs := { start := startSeq, summary := summarySeq
                              replacement := replacementSeq, stop := endSeq } }, run)

/-- The sizes of the selected messages that can be counted. -/
def selectedCodepoints (plan : Plan) : Nat :=
  (plan.messages.filterMap (serializedCodepoints service.text)).sum

def executeSummary (plan : Plan) (turn : Option Nat) (startSeq summarySeq : Nat)
    (summary : List ContentBlock) (run : Run σ) : Except CompactionError CompactionResult × Run σ :=
  let replacement := summaryMessage startSeq env.compactionId summary
  let replacementCodepoints :=
    (serializedCodepoints service.text replacement).getD (u64Bound - 1)
  if env.cancelledAfterSummary then finishError S P env run .cancelled
  else if replacementCodepoints ≥ selectedCodepoints service plan then
    finishError S P env run (invalidCompaction "COMPACTION_NO_PROGRESS"
      "compaction summary does not reduce serialized input"
      (.object [("replacementCodepoints", .ofNat replacementCodepoints),
        ("selectedCodepoints", .ofNat (selectedCodepoints service plan))]))
  else executeReplacement S P env trigger plan turn startSeq summarySeq replacement run

def executeStarted (plan : Plan) (turn : Option Nat) (startSeq : Nat) (run : Run σ) :
    Except CompactionError CompactionResult × Run σ :=
  match checkedSummary service env with
  | .error err => finishError S P env run err
  | .ok (generation, summary) =>
    match (run.interfere S P (env.calls .summary)).append S P
        (summarySpec service plan env.compactionId generation summary) env.summaryToken with
    | (.error err, run) =>
      finishError S P env run (compactionSessionError env.cancelledAfterSummaryError err)
    | (.ok summarySeq, run) =>
      executeSummary S P service env trigger plan turn startSeq summarySeq summary run

def execute (plan : Plan) (run : Run σ) : Except CompactionError CompactionResult × Run σ :=
  if env.cancelledOnEntry then (.error .cancelled, run)
  else if ∃ limit ∈ summaryTokenLimit service run.live.header.id,
      (plan.messages.map (messageTokenEstimate service.text)).sum > limit then
    (.error (invalidCompaction "COMPACTION_INPUT_TOO_LARGE"
      "Selected history exceeds the summary model's available input budget." .null), run)
  else
    let run := run.interfere S P (env.calls .turn)
    let turn := openTurn run.live.state.events
    match (run.interfere S P (env.calls .start)).append S P (startSpec env.compactionId turn)
        env.startToken with
    | (.error err, run) => (.error (.session err), run)
    | (.ok startSeq, run) => executeStarted S P service env trigger plan turn startSeq run

/-- `CompactionService::compact_region`. `busy` says that another attempt
holds the lease, and `cancelled` what the first read of the token
answers. -/
def compactRegion (busy cancelled : Bool) (range : CompactionRange) (live : Live σ) :
    Except CompactionError CompactionResult × Run σ :=
  let run : Run σ := { live, attempts := [] }
  if cancelled then (.error .cancelled, run)
  else if busy then (.error (.busy live.header.id), run)
  else
    match planFromSurface service.config service.text live.state.surface range
        service.config.maxInputCodepoints with
    | .error err => (.error err, run)
    | .ok plan => execute S P service env .manual plan run

end Execute

end Tessivum.Compaction
