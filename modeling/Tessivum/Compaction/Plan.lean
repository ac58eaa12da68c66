/-
Tessivum.Compaction.Plan — planning a compaction (`src/compaction.rs`): what
the service is configured with, the errors it reports, and the pure checks on
the selected region and on the model's summary.

A region is an inclusive range of positions on the current surface. It must be
ordered and inside the surface, within the configured bounds, and may not cut a
tool call from its result.

`serde_json::to_string` of a message is the parameter `text`: only its length
is used. Sums of sizes are unbounded here; the source's `u64` sums overflow far
beyond what a process can hold.
-/
import Tessivum.Session.Store

namespace Tessivum.Compaction

open Library Protocol Session

/-! ## Configuration and errors -/

/-- An inclusive range of surface positions. -/
structure CompactionRange where
  start : Nat
  last : Nat
  deriving DecidableEq, Repr

/-- The configuration a run reads. -/
structure CompactionConfig where
  provider : String
  model : String
  maxTokens : Option Nat
  system : Option String
  maxSurfaceMessages : Nat
  maxInputCodepoints : Nat
  maxSummaryCodepoints : Nat
  deriving DecidableEq, Repr

/-- The caller-visible reason of an attempt. -/
inductive CompactionTrigger where
  | manual | pressure | contextOverflow
  deriving DecidableEq, Repr

/-- Failures reported by the compaction boundary. -/
inductive CompactionError where
  | busy (session : SessionId)
  | cancelled
  | invalid (error : TessivumError)
  | llm (error : TessivumError)
  | session (error : SessionError)
  deriving DecidableEq, Repr

/-- `CompactionError::to_string`. -/
def CompactionError.display : CompactionError → String
  | .busy id => "compaction is already running for session " ++ id.asStr
  | .cancelled => "compaction was cancelled"
  | .invalid error => error.display
  | .llm error => "LLM summarization failed: " ++ error.display
  | .session error => error.display

/-- `compaction::invalid`. -/
def invalidCompaction (code message : String) (details : Value) : CompactionError :=
  .invalid { code, message, phase := "compaction", details }

/-! ## Sizes -/

def codepoints (text : String) : Nat := text.length

def serializedCodepoints (text : Message → Option String) (message : Message) : Option Nat :=
  (text message).map codepoints

/-- `tokens_for`, with its saturating addition. -/
def tokensFor (codepoints : Nat) : Nat := min (codepoints + 3) (u64Bound - 1) / 4

mutual
def media : ContentBlock → Nat
  | .image _ => 16384
  | .toolResult _ content _ => mediaSum content
  | .text _ => 0
  | .reasoning _ => 0
  | .toolCall _ _ _ => 0

def mediaSum : List ContentBlock → Nat
  | [] => 0
  | block :: rest => media block + mediaSum rest
end

def messageTokenEstimate (text : Message → Option String) (message : Message) : Nat :=
  let bytes := match text message with
    | some text => text.utf8ByteSize + 1
    | none => u64Bound - 1
  min (bytes + mediaSum message.content) (u64Bound - 1)

/-! ## Tool pairs -/

def inRange (index : Nat) (range : CompactionRange) : Bool :=
  range.start ≤ index && index ≤ range.last

def toolCalls (message : Message) : List String :=
  message.content.filterMap fun
    | .toolCall id _ _ => some id.asStr
    | _ => none

mutual
def collectToolResults : ContentBlock → List String
  | .toolResult toolCallId content _ => toolCallId.asStr :: collectBlocks content
  | .text _ => []
  | .reasoning _ => []
  | .image _ => []
  | .toolCall _ _ _ => []

def collectBlocks : List ContentBlock → List String
  | [] => []
  | block :: rest => collectToolResults block ++ collectBlocks rest
end

def toolResults (message : Message) : List String := collectBlocks message.content

/-- The calls without a result so far, each with the surface position it
was made at, in key order. -/
abbrev Pending : Type := List (String × Nat)

/-- `BTreeMap::insert`, the new value in the place of an old one. -/
def Pending.insert (call : String) (index : Nat) : Pending → Pending
  | [] => [(call, index)]
  | (key, value) :: rest =>
    if call = key then (call, index) :: rest
    else if call < key then (call, index) :: (key, value) :: rest
    else (key, value) :: Pending.insert call index rest

def Pending.remove (pending : Pending) (call : String) : Pending :=
  pending.filter fun entry => entry.1 ≠ call

def pairCalls (range : CompactionRange) (index : Nat) :
    Pending → List String → Except CompactionError Pending
  | pending, [] => .ok pending
  | pending, call :: rest => do
    failIf (∃ previous ∈ pending.lookup call, inRange index range = true
        ∨ inRange previous range = true)
      (invalidCompaction "INVALID_TOOL_PAIR_ORDER" "a tool call id is active more than once"
        (.object [("toolCallId", .string call)]))
    pairCalls range index (pending.insert call index) rest

def pairResults (range : CompactionRange) (index : Nat) :
    Pending → List String → Except CompactionError Pending
  | pending, [] => .ok pending
  | pending, result :: rest => do
    failIf (∃ call ∈ pending.lookup result, inRange index range ≠ inRange call range)
      (invalidCompaction "UNBALANCED_TOOL_PAIR"
        "compaction region must contain both sides of every tool pair"
        (.object [("toolCallId", .string result)]))
    failIf (pending.lookup result = none ∧ inRange index range = true)
      (invalidCompaction "INVALID_TOOL_PAIR_ORDER"
        "a selected tool result has no earlier active tool call"
        (.object [("toolCallId", .string result)]))
    pairResults range index (pending.remove result) rest

def pairSurface (range : CompactionRange) :
    Nat → Pending → List SurfaceMessage → Except CompactionError Pending
  | _, pending, [] => .ok pending
  | index, pending, entry :: rest => do
    let pending ← pairCalls range index pending (toolCalls entry.message)
    let pending ← pairResults range index pending (toolResults entry.message)
    pairSurface range (index + 1) pending rest

def validateToolPairs (surface : List SurfaceMessage) (range : CompactionRange) :
    Except CompactionError Unit := do
  let pending ← pairSurface range 0 [] surface
  match pending.find? fun entry => inRange entry.2 range with
  | some (call, _) => .error (invalidCompaction "UNBALANCED_TOOL_PAIR"
      "a selected tool call has no matching tool result" (.object [("toolCallId", .string call)]))
  | none => .ok ()

/-! ## The plan -/

structure Plan where
  range : CompactionRange
  expectedSurfaceEventSeqs : List Nat
  shadowedEventSeqs : List Nat
  messages : List Message
  tokenEstimate : Nat
  deriving DecidableEq, Repr

def rangeSlice (surface : List SurfaceMessage) (range : CompactionRange) :
    Except CompactionError (List SurfaceMessage) := do
  failIf (range.start > range.last ∨ range.last ≥ surface.length)
    (invalidCompaction "INVALID_COMPACTION_REGION"
      "compaction range must be ordered and inside the current surface"
      (.object [("end", .ofNat range.last), ("start", .ofNat range.start),
        ("surfaceLength", .ofNat surface.length)]))
  .ok ((surface.drop range.start).take (range.last + 1 - range.start))

/-- The sum of the sizes of the selected messages, if all can be counted
and a `u64` holds it. -/
def inputCodepoints (text : Message → Option String) : List Message → Option Nat
  | [] => some 0
  | message :: rest => do
    let count ← serializedCodepoints text message
    let total ← inputCodepoints text rest
    if count + total < u64Bound then some (count + total) else none

def planFromSurface (config : CompactionConfig) (text : Message → Option String)
    (surface : List SurfaceMessage) (range : CompactionRange) (inputCodepointLimit : Nat) :
    Except CompactionError Plan := do
  let selected ← rangeSlice surface range
  failIf (selected.length > config.maxSurfaceMessages)
    (invalidCompaction "COMPACTION_REGION_TOO_LARGE"
      "compaction region exceeds the configured message bound"
      (.object [("maximum", .ofNat config.maxSurfaceMessages),
        ("messages", .ofNat selected.length)]))
  validateToolPairs surface range
  let messages := selected.map SurfaceMessage.message
  match inputCodepoints text messages with
  | none => .error (invalidCompaction "COMPACTION_INPUT_TOO_LARGE"
      "compaction input is too large to count safely" .null)
  | some count => do
    failIf (count > inputCodepointLimit) (invalidCompaction "COMPACTION_INPUT_TOO_LARGE"
      "compaction input exceeds the configured codepoint bound"
      (.object [("codepoints", .ofNat count), ("maximum", .ofNat inputCodepointLimit)]))
    .ok { range, expectedSurfaceEventSeqs := surfaceSeqs surface
          shadowedEventSeqs := surfaceSeqs selected, messages, tokenEstimate := tokensFor count }

/-! ## The summary -/

/-- Serializable provider or transport failure facts. -/
structure LlmFailure where
  message : String
  code : String
  status : Option Nat
  providerRetryAfterMs : Option Nat
  requestId : Option String
  deriving DecidableEq, Repr

/-- How one model call ended. -/
inductive FinishReason where
  | stop
  | toolCalls
  | maxTokens
  | aborted (failure : LlmFailure)
  | error (failure : LlmFailure)
  deriving DecidableEq, Repr

/-- A completed model call. The usage is only embedded in an event. -/
structure LlmGeneration where
  message : Message
  finishReason : FinishReason
  usage : Value

def optField (key : String) : Option Value → List (String × Value)
  | none => []
  | some v => [(key, v)]

/-- A failure as `serde_json::to_value` gives it. -/
def LlmFailure.toValue (failure : LlmFailure) : Value :=
  .object ([("code", .string failure.code), ("message", .string failure.message)]
    ++ optField "providerRetryAfterMs" (failure.providerRetryAfterMs.map Value.ofNat)
    ++ optField "requestId" (failure.requestId.map Value.string)
    ++ optField "status" (failure.status.map Value.ofNat))

/-- The two finish reasons that are neither an end nor a failure. -/
def unfinished (kind : String) : CompactionError :=
  invalidCompaction "INVALID_COMPACTION_SUMMARY"
    "compaction summary must finish normally without tool calls"
    (.object [("finishReason", .object [("kind", .string kind)])])

def checkFinish : FinishReason → Except CompactionError Unit
  | .stop => .ok ()
  | .aborted _ => .error .cancelled
  | .error failure => .error (.llm { code := failure.code, message := failure.message
                                     phase := "llm", details := failure.toValue })
  | .toolCalls => .error (unfinished "tool-calls")
  | .maxTokens => .error (unfinished "max-tokens")

/-- The loop of `summary_blocks`: the text blocks and their length. -/
def summaryText : List ContentBlock → Except CompactionError (List ContentBlock × Nat)
  | [] => .ok ([], 0)
  | .text text :: rest => do
    let (blocks, count) ← summaryText rest
    .ok (.text text :: blocks, codepoints text + count)
  | .reasoning _ :: rest => summaryText rest
  | .image _ :: _ => summaryRefused
  | .toolCall _ _ _ :: _ => summaryRefused
  | .toolResult _ _ _ :: _ => summaryRefused
where
  summaryRefused : Except CompactionError (List ContentBlock × Nat) :=
    .error (invalidCompaction "INVALID_COMPACTION_SUMMARY"
      "compaction summary may contain only text and reasoning blocks" .null)

def isBlankText : ContentBlock → Bool
  | .text text => isBlank text
  | _ => false

def summaryBlocks (message : Message) (maxCodepoints : Nat) :
    Except CompactionError (List ContentBlock) := do
  let (summary, count) ← summaryText message.content
  failIf (summary.all isBlankText) (invalidCompaction "INVALID_COMPACTION_SUMMARY"
    "compaction summary must contain text" .null)
  failIf (min count (u64Bound - 1) > maxCodepoints)
    (invalidCompaction "COMPACTION_SUMMARY_TOO_LARGE"
      "compaction summary exceeds the configured codepoint bound"
      (.object [("maximum", .ofNat maxCodepoints)]))
  .ok summary

def summaryMessage (startSeq : Nat) (compactionId : String) (content : List ContentBlock) :
    Message :=
  { id := ⟨"compaction-" ++ toString startSeq⟩, role := .user, content
    source := .plugin "compact" (some compactionId) none none none }

end Tessivum.Compaction
