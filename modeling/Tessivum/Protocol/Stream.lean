/-
Tessivum.Protocol.Stream — the raw streaming protocol of a model adapter
and its validation (`StreamChunk`, `FinishReason`, `LlmFailure` and
`TokenUsage` of `src/protocol.rs`).
-/
import Tessivum.Protocol.Message

namespace Tessivum.Protocol

open Library

/-- Opaque identity of a provider's request. -/
structure ProviderRequestId where
  asStr : String
  deriving DecidableEq, Repr

/-- Serializable provider or transport failure facts. -/
structure LlmFailure where
  message : String
  code : String
  status : Option Nat
  providerRetryAfterMs : Option Nat
  requestId : Option ProviderRequestId
  deriving DecidableEq, Repr

def validatePositiveOptional (name : String) : Option Nat → Except TessivumError Unit :=
  validateOptional fun value => do
    checkSafeInteger name value
    failIf (value = 0) (invalid "INVALID_POSITIVE_VALUE"
      "optional numeric protocol fields must be positive when present"
      (.object [("field", .string name), ("value", .ofNat value)]))

def LlmFailure.validate (failure : LlmFailure) : Except TessivumError Unit := do
  failIf (isBlank failure.message || isBlank failure.code) (invalid "INVALID_LLM_FAILURE"
    "LLM failure message and code must be non-empty" .null)
  validateOptional (fun status => failIf (¬(100 ≤ status ∧ status ≤ 599))
    (invalid "INVALID_LLM_FAILURE_STATUS" "LLM failure status must be an HTTP status code"
      (.object [("status", .ofNat status)]))) failure.status
  validatePositiveOptional "providerRetryAfterMs" failure.providerRetryAfterMs
  validateOptional (fun id => validateNonempty "INVALID_LLM_REQUEST_ID" "requestId" id.asStr)
    failure.requestId

/-- Token accounting for one model call. -/
structure TokenUsage where
  inputTokens : Nat
  outputTokens : Nat
  cacheReadTokens : Option Nat
  cacheWriteTokens : Option Nat
  reasoningTokens : Option Nat
  deriving DecidableEq, Repr

def TokenUsage.validate (usage : TokenUsage) : Except TessivumError Unit := do
  checkSafeInteger "inputTokens" usage.inputTokens
  checkSafeInteger "outputTokens" usage.outputTokens
  validateOptional (checkSafeInteger "cacheReadTokens") usage.cacheReadTokens
  validateOptional (checkSafeInteger "cacheWriteTokens") usage.cacheWriteTokens
  validateOptional (checkSafeInteger "reasoningTokens") usage.reasoningTokens

/-- Why a model response stopped. -/
inductive FinishReason where
  | stop
  | toolCalls
  | maxTokens
  | aborted (failure : LlmFailure)
  | error (failure : LlmFailure)
  deriving DecidableEq, Repr

def FinishReason.validate : FinishReason → Except TessivumError Unit
  | .aborted failure => failure.validate
  | .error failure => failure.validate
  | _ => .ok ()

def ContentBlock.typeTag : ContentBlock → String
  | .text _ => "text"
  | .reasoning _ => "reasoning"
  | .image _ => "image"
  | .toolCall _ _ _ => "tool-call"
  | .toolResult _ _ _ => "tool-result"

/-- Raw streaming protocol emitted by a model adapter. -/
inductive StreamChunk where
  | blockStart (index : Nat) (blockType : String)
  | textDelta (index : Nat) (text : String)
  | reasoningDelta (index : Nat) (text : String)
  | toolCallDelta (index : Nat) (id : ToolCallId) (name : Option String) (argumentsDelta : String)
  | blockEnd (index : Nat) (block : ContentBlock)
  | usage (tokens : TokenUsage)
  | finish (reason : FinishReason) (replayState : Option Value)
  deriving DecidableEq, Repr

def validateBlockType (blockType : String) : Except TessivumError Unit :=
  failIf (blockType ∉ ["text", "reasoning", "image", "tool-call", "tool-result"])
    (invalid "INVALID_STREAM_BLOCK_TYPE" "blockType must name a known content block type"
      (.object [("blockType", .string blockType)]))

def StreamChunk.validate : StreamChunk → Except TessivumError Unit
  | .blockStart index blockType => do
    checkSafeInteger "index" index
    validateBlockType blockType
  | .textDelta index _ => checkSafeInteger "index" index
  | .reasoningDelta index _ => checkSafeInteger "index" index
  | .toolCallDelta index _ _ _ => checkSafeInteger "index" index
  | .blockEnd index block => do
    checkSafeInteger "index" index
    block.validate
  | .usage tokens => tokens.validate
  | .finish reason _ => reason.validate

end Tessivum.Protocol
