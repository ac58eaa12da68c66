/-
Tessivum.Llm.Assembler — assembling a provider stream into one assistant
message (`BlockAssembler` of `src/llm.rs`).

The assembler takes chunks one by one, keeps a record per block index and
refuses a stream that is not well formed. The finish chunk settles the
blocks that are still open and gives the generation. Tool arguments are
never interpreted, and call ids are taken as the provider gives them.
-/
import Tessivum.Protocol.Stream

namespace Tessivum.Llm

open Library Protocol

def llmError (code message : String) (details : Value) : TessivumError :=
  { code, message, phase := "llm", details }

def streamError (message : String) (index : Nat) : TessivumError :=
  llmError "INVALID_LLM_STREAM" message (.object [("index", .ofNat index)])

/-- A block that has started and not ended. -/
inductive OpenBlock where
  | text (assembled : String)
  | reasoning (assembled : String)
  | toolCall (id : Option ToolCallId) (name : Option String)
  | direct (blockType : String)
  deriving DecidableEq, Repr

inductive BlockStatus where
  | opened (block : OpenBlock)
  | closed (block : ContentBlock)
  | omitted
  deriving DecidableEq, Repr

/-- The result formed from one terminal provider stream. -/
structure LlmGeneration where
  message : Message
  usage : Option TokenUsage
  finishReason : FinishReason
  chunks : List StreamChunk
  deriving DecidableEq, Repr

/-- `BlockAssembler`. The records are kept in the order of their
indexes, as the `BTreeMap` of the source has them. -/
structure BlockAssembler where
  provider : String
  model : String
  messageId : MessageId
  blocks : List (Nat × BlockStatus)
  usage : Option TokenUsage
  chunks : List StreamChunk
  finishReason : Option FinishReason
  replayState : Option Value

namespace BlockAssembler

/-- `BlockAssembler::with_message_id`. -/
def new (provider model : String) (messageId : MessageId) : BlockAssembler :=
  { provider, model, messageId, blocks := [], usage := none, chunks := []
    finishReason := none, replayState := none }

/-- `finished`: set together with the finish reason. -/
def finished (assembler : BlockAssembler) : Bool := assembler.finishReason.isSome

/-- `BTreeMap::get`. -/
def lookup (blocks : List (Nat × BlockStatus)) (index : Nat) : Option BlockStatus :=
  (blocks.find? fun record => record.1 == index).map Prod.snd

/-- `BTreeMap::insert` of a new index. -/
def insertBlock (index : Nat) (status : BlockStatus) :
    List (Nat × BlockStatus) → List (Nat × BlockStatus)
  | [] => [(index, status)]
  | record :: rest =>
    if index < record.1 then (index, status) :: record :: rest
    else record :: insertBlock index status rest

def setBlock (index : Nat) (status : BlockStatus) (blocks : List (Nat × BlockStatus)) :
    List (Nat × BlockStatus) :=
  blocks.map fun record => if record.1 = index then (index, status) else record

def startBlock (blockType : String) : OpenBlock :=
  if blockType = "text" then .text ""
  else if blockType = "reasoning" then .reasoning ""
  else if blockType = "tool-call" then .toolCall none none
  else .direct blockType

/-- `with_open`: a delta of a closed or omitted block is inert. -/
def withOpen (assembler : BlockAssembler) (index : Nat) (action : String)
    (operation : OpenBlock → Except TessivumError OpenBlock) :
    Except TessivumError BlockAssembler :=
  match lookup assembler.blocks index with
  | none => .error (streamError (action ++ " requires an open block") index)
  | some (.opened block) => do
    let block ← operation block
    .ok { assembler with blocks := setBlock index (.opened block) assembler.blocks }
  | some _ => .ok assembler

def pushText (index : Nat) (text : String) : OpenBlock → Except TessivumError OpenBlock
  | .text assembled => .ok (.text (assembled ++ text))
  | _ => .error (streamError "text delta does not match its block type" index)

def pushReasoning (index : Nat) (text : String) : OpenBlock → Except TessivumError OpenBlock
  | .reasoning assembled => .ok (.reasoning (assembled ++ text))
  | _ => .error (streamError "reasoning delta does not match its block type" index)

def pushToolCall (index : Nat) (id : ToolCallId) (name : Option String) :
    OpenBlock → Except TessivumError OpenBlock
  | .toolCall seenId seenName => do
    failIf (seenId.any fun seen => seen != id)
      (streamError "tool-call deltas must retain one call id" index)
    failIf (seenName.any fun seen => name.any fun incoming => seen != incoming)
      (streamError "tool-call deltas must retain one tool name" index)
    .ok (.toolCall (some id) (name.or seenName))
  | _ => .error (streamError "tool-call delta does not match its block type" index)

def closeBlock (opened : OpenBlock) (terminal : ContentBlock) (index : Nat) :
    Except TessivumError ContentBlock :=
  match opened, terminal with
  | .text _, .text _ => .ok terminal
  | .reasoning _, .reasoning _ => .ok terminal
  | .toolCall id name, .toolCall terminalId terminalName _ => do
    failIf (id.any fun seen => seen != terminalId)
      (streamError "tool-call block end must retain the delta call id" index)
    failIf (name.any fun seen => seen != terminalName)
      (streamError "tool-call block end must retain the delta tool name" index)
    .ok terminal
  | .direct blockType, block =>
    if blockType = block.typeTag then .ok block
    else .error (streamError "block end does not match its started block type" index)
  | _, _ => .error (streamError "block end does not match its started block type" index)

/-- What an open block becomes when the response hits its token limit. An
incomplete argument stream is never made callable. -/
def settleMaxTokens : BlockStatus → BlockStatus
  | .opened (.text text) => .closed (.text text)
  | .opened (.reasoning text) => .closed (.reasoning text)
  | .opened _ => .omitted
  | status => status

def settleFailed : BlockStatus → BlockStatus
  | .opened _ => .omitted
  | status => status

def BlockStatus.isOpen : BlockStatus → Bool
  | .opened _ => true
  | _ => false

def mapBlocks (assembler : BlockAssembler) (f : BlockStatus → BlockStatus) : BlockAssembler :=
  { assembler with blocks := assembler.blocks.map fun record => (record.1, f record.2) }

def finish (assembler : BlockAssembler) (reason : FinishReason) (replayState : Option Value) :
    Except TessivumError BlockAssembler := do
  let settled ← match reason with
    | .maxTokens => .ok (assembler.mapBlocks settleMaxTokens)
    | .error _ => .ok (assembler.mapBlocks settleFailed)
    | .aborted _ => .ok (assembler.mapBlocks settleFailed)
    | _ => do
      failIf (assembler.blocks.any fun record => BlockStatus.isOpen record.2)
        (llmError "LLM_FINISH_WITH_OPEN_BLOCK"
          "only max-tokens, error, or aborted may finish with an open LLM block" .null)
      .ok assembler
  .ok { settled with finishReason := some reason, replayState }

def applyChunk (assembler : BlockAssembler) : StreamChunk → Except TessivumError BlockAssembler
  | .blockStart index blockType => do
    failIf (lookup assembler.blocks index).isSome
      (streamError "block indexes must be unique" index)
    let status := .opened (startBlock blockType)
    .ok { assembler with blocks := insertBlock index status assembler.blocks }
  | .textDelta index text => assembler.withOpen index "text delta" (pushText index text)
  | .reasoningDelta index text =>
    assembler.withOpen index "reasoning delta" (pushReasoning index text)
  | .toolCallDelta index id name _ =>
    assembler.withOpen index "tool-call delta" (pushToolCall index id name)
  | .blockEnd index block =>
    match lookup assembler.blocks index with
    | none => .error (streamError "block end requires a prior block start" index)
    | some (.opened opened) => do
      let closed ← closeBlock opened block index
      .ok { assembler with blocks := setBlock index (.closed closed) assembler.blocks }
    | some _ => .error (streamError "blocks may only close once" index)
  | .usage tokens => do
    failIf assembler.usage.isSome (llmError "DUPLICATE_LLM_USAGE"
      "LLM streams may contain at most one usage chunk" .null)
    .ok { assembler with usage := some tokens }
  | .finish reason replayState => assembler.finish reason replayState

def closedBlock (record : Nat × BlockStatus) : Option ContentBlock :=
  match record.2 with
  | .closed block => some block
  | _ => none

def generation (assembler : BlockAssembler) (reason : FinishReason) : LlmGeneration :=
  { message :=
      { id := assembler.messageId, role := .assistant
        content := assembler.blocks.filterMap closedBlock
        source := .model assembler.provider assembler.model assembler.replayState }
    usage := assembler.usage, finishReason := reason, chunks := assembler.chunks }

def push (assembler : BlockAssembler) (chunk : StreamChunk) :
    Except TessivumError (Option LlmGeneration × BlockAssembler) := do
  failIf assembler.finished (llmError "LLM_STREAM_AFTER_FINISH"
    "LLM streams must not contain chunks after finish" .null)
  chunk.validate
  let applied ← assembler.applyChunk chunk
  let pushed := { applied with chunks := applied.chunks ++ [chunk] }
  .ok (pushed.finishReason.map pushed.generation, pushed)

end BlockAssembler

end Tessivum.Llm
