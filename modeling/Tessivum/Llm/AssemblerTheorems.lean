/-
Tessivum.Llm.AssemblerTheorems — what an assembler takes in does not depend on
whose stream it is.

The provider, the model and the message id go into the message that comes
out and nowhere else, so a stream is accepted, and settles to the same
blocks, under any identity.
-/
import Tessivum.Llm.Assembler

namespace Tessivum.Llm

open Library Protocol

def LlmGeneration.named (generation : LlmGeneration) (provider model : String) (id : MessageId)
    (replayState : Option Value) : LlmGeneration :=
  { generation with
    message := { generation.message with id, source := .model provider model replayState } }

namespace BlockAssembler

def named (assembler : BlockAssembler) (provider model : String) (messageId : MessageId) :
    BlockAssembler :=
  { assembler with provider, model, messageId }

variable (provider model : String) (id : MessageId)

theorem withOpen_named (assembler : BlockAssembler) (index : Nat) (action : String)
    (operation : OpenBlock → Except TessivumError OpenBlock) :
    (assembler.named provider model id).withOpen index action operation
      = (assembler.withOpen index action operation).map (named · provider model id) := by
  unfold withOpen
  simp only [named]
  cases lookup assembler.blocks index with
  | none => rfl
  | some status =>
    cases status with
    | opened block =>
      dsimp only
      cases operation block <;> rfl
    | closed _ => rfl
    | omitted => rfl

theorem finish_named (assembler : BlockAssembler) (reason : FinishReason)
    (replayState : Option Value) :
    (assembler.named provider model id).finish reason replayState
      = (assembler.finish reason replayState).map (named · provider model id) := by
  unfold finish
  cases reason with
  | stop | toolCalls =>

    simp only [map_bind]
    rfl
  | maxTokens => rfl
  | aborted _ => rfl
  | error _ => rfl

theorem applyChunk_named (assembler : BlockAssembler) (chunk : StreamChunk) :
    (assembler.named provider model id).applyChunk chunk
      = (assembler.applyChunk chunk).map (named · provider model id) := by
  cases chunk with
  | blockStart index blockType | usage tokens =>
    simp only [applyChunk, map_bind]
    rfl
  | textDelta index text | reasoningDelta index text | toolCallDelta index call name _ =>
    exact withOpen_named provider model id assembler index _ _
  | blockEnd index block =>
    simp only [applyChunk, named]
    cases lookup assembler.blocks index with
    | none => rfl
    | some status =>
      cases status with
      | opened opened =>
        dsimp only
        cases closeBlock opened block index <;> rfl
      | closed _ => rfl
      | omitted => rfl
  | finish reason replayState => exact finish_named provider model id assembler reason replayState

theorem push_named (assembler : BlockAssembler) (chunk : StreamChunk) :
    (assembler.named provider model id).push chunk
      = (assembler.push chunk).map fun pushed =>
        (pushed.1.map (·.named provider model id pushed.2.replayState),
          pushed.2.named provider model id) := by
  unfold push
  rw [applyChunk_named]
  simp only [map_bind]
  congr 1
  funext _
  congr 1
  funext _
  cases assembler.applyChunk chunk with
  | error error => rfl
  | ok applied =>
    cases h : applied.finishReason with
    | none => simp [h, named, Except.map, Bind.bind, Except.bind]
    | some reason =>
      simp [h, named, Except.map, Bind.bind, Except.bind, generation, LlmGeneration.named]

end BlockAssembler
end Tessivum.Llm
