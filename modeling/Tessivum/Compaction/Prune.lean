/-
Tessivum.Compaction.Prune — replacing one oversized tool result by a prefix of
its output (`prune_tool_result` of `src/compaction.rs`).

What to write is decided from the surface alone (`prunePlan`): the result is
found by its event number, its output is cut where the escaped text no longer
fits the bound, and a marker naming the original event closes it. The decision
is then appended as one replacement, on the condition that the surface still
has the event numbers it was read with.

`serde` writes every message, so the source's `expect` and its two `unwrap_or`
around a serialised size are one function here (`messageSize`).
-/
import Tessivum.Compaction.Execute
import Tessivum.Compaction.MessageText

namespace Tessivum.Compaction

open Library Protocol Session

/-! ## Results -/

structure ToolResultPruneResult where
  range : CompactionRange
  sourceEventSeq : Nat
  replacementEventSeq : Nat
  originalCodepoints : Nat
  retainedCodepoints : Nat
  deriving DecidableEq, Repr

inductive ToolResultPruneOutcome where
  | noop (sourceEventSeq codepoints : Nat)
  | pruned (result : ToolResultPruneResult)
  deriving DecidableEq, Repr

/-! ## The tool result -/

/-- The error of `tool_result`. -/
def invalidToolResult (message : String) (eventSeq : Nat) : CompactionError :=
  invalidCompaction "INVALID_TOOL_RESULT" message (.object [("eventSeq", .ofNat eventSeq)])

def toolResult (entry : SurfaceMessage) :
    Except CompactionError (ToolCallId × List ContentBlock × Option Bool) :=
  match entry.message.source with
  | .tool callId =>
    match entry.message.content with
    | [.toolResult toolCallId content isError] =>
      if callId ≠ toolCallId then
        .error (invalidToolResult "tool result source does not match its content block"
          entry.eventSeq)
      else .ok (toolCallId, content, isError)
    | _ => .error (invalidToolResult
        "selected tool result must contain exactly one tool-result block" entry.eventSeq)
  | _ => .error (invalidToolResult "selected surface entry is not a tool result" entry.eventSeq)

section Output

variable (valueText : Value → String)

mutual
def appendBlockText : ContentBlock → String
  | .text text => text
  | .reasoning text => text
  | .image attachment => valueText attachment
  | .toolCall _ name arguments => name ++ arguments
  | .toolResult _ content _ => toolOutputText content

def toolOutputText : List ContentBlock → String
  | [] => ""
  | block :: rest => appendBlockText block ++ toolOutputText rest
end

end Output

def isText : ContentBlock → Bool
  | .text _ => true
  | _ => false

def truncationMarker (sourceEventSeq : Nat) : String :=
  "\n[Truncated tool output; original event " ++ toString sourceEventSeq
    ++ ". Export session history to inspect the full result.]"

def prunedMessage (sourceEventSeq : Nat) (callId : ToolCallId) (isError : Option Bool)
    (text : String) : Message :=
  { id := ⟨"tool-prune-" ++ toString sourceEventSeq⟩, role := .user
    content := [.toolResult callId [.text text] isError], source := .tool callId }

/-! ## The decision -/

/-- What pruning makes of a tool result. -/
inductive PruneDecision where
  | fits (codepoints : Nat)
  | shrink (position : Nat) (replacement : Message) (originalCodepoints retainedCodepoints : Nat)
  deriving DecidableEq, Repr

def messageSize (text : Message → Option String) (m : Message) : Nat :=
  (serializedCodepoints text m).getD (u64Bound - 1)

def unshrinkable (message : String) (details : Value) : CompactionError :=
  invalidCompaction "COMPACTION_UNSHRINKABLE_TOOL_RESULT" message details

def pruneNoProgress (sourceEventSeq : Nat) : CompactionError :=
  invalidCompaction "COMPACTION_NO_PROGRESS"
    "Tool-result pruning cannot reduce serialized input within its budget."
    (.object [("sourceEventSeq", .ofNat sourceEventSeq)])

section Prune

variable (text : Message → Option String) (valueText : Value → String)

/-- The output cut to what is left of the bound, with the marker. -/
def prunedText (sourceEventSeq available : Nat) (original : String) : String :=
  String.ofList (takeWithin escapeCost available original.toList) ++ truncationMarker sourceEventSeq

/-- The part of `prune_tool_result_locked` for a text result that was found. -/
def pruneFound (entry : SurfaceMessage) (position maxCodepoints : Nat) (callId : ToolCallId)
    (content : List ContentBlock) (isError : Option Bool) : Except CompactionError PruneDecision :=
  let seq := entry.eventSeq
  let original := toolOutputText valueText content
  if messageSize text entry.message ≤ maxCodepoints then .ok (.fits (codepoints original))
  else do
    let overhead := messageSize text (prunedMessage seq callId isError (truncationMarker seq))
    failIf (maxCodepoints < overhead) (unshrinkable
      "Tool call metadata and truncation notice alone exceed the available serialized budget; shorten tool arguments or output."
      (.object [("maximum", .ofNat maxCodepoints), ("minimum", .ofNat overhead),
        ("sourceEventSeq", .ofNat seq)]))
    let retained := prunedText seq (maxCodepoints - overhead) original
    let replacement := prunedMessage seq callId isError retained
    failIf (messageSize text replacement > maxCodepoints
        ∨ messageSize text replacement ≥ messageSize text entry.message)
      (pruneNoProgress seq)
    .ok (.shrink position replacement (codepoints original) (codepoints retained))

/-- `prune_tool_result_locked`, up to the append. -/
def prunePlan (surface : List SurfaceMessage) (sourceEventSeq maxCodepoints : Nat) :
    Except CompactionError PruneDecision := do
  failIf (maxCodepoints = 0) (invalidCompaction "INVALID_TOOL_RESULT_PRUNE_BOUND"
    "tool-result prune bound must be positive" .null)
  match surface.zipIdx.find? fun found => found.1.eventSeq = sourceEventSeq with
  | none => .error (invalidCompaction "INACTIVE_TOOL_RESULT"
      "tool-result source is not on the current surface"
      (.object [("sourceEventSeq", .ofNat sourceEventSeq)]))
  | some (entry, position) => do
    let (callId, content, isError) ← toolResult entry
    failIf (content.any fun block => !isText block) (unshrinkable
      "only text tool results may be pruned automatically"
      (.object [("sourceEventSeq", .ofNat sourceEventSeq)]))
    pruneFound text valueText entry position maxCodepoints callId content isError

end Prune

/-! ## The append -/

def pruneSpec (S : Serde) (sourceEventSeq position : Nat) (surface : List SurfaceMessage)
    (replacement : Message) (originalCodepoints retainedCodepoints : Nat) : AppendSpec :=
  { eventType := "tool/result"
    data := .object [("message", S.messageToValue replacement),
      ("pruned", .object [("originalCodepoints", .ofNat originalCodepoints),
        ("retainedCodepoints", .ofNat retainedCodepoints),
        ("sourceEventSeq", .ofNat sourceEventSeq)])]
    sourceEventSeqs := some [sourceEventSeq]
    surfaceOp := some (.replace position (position + 1))
    expectedSurfaceEventSeqs := some (surfaceSeqs surface), ignorable := none }

/-- What is not decided by the pruner: what other writers call before its
append, what the check on entry reads, and the token of the append. -/
structure PruneEnvironment where
  calls : List Call
  cancelledOnEntry : Bool
  token : Cancellation

section Calls

variable {σ : Type} (S : Serde) (P : Persistence σ) (text : Message → Option String)
  (valueText : Value → String)

def pruneToolResultLocked (env : PruneEnvironment) (sourceEventSeq maxCodepoints : Nat)
    (run : Run σ) : Except CompactionError ToolResultPruneOutcome × Run σ :=
  if env.cancelledOnEntry then (.error .cancelled, run)
  else
    let surface := run.live.state.surface
    match prunePlan text valueText surface sourceEventSeq maxCodepoints with
    | .error err => (.error err, run)
    | .ok (.fits count) => (.ok (.noop sourceEventSeq count), run)
    | .ok (.shrink position replacement original retained) =>
      match (run.interfere S P env.calls).append S P
          (pruneSpec S sourceEventSeq position surface replacement original retained)
          env.token with
      | (.error err, run) => (.error (.session err), run)
      | (.ok seq, run) =>
        (.ok (.pruned { range := { start := position, last := position }, sourceEventSeq
                        replacementEventSeq := seq, originalCodepoints := original
                        retainedCodepoints := retained }), run)

/-- `CompactionService::prune_tool_result`. `busy` says that another attempt
holds the lease, and `cancelled` what the first read of the token answers. -/
def pruneToolResult (env : PruneEnvironment) (busy cancelled : Bool)
    (sourceEventSeq maxCodepoints : Nat) (live : Live σ) :
    Except CompactionError ToolResultPruneOutcome × Run σ :=
  let run : Run σ := { live, attempts := [] }
  if cancelled then (.error .cancelled, run)
  else if busy then (.error (.busy live.header.id), run)
  else pruneToolResultLocked S P text valueText env sourceEventSeq maxCodepoints run

end Calls

end Tessivum.Compaction
