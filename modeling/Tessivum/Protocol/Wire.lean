/-
Tessivum.Protocol.Wire — the JSON form of messages (the `Serialize` and
`Deserialize` derives of `src/protocol.rs`).

The derive attributes fix the form: blocks are tagged by `type` and
sources by `kind`, names are kebab-case for tags and camelCase for
fields, absent optional fields are left out, and unknown fields are
refused. Fields stand in map order.

`wireSerde` packs the functions into the `Serde` the model is written
over, and `wireSerde_roundTrips` proves the round trip the model's
hypotheses ask for. `serde`'s own error texts are not reproduced: a
workflow payload that does not decode reports one fixed text here.
-/
import Tessivum.Protocol.Event
import Tessivum.Protocol.Stream

namespace Tessivum.Protocol

namespace Wire

/-! ## Fields -/

variable (fields : List (String × Value))

def field {α : Type} (key : String) (decode : Value → Option α) : Option α :=
  (fields.lookup key).bind decode

/-- An optional field: absent and `null` both read as `none`. -/
def optField {α : Type} (key : String) (decode : Value → Option α) : Option (Option α) :=
  match fields.lookup key with
  | none => some none
  | some .null => some none
  | some v => (decode v).map some

/-- `deny_unknown_fields`. -/
def onlyFields (allowed : List String) : Option Unit :=
  if fields.all fun f => allowed.contains f.1 then some () else none

/-- `skip_serializing_if = "Option::is_none"`. -/
def skipNone {α : Type} (key : String) (encode : α → Value) : Option α → List (String × Value)
  | none => []
  | some a => [(key, encode a)]

def boolFromValue : Value → Option Bool
  | .bool b => some b
  | _ => none

/-! ## Content blocks -/

mutual
def blockToValue : ContentBlock → Value
  | .text text => .object [("text", .string text), ("type", .string "text")]
  | .reasoning text => .object [("text", .string text), ("type", .string "reasoning")]
  | .image attachment => .object [("attachment", attachment), ("type", .string "image")]
  | .toolCall id name arguments => .object
      [("arguments", .string arguments), ("id", .string id.asStr), ("name", .string name),
       ("type", .string "tool-call")]
  | .toolResult toolCallId content isError => .object
      ([("content", .array (blocksToItems content))] ++ skipNone "isError" .bool isError
        ++ [("toolCallId", .string toolCallId.asStr), ("type", .string "tool-result")])

def blocksToItems : List ContentBlock → List Value
  | [] => []
  | b :: rest => blockToValue b :: blocksToItems rest
end

/-- One block from its fields, given what its `content` field decodes
to. -/
def blockFromFields (content : Option (List ContentBlock)) : Option ContentBlock :=
  match field fields "type" Value.asStr with
  | some "text" => do
    onlyFields fields ["type", "text"]
    return .text (← field fields "text" Value.asStr)
  | some "reasoning" => do
    onlyFields fields ["type", "text"]
    return .reasoning (← field fields "text" Value.asStr)
  | some "image" => do
    onlyFields fields ["type", "attachment"]
    return .image (← field fields "attachment" some)
  | some "tool-call" => do
    onlyFields fields ["type", "id", "name", "arguments"]
    return .toolCall ⟨← field fields "id" Value.asStr⟩ (← field fields "name" Value.asStr)
      (← field fields "arguments" Value.asStr)
  | some "tool-result" => do
    onlyFields fields ["type", "toolCallId", "content", "isError"]
    return .toolResult ⟨← field fields "toolCallId" Value.asStr⟩ (← content)
      (← optField fields "isError" boolFromValue)
  | _ => none

mutual
def blockFromValue : Value → Option ContentBlock
  | .object fields => blockFromFields fields (contentOf fields)
  | _ => none

def contentOf : List (String × Value) → Option (List ContentBlock)
  | [] => none
  | (key, v) :: rest => if key = "content" then blocksFromValue v else contentOf rest

def blocksFromValue : Value → Option (List ContentBlock)
  | .array items => blocksFromItems items
  | _ => none

def blocksFromItems : List Value → Option (List ContentBlock)
  | [] => some []
  | v :: rest => do
    let b ← blockFromValue v
    let bs ← blocksFromItems rest
    return b :: bs
end

/-! ## Sources -/

def contextFormName : ContextForm → String
  | .instructions => "instructions"
  | .catalog => "catalog"
  | .snapshot => "snapshot"
  | .notice => "notice"
  | .relay => "relay"
  | .recall => "recall"

def contextFormFromValue : Value → Option ContextForm
  | .string "instructions" => some .instructions
  | .string "catalog" => some .catalog
  | .string "snapshot" => some .snapshot
  | .string "notice" => some .notice
  | .string "relay" => some .relay
  | .string "recall" => some .recall
  | _ => none

def contextFormToValue (form : ContextForm) : Value := .string (contextFormName form)

def sectionToValue (s : ContextSnapshotSection) : Value :=
  .object [("name", .string s.name), ("text", .string s.text)]

def sectionFromValue : Value → Option ContextSnapshotSection
  | .object fields => do
    onlyFields fields ["name", "text"]
    return { name := ← field fields "name" Value.asStr, text := ← field fields "text" Value.asStr }
  | _ => none

def sectionsToValue (ss : List ContextSnapshotSection) : Value := .array (ss.map sectionToValue)

variable (v : Value)

def sectionsFromValue : Option (List ContextSnapshotSection) := do
  (← v.asArray).mapM sectionFromValue

def sourceToValue : MessageSource → Value
  | .goal goalId revision round => .object
      [("goalId", .string goalId), ("kind", .string "goal"), ("revision", .ofNat revision),
       ("round", .ofNat round)]
  | .user clientTimeZone => .object
      (skipNone "clientTimeZone" .string clientTimeZone ++ [("kind", .string "user")])
  | .plugin plugin compactionId form sections summary => .object
      (skipNone "compactionId" .string compactionId ++ skipNone "form" contextFormToValue form
        ++ [("kind", .string "plugin"), ("plugin", .string plugin)]
        ++ skipNone "sections" sectionsToValue sections ++ skipNone "summary" .string summary)
  | .skillInvocation name form => .object
      [("form", contextFormToValue form), ("kind", .string "skill-invocation"),
       ("name", .string name)]
  | .model provider model replayState => .object
      ([("kind", .string "model"), ("model", .string model), ("provider", .string provider)]
        ++ skipNone "replayState" id replayState)
  | .tool callId => .object [("callId", .string callId.asStr), ("kind", .string "tool")]

def sourceFromFields : Option MessageSource :=
  match field fields "kind" Value.asStr with
  | some "goal" => do
    onlyFields fields ["kind", "goalId", "revision", "round"]
    return .goal (← field fields "goalId" Value.asStr) (← field fields "revision" Value.asU64)
      (← field fields "round" Value.asU64)
  | some "user" => do
    onlyFields fields ["kind", "clientTimeZone"]
    return .user (← optField fields "clientTimeZone" Value.asStr)
  | some "plugin" => do
    onlyFields fields ["kind", "plugin", "compactionId", "form", "sections", "summary"]
    return .plugin (← field fields "plugin" Value.asStr)
      (← optField fields "compactionId" Value.asStr)
      (← optField fields "form" contextFormFromValue)
      (← optField fields "sections" sectionsFromValue)
      (← optField fields "summary" Value.asStr)
  | some "skill-invocation" => do
    onlyFields fields ["kind", "name", "form"]
    return .skillInvocation (← field fields "name" Value.asStr)
      (← field fields "form" contextFormFromValue)
  | some "model" => do
    onlyFields fields ["kind", "provider", "model", "replayState"]
    return .model (← field fields "provider" Value.asStr) (← field fields "model" Value.asStr)
      (← optField fields "replayState" some)
  | some "tool" => do
    onlyFields fields ["kind", "callId"]
    return .tool ⟨← field fields "callId" Value.asStr⟩
  | _ => none

def sourceFromValue : Value → Option MessageSource
  | .object fields => sourceFromFields fields
  | _ => none

/-! ## Messages -/

def roleName : MessageRole → String
  | .system => "system"
  | .user => "user"
  | .assistant => "assistant"

def roleFromValue : Value → Option MessageRole
  | .string "system" => some .system
  | .string "user" => some .user
  | .string "assistant" => some .assistant
  | _ => none

def messageToValue (m : Message) : Value :=
  .object [("content", .array (blocksToItems m.content)), ("id", .string m.id.asStr),
    ("role", .string (roleName m.role)), ("source", sourceToValue m.source)]

def messageFromValue : Value → Option Message
  | .object fields => do
    onlyFields fields ["id", "role", "content", "source"]
    return { id := ⟨← field fields "id" Value.asStr⟩
             role := ← field fields "role" roleFromValue
             content := ← field fields "content" blocksFromValue
             source := ← field fields "source" sourceFromValue }
  | _ => none

/-! ## Failures -/

/-- `LlmFailure`, as its `Serialize` derive writes it. -/
def failureToValue (failure : LlmFailure) : Value :=
  .object ([("code", .string failure.code), ("message", .string failure.message)]
    ++ skipNone "providerRetryAfterMs" .ofNat failure.providerRetryAfterMs
    ++ skipNone "requestId" (fun id => .string id.asStr) failure.requestId
    ++ skipNone "status" .ofNat failure.status)

/-! ## Workflow payloads -/

def outcomeFromValue : Value → Option WorkflowAgentOutcome
  | .string "completed" => some .completed
  | .string "failed" => some .failed
  | .string "cancelled" => some .cancelled
  | _ => none

def stopReasonFromValue : Value → Option WorkflowStopReason
  | .string "completed" => some .completed
  | .string "cancelled" => some .cancelled
  | .string "error" => some .error
  | _ => none

def strictFields (allowed : List String) : Option (List (String × Value)) :=
  match v with
  | .object fields => (onlyFields fields allowed).map fun _ => fields
  | _ => none

def orMalformed {α : Type} (decoded : Option α) : Except String α :=
  match decoded with
  | some a => .ok a
  | none => .error "malformed workflow payload"

def runStartFromValue : Option ToolWorkflowRunStartData := do
  let fields ← strictFields v ["runId", "name"]
  return { runId := ← field fields "runId" Value.asStr, name := ← field fields "name" Value.asStr }

def agentStartFromValue : Option ToolWorkflowAgentStartData := do
  let fields ← strictFields v ["runId", "seq", "label", "phase", "childId"]
  return { runId := ← field fields "runId" Value.asStr
           seq := ← field fields "seq" Value.asU64
           label := ← field fields "label" Value.asStr
           phase := ← optField fields "phase" Value.asStr
           childId := ⟨← field fields "childId" Value.asStr⟩ }

def agentEndFromValue : Option ToolWorkflowAgentEndData := do
  let fields ← strictFields v ["runId", "seq", "outcome"]
  return { runId := ← field fields "runId" Value.asStr
           seq := ← field fields "seq" Value.asU64
           outcome := ← field fields "outcome" outcomeFromValue }

def runEndFromValue : Option ToolWorkflowRunEndData := do
  let fields ← strictFields v ["runId", "stopReason"]
  return { runId := ← field fields "runId" Value.asStr
           stopReason := ← field fields "stopReason" stopReasonFromValue }

end Wire

def wireSerde : Serde where
  messageFromValue := Wire.messageFromValue
  messageToValue := Wire.messageToValue
  runStartFromValue v := Wire.orMalformed (Wire.runStartFromValue v)
  agentStartFromValue v := Wire.orMalformed (Wire.agentStartFromValue v)
  agentEndFromValue v := Wire.orMalformed (Wire.agentEndFromValue v)
  runEndFromValue v := Wire.orMalformed (Wire.runEndFromValue v)

namespace Wire

/-! ## Round trip -/

mutual
theorem blockFromValue_blockToValue : ∀ b : ContentBlock,
    blockFromValue (blockToValue b) = some b
  | .text _ | .reasoning _ | .image _ | .toolCall _ _ _ => by
    simp [blockToValue, blockFromValue, blockFromFields, field, onlyFields, List.lookup]
  | .toolResult _ content isError => by
    have hcontent := blocksFromItems_blocksToItems content
    cases isError <;>
      simp [blockToValue, blockFromValue, contentOf, blockFromFields, field, optField,
        onlyFields, skipNone, List.lookup, blocksFromValue, boolFromValue, hcontent]

theorem blocksFromItems_blocksToItems : ∀ bs : List ContentBlock,
    blocksFromItems (blocksToItems bs) = some bs
  | [] => rfl
  | b :: rest => by
    rw [blocksToItems, blocksFromItems, blockFromValue_blockToValue b,
      blocksFromItems_blocksToItems rest]
    rfl
end

theorem contextFormFromValue_name (form : ContextForm) :
    contextFormFromValue (.string (contextFormName form)) = some form := by
  cases form <;> rfl

theorem sectionFromValue_sectionToValue (s : ContextSnapshotSection) :
    sectionFromValue (sectionToValue s) = some s := by
  simp [sectionToValue, sectionFromValue, field, onlyFields, List.lookup]

theorem mapM_sectionFromValue : ∀ ss : List ContextSnapshotSection,
    (ss.map sectionToValue).mapM sectionFromValue = some ss
  | [] => rfl
  | s :: rest => by
    rw [List.map_cons, List.mapM_cons, sectionFromValue_sectionToValue,
      mapM_sectionFromValue rest]
    rfl

theorem sectionsFromValue_array (ss : List ContextSnapshotSection) :
    sectionsFromValue (.array (ss.map sectionToValue)) = some ss := by
  rw [sectionsFromValue, Value.asArray_array]
  exact mapM_sectionFromValue ss

/-- A source reads back, but for a replay state of `null`. -/
theorem sourceFromValue_sourceToValue {source : MessageSource}
    (h : ∀ provider model, source ≠ .model provider model (some .null)) :
    sourceFromValue (sourceToValue source) = some source := by
  cases source with
  | goal | tool callId =>
    simp [sourceToValue, sourceFromValue, sourceFromFields, field, onlyFields, List.lookup]
  | user zone =>
    cases zone <;>
      simp [sourceToValue, sourceFromValue, sourceFromFields, field, optField, onlyFields,
        skipNone, List.lookup]
  | plugin plugin compactionId form sections summary =>
    cases compactionId <;> cases form <;> cases sections <;> cases summary <;>
      simp [sourceToValue, sourceFromValue, sourceFromFields, field, optField, onlyFields,
        skipNone, List.lookup, contextFormToValue, sectionsToValue,
        contextFormFromValue_name, sectionsFromValue_array]
  | skillInvocation name form =>
    simp [sourceToValue, sourceFromValue, sourceFromFields, field, onlyFields, List.lookup,
      contextFormToValue, contextFormFromValue_name]
  | model provider model replayState =>
    cases replayState with
    | none =>
      simp [sourceToValue, sourceFromValue, sourceFromFields, field, optField, onlyFields,
        skipNone, List.lookup]
    | some v =>
      -- `null` is the one state that reads back as an absent field
      cases v with
      | null => exact absurd rfl (h provider model)
      | _ =>
        simp [sourceToValue, sourceFromValue, sourceFromFields, field, optField,
          onlyFields, skipNone, List.lookup]

theorem roleFromValue_roleName (role : MessageRole) :
    roleFromValue (.string (roleName role)) = some role := by
  cases role <;> rfl

theorem messageFromValue_messageToValue {m : Message} (h : m.Faithful) :
    messageFromValue (messageToValue m) = some m := by
  have hcontent := blocksFromItems_blocksToItems m.content
  have hsource := sourceFromValue_sourceToValue h
  have hrole := roleFromValue_roleName m.role
  simp [messageToValue, messageFromValue, field, onlyFields, List.lookup, blocksFromValue,
    hcontent, hsource, hrole]

end Wire

theorem wireSerde_roundTrips : wireSerde.RoundTrips := fun _ h =>
  Wire.messageFromValue_messageToValue h

end Tessivum.Protocol
