/-
Tessivum.Agent.PairingTheorems — tool calls and their results.

`Paired` says of a log that every tool-call block of an assistant message has
exactly one result before the next assistant message, and that every result
answers such a block. `tool_calls_paired` proves it of every turn that was
ended, where each stream the model gave assembles to a `Consistent` generation:
one that calls tools names each of its calls differently, and one that ends
otherwise has no call in its content. A compaction inside the turn that prunes a
result appends it once more, under the id of its call (`tool_calls_unpaired`).
-/
import Tessivum.Agent.TurnRules
import Tessivum.Llm.AssemblerTheorems

namespace Tessivum.Agent

open Library Protocol Llm List

/-! ## The property -/

/-- The ids of the tool-call blocks in the message of a dispatched
event. -/
def dispatchedCalls (data : Value) : List ToolCallId :=
  ((((data.get "message").bind (Value.get · "content")).bind Value.asArray).getD []).filterMap
    fun block =>
      if (block.get "type").bind Value.asStr = some "tool-call"
      then ((block.get "id").bind Value.asStr).map ToolCallId.mk
      else none

/-- The calls of an event of type `assistant/message`. -/
def TurnEvent.speech : TurnEvent → Option (List ToolCallId)
  | .assistantMessage _ _ message _ _ => some (callIds message)
  | .dispatch eventType data =>
    if eventType = "assistant/message" then some (dispatchedCalls data) else none
  | _ => none

/-- An event of type `tool/result`. -/
def TurnEvent.isResult : TurnEvent → Bool
  | .toolResult _ _ _ _ _ => true
  | .dispatch eventType _ => eventType = "tool/result"
  | .compaction (.prunedResult _ _) => true
  | _ => false

/-- The call a message of `tool/result` answers. -/
def resultCall (message : Message) : Option ToolCallId :=
  match message.source with
  | .tool call => some call
  | _ => none

def TurnEvent.resultId : TurnEvent → Option ToolCallId
  | .toolResult _ _ message _ _ => resultCall message
  | .compaction (.prunedResult message _) => resultCall message
  | .dispatch eventType data =>
    if eventType = "tool/result" then
      ((((data.get "message").bind (Value.get · "source")).bind (Value.get · "callId")).bind
        Value.asStr).map ToolCallId.mk
    else none
  | _ => none

def answeredNext (events : List TurnEvent) : List ToolCallId :=
  (events.takeWhile fun event => event.speech.isNone).filterMap TurnEvent.resultId

/-- Every call of an assistant message has exactly one result before the
next assistant message. -/
def EveryCallAnswered (log : List TurnEvent) : Prop :=
  ∀ before event calls after, log = before ++ event :: after → event.speech = some calls →
    ∀ call ∈ calls, (answeredNext after).count call = 1

/-- Every result answers a call of the assistant message before it. -/
def EveryResultCalled (log : List TurnEvent) : Prop :=
  ∀ before event after, log = before ++ event :: after → event.isResult = true →
    ∃ call, event.resultId = some call ∧ ∃ earlier message calls between,
      before = earlier ++ message :: between ∧ message.speech = some calls
        ∧ (∀ e ∈ between, e.speech = none) ∧ call ∈ calls

def Paired (log : List TurnEvent) : Prop := EveryCallAnswered log ∧ EveryResultCalled log

/-! ## The calls that have no result yet -/

/-- The calls a turn has to answer, or that it has ended. -/
inductive Calls where
  | pending (calls : List ToolCallId)
  | ended
  deriving DecidableEq, Repr

/-- An event of type `turn/end`. -/
def TurnEvent.isEnd : TurnEvent → Bool
  | .turnEnd _ _ => true
  | _ => false

/-- The calls after an event, if the event keeps them paired. -/
def Calls.next : Calls → TurnEvent → Option Calls
  | .ended, _ => none
  | .pending calls, event =>
    match event.speech with
    | some spoken => if calls = [] ∧ spoken.Nodup then some (.pending spoken) else none
    | none =>
      if event.isResult then
        match event.resultId with
        | some call => if call ∈ calls then some (.pending (calls.erase call)) else none
        | none => none
      else if event.isEnd then if calls = [] then some .ended else none
      else some (.pending calls)

/-- A log that is paired so far and leaves `calls`. -/
def Leaves (calls : Calls) (log : List TurnEvent) : Prop :=
  log.foldlM Calls.next (.pending []) = some calls

variable {calls' : Calls}

theorem Leaves.snoc {calls : Calls} {log : List TurnEvent} {event : TurnEvent}
    (h : Leaves calls log) (hnext : calls.next event = some calls') :
    Leaves calls' (log ++ [event]) := by
  unfold Leaves at *
  rw [foldlM_append, h]
  simp [hnext]

/-- An event that neither speaks, nor answers, nor ends the turn. -/
def TurnEvent.isSilent (event : TurnEvent) : Bool :=
  event.speech.isNone && !event.isResult && !event.isEnd

theorem Leaves.silent {calls : List ToolCallId} {log : List TurnEvent} {event : TurnEvent}
    (h : Leaves (.pending calls) log) (hsilent : event.isSilent = true) :
    Leaves (.pending calls) (log ++ [event]) := by
  refine h.snoc ?_
  simp only [TurnEvent.isSilent, and_eq_true, not_eq_true', isNone_iff_eq_none]
    at hsilent
  obtain ⟨⟨hspeech, hresult⟩, hend⟩ := hsilent
  simp [Calls.next, hspeech, hresult, hend]

variable {calls : List ToolCallId} {event : TurnEvent} {events log : List TurnEvent}
  {generation : LlmGeneration}

/-- One event between a message and the end of its calls. -/
theorem Calls.next_cases (h : Calls.next (.pending calls) event = some calls') :
    (∃ spoken, event.speech = some spoken ∧ calls = [] ∧ spoken.Nodup ∧ calls' = .pending spoken)
    ∨ (∃ call, event.speech = none ∧ event.isResult = true ∧ event.resultId = some call
        ∧ call ∈ calls ∧ calls' = .pending (calls.erase call))
    ∨ (event.speech = none ∧ event.isResult = false ∧ event.isEnd = true ∧ calls = []
        ∧ calls' = .ended)
    ∨ (event.speech = none ∧ event.isResult = false ∧ event.isEnd = false
        ∧ calls' = .pending calls) := by
  unfold Calls.next at h
  cases hspeech : event.speech with
  | some spoken =>
    simp only [hspeech] at h
    split at h
    · rename_i hguard
      exact .inl ⟨spoken, rfl, hguard.1, hguard.2, (some.inj h).symm⟩
    · cases h
  | none =>
    right
    simp only [hspeech] at h
    cases hresult : event.isResult with
    | true =>
      left
      simp only [hresult, if_true] at h
      cases hid : event.resultId with
      | none => simp [hid] at h
      | some call =>
        simp only [hid] at h
        split at h
        · rename_i hmem
          exact ⟨call, rfl, rfl, rfl, hmem, (some.inj h).symm⟩
        · cases h
    | false =>
      right
      simp only [hresult] at h
      cases hend : event.isEnd with
      | true =>
        left
        simp only [hend] at h
        by_cases hcalls : calls = []
        · exact ⟨rfl, rfl, rfl, hcalls, by simpa [hcalls] using h.symm⟩
        · simp [hcalls] at h
      | false => exact .inr ⟨rfl, rfl, rfl, by simpa [hend] using h.symm⟩

theorem TurnEvent.resultId_of_not_isResult (h : event.isResult = false) :
    event.resultId = none := by
  cases event with
  | compaction compacted => cases compacted <;> simp_all [TurnEvent.isResult, TurnEvent.resultId]
  | _ => simp_all [TurnEvent.isResult, TurnEvent.resultId]

theorem eq_nil_of_ended {calls : Calls} (h : events.foldlM Calls.next .ended = some calls) :
    events = [] := by
  cases events with
  | nil => rfl
  | cons event rest => simp [Calls.next] at h

-- The induction is on the events that are left. A result takes one call
-- off, and nothing may be pending where the next message speaks.
/-- Each pending call is answered once before the turn ends. -/
theorem answeredNext_count : ∀ {calls : List ToolCallId},
    events.foldlM Calls.next (.pending calls) = some .ended →
      ∀ call, (answeredNext events).count call = calls.count call := by
  induction events with
  | nil => exact nofun
  | cons event rest ih =>
    intro calls h call
    rw [foldlM_cons] at h
    obtain ⟨calls', hnext, hrest⟩ := bind_eq_some_iff.mp h
    unfold answeredNext
    rcases Calls.next_cases hnext with ⟨spoken, hspeech, rfl, -, -⟩
      | ⟨answered, hspeech, -, hid, hmem, rfl⟩ | ⟨hspeech, hresult, -, rfl, rfl⟩
      | ⟨hspeech, hresult, -, rfl⟩
    · simp [hspeech]
    · have hcount := ih hrest call
      unfold answeredNext at hcount
      have hpositive : 0 < calls.count answered := count_pos_iff.mpr hmem
      simp only [takeWhile_cons, hspeech, Option.isNone_none, if_true, filterMap_cons,
        hid, count_cons, hcount, count_erase]
      by_cases heq : answered = call
      · subst heq
        simp only [beq_self_eq_true, if_true]
        omega
      · simp [heq]
    · have hnil := eq_nil_of_ended hrest
      subst hnil
      simp [hspeech, TurnEvent.resultId_of_not_isResult hresult]
    · have hcount := ih hrest call
      unfold answeredNext at hcount
      simp only [takeWhile_cons, hspeech, Option.isNone_none, if_true, filterMap_cons,
        TurnEvent.resultId_of_not_isResult hresult, hcount]

/-- A pending call was made by the last message that spoke. -/
theorem pending_called : ∀ {calls : List ToolCallId},
    Leaves (.pending calls) log → ∀ call ∈ calls, ∃ earlier message spoken between,
      log = earlier ++ message :: between ∧ message.speech = some spoken
        ∧ (∀ e ∈ between, e.speech = none) ∧ call ∈ spoken := by
  induction log using reverseRecOn with
  | nil =>
    intro calls h call hmem
    cases h
    cases hmem
  | append_singleton log event ih =>
    intro calls h call hmem
    unfold Leaves at h
    rw [foldlM_append] at h
    obtain ⟨calls', hlog, hevent⟩ := bind_eq_some_iff.mp h
    have hnext : calls'.next event = some (.pending calls) := by simpa using hevent
    cases calls' with
    | ended => cases hnext
    | pending calls' =>
      have hkeep (hspeech : event.speech = none) (hmem' : call ∈ calls') :
          ∃ earlier message spoken between,
            log ++ [event] = earlier ++ message :: between ∧ message.speech = some spoken
              ∧ (∀ e ∈ between, e.speech = none) ∧ call ∈ spoken := by
        obtain ⟨earlier, message, spoken, between, rfl, hspoken, hbetween, hcall⟩ :=
          ih hlog call hmem'
        refine ⟨earlier, message, spoken, between ++ [event], by simp, hspoken, ?_, hcall⟩
        intro e he
        rcases mem_append.mp he with he | he
        · exact hbetween e he
        · rw [mem_singleton.mp he]
          exact hspeech
      rcases Calls.next_cases hnext with ⟨_, hspeech, -, -, heq⟩
        | ⟨_, hspeech, -, -, -, heq⟩ | ⟨-, -, -, -, heq⟩ | ⟨hspeech, -, -, heq⟩
      · cases heq
        exact ⟨log, event, calls, [], rfl, hspeech, by simp, hmem⟩
      · cases heq
        exact hkeep hspeech (mem_of_mem_erase hmem)
      · cases heq
      · cases heq
        exact hkeep hspeech hmem

theorem Leaves.split {calls : Calls} {before : List TurnEvent} {after : List TurnEvent}
    (h : Leaves calls (before ++ event :: after)) :
    ∃ pending next, Leaves (.pending pending) before
      ∧ Calls.next (.pending pending) event = some next
      ∧ after.foldlM Calls.next next = some calls := by
  unfold Leaves at h
  rw [foldlM_append] at h
  obtain ⟨state, hbefore, hrest⟩ := bind_eq_some_iff.mp h
  rw [foldlM_cons] at hrest
  obtain ⟨next, hnext, hafter⟩ := bind_eq_some_iff.mp hrest
  cases state with
  | ended => cases hnext
  | pending pending => exact ⟨pending, next, hbefore, hnext, hafter⟩

theorem Leaves.paired (h : Leaves .ended log) : Paired log := by
  constructor
  · rintro _ _ calls _ rfl hspeech call hmem
    obtain ⟨_, _, -, hnext, hafter⟩ := h.split
    rcases Calls.next_cases hnext with ⟨spoken, hspoken, -, hnodup, rfl⟩ | hnot
    · have hsame : calls = spoken := some.inj (hspeech.symm.trans hspoken)
      subst hsame
      rw [answeredNext_count hafter call]
      exact count_eq_one_of_mem hnodup hmem
    · exfalso
      rcases hnot with ⟨-, hnone, -⟩ | ⟨hnone, -⟩ | ⟨hnone, -⟩ <;> simp [hspeech] at hnone
  · rintro before event after rfl hresult
    obtain ⟨pending, next, hbefore, hnext, -⟩ := h.split
    rcases Calls.next_cases hnext with ⟨spoken, hspeech, -⟩
      | ⟨call, -, -, hid, hmem, -⟩ | ⟨-, hnot, -⟩ | ⟨-, hnot, -⟩
    · exfalso
      cases event <;> simp_all [TurnEvent.speech, TurnEvent.isResult]
    · exact ⟨call, hid, pending_called hbefore call hmem⟩
    · rw [hresult] at hnot
      cases hnot
    · rw [hresult] at hnot
      cases hnot

theorem Leaves.no_end (h : Leaves (.pending calls) log) (turn : Nat) (reason : TurnEndReason) :
    .turnEnd turn reason ∉ log := by
  intro hmem
  obtain ⟨_, _, rfl⟩ := append_of_mem hmem
  obtain ⟨_, _, -, hnext, hafter⟩ := h.split
  rcases Calls.next_cases hnext with ⟨_, hspeech, -⟩ | ⟨_, -, hresult, -⟩
    | ⟨-, -, -, -, rfl⟩ | ⟨-, -, hend, -⟩
  · cases hspeech
  · cases hresult
  · rw [eq_nil_of_ended hafter] at hafter
    cases hafter
  · cases hend

/-! ## The condition on the answers -/

def Consistent (generation : LlmGeneration) : Prop :=
  (generation.finishReason = .toolCalls → (callIds generation.message).Nodup)
    ∧ (generation.finishReason ≠ .toolCalls → callIds generation.message = [])

/-- What a stream assembles to, under no identity in particular. -/
def streamGeneration (chunks : List (Except TessivumError StreamChunk)) : Option LlmGeneration :=
  assembled chunks (.new "" "" ⟨""⟩) none

/-- An answer of the model that assembles, where it is accepted and
neither an error nor aborted, to a consistent generation; an output of a
tool that dispatches neither an assistant message nor a result; and a
compaction that prunes no result. -/
def Settling : (q : TurnQuery) → q.Answer → Prop
  | .generate, (.ok chunks : Except TessivumError (List (Except TessivumError StreamChunk))) =>
    ∀ generation ∈ (streamGeneration chunks).toList,
      Finishes generation.finishReason → Consistent generation
  | .executeTool _ _ _, (output : ToolOutput) =>
    ∀ dispatch ∈ codeDispatches output, dispatch.1 ∉ ["assistant/message", "tool/result"]
  | .compactPressure, compacted =>
    ∀ event ∈ compactionEvents .compactPressure compacted, event.isResult = false
  | .compactOverflow, compacted =>
    ∀ event ∈ compactionEvents .compactOverflow compacted, event.isResult = false
  | _, _ => True

instance (reason : FinishReason) : Decidable (Finishes reason) :=
  inferInstanceAs (Decidable (_ ∨ _ ∨ _))

instance (generation : LlmGeneration) : Decidable (Consistent generation) :=
  inferInstanceAs (Decidable ((_ → _) ∧ (_ → _)))

instance : ∀ (q : TurnQuery) (a : q.Answer), Decidable (Settling q a)
  | .generate, (.ok chunks : Except TessivumError (List (Except TessivumError StreamChunk))) =>
    inferInstanceAs (Decidable (∀ generation ∈ (streamGeneration chunks).toList, _ → _))
  | .generate, (.error _ : Except TessivumError (List (Except TessivumError StreamChunk))) =>
    .isTrue trivial
  | .executeTool _ _ _, (output : ToolOutput) =>
    inferInstanceAs (Decidable (∀ dispatch ∈ codeDispatches output, _))
  | .compactPressure, compacted =>
    inferInstanceAs (Decidable (∀ event ∈ compactionEvents .compactPressure compacted, _))
  | .compactOverflow, compacted =>
    inferInstanceAs (Decidable (∀ event ∈ compactionEvents .compactOverflow compacted, _))
  | .append _ _, _ | .claimStepBatch, _ | .skillCatalog _, _ | .skill _, _ | .assemblePrompt, _
  | .isCancelled, _ | .cancellationCause, _ | .nextTurn, _ | .workspaceInstructions, _
  | .runtimeContext, _ | .requestHeaderReason, _ | .requestContext, _ | .messageId, _
  | .retryPolicy _, _ | .sleep, _ | .hasNextStep, _ => .isTrue trivial

def shape (generation : LlmGeneration) : FinishReason × List ContentBlock :=
  (generation.finishReason, generation.message.content)

theorem assembled_named (provider model : String) (id : MessageId)
    (chunks : List (Except TessivumError StreamChunk)) :
    ∀ (assembler : BlockAssembler) {generation generation' : Option LlmGeneration},
      generation.map shape = generation'.map shape →
      (assembled chunks (assembler.named provider model id) generation).map shape
        = (assembled chunks assembler generation').map shape := by
  induction chunks with
  | nil => exact fun _ _ _ h => h
  | cons chunk rest ih =>
    intro assembler generation generation' h
    cases chunk with
    | error error => rfl
    | ok chunk =>
      unfold assembled
      rw [BlockAssembler.push_named]
      cases assembler.push chunk with
      | error error => rfl
      | ok pushed =>
        refine ih pushed.2 ?_
        rw [Option.map_or, Option.map_or, h, Option.map_map]
        rfl

theorem Consistent.of_shape {generation' : LlmGeneration}
    (hshape : shape generation = shape generation') (h : Consistent generation') :
    Consistent generation := by
  obtain ⟨hreason, hcontent⟩ := Prod.mk.inj hshape
  unfold Consistent callIds toolCalls at *
  rw [hreason, hcontent]
  exact h

theorem Settling.consistent {chunks : List (Except TessivumError StreamChunk)}
    (h : Settling .generate (.ok chunks)) {provider model : String} {id : MessageId}
    (hassembled : assembled chunks (.new provider model id) none = some generation)
    (hfinishes : Finishes generation.finishReason) : Consistent generation := by
  have hnamed := assembled_named provider model id chunks (.new "" "" ⟨""⟩)
    (rfl : (none : Option LlmGeneration).map shape = none)
  rw [show (BlockAssembler.new "" "" ⟨""⟩).named provider model id = .new provider model id from rfl,
    hassembled] at hnamed
  obtain ⟨generation', hgeneration', hshape⟩ := map_eq_some_iff.mp hnamed.symm
  refine Consistent.of_shape hshape.symm (h generation' ?_ ?_)
  · exact mem_toList.mpr hgeneration'
  · rw [(Prod.mk.inj hshape).1]
    exact hfinishes

/-! ## The pairing discipline -/

theorem TurnEvent.isSilent_of_isNote (h : event.isNote = true) : event.isSilent = true := by
  cases event <;> first | rfl | cases h

theorem Leaves.silents {events : List TurnEvent}
    (hsilent : ∀ event ∈ events, event.isSilent = true) :
    ∀ {log : List TurnEvent}, Leaves (.pending calls) log → Leaves (.pending calls) (log ++ events) := by
  induction events with
  | nil =>
    intro log h
    rw [append_nil]
    exact h
  | cons event rest ih =>
    intro log h
    rw [append_cons]
    exact ih (fun event hevent => hsilent event (mem_cons_of_mem _ hevent))
      (h.silent (hsilent event mem_cons_self))

/-- A compaction that prunes nothing is silent. -/
theorem Settling.compacted {q : TurnQuery} {a : q.Answer} (h : Settling q a) :
    ∀ event ∈ compactionEvents q a, event.isSilent = true := by
  intro event hevent
  have hresult : event.isResult = false := by
    cases q with
    | compactPressure | compactOverflow => exact h event hevent
    | _ => cases hevent
  obtain ⟨compacted, rfl⟩ := mem_compactionEvents hevent
  rw [TurnEvent.isSilent, hresult]
  rfl

/-- The calls are answered one after another, in their order. -/
def orderedAnswers (turn step : Nat) :
    Answering Settling (fun log => ∃ calls, Leaves (.pending calls) log) turn step where
  pending calls := Leaves (.pending calls)
  called _ _ _ h := h.silent rfl
  result _ _ _ _ h := h.snoc (by simp [Calls.next, TurnEvent.speech, TurnEvent.isResult,
    TurnEvent.resultId, resultCall, resultMessage])
  note hnote h := h.silent (TurnEvent.isSilent_of_isNote hnote)
  dispatched := by
    intro ids log id name arguments output dispatch hgood hmem h
    refine h.silent ?_
    have htype := hgood dispatch hmem
    simp only [mem_cons, not_or, not_mem_nil, not_false_eq_true, and_true] at htype
    simp [TurnEvent.isSilent, TurnEvent.speech, TurnEvent.isResult, TurnEvent.isEnd, htype]
  broken _ _ h := ⟨_, h⟩

/-- Calls are answered before the turn speaks again or ends. -/
def pairing (provider model : String) : Discipline provider model where
  good := Settling
  fail log := ∃ calls, Leaves (.pending calls) log
  inTurn _ := Leaves (.pending [])
  inStep _ _ := Leaves (.pending [])
  spoken generation _ _ log :=
    Consistent generation ∧ Leaves (.pending (callIds generation.message)) log
  ended := Leaves .ended
  sound := Consistent
  unstarted := ⟨[], rfl⟩
  start _ := rfl
  enter _ h := h.silent rfl
  leave h := h.silent rfl
  finish _ h := h.snoc (by simp [Calls.next, TurnEvent.speech, TurnEvent.isResult,
    TurnEvent.isEnd])
  noteTurn hnote h := h.silent (TurnEvent.isSilent_of_isNote hnote)
  noteStep hnote h := h.silent (TurnEvent.isSilent_of_isNote hnote)
  compacted hgood h := h.silents hgood.compacted
  generated hgood hassembled hfinishes := hgood.consistent hassembled hfinishes
  speak := by
    intro turn step log generation usage seqs hsound h
    refine ⟨hsound, h.snoc ?_⟩
    have hnodup : (callIds generation.message).Nodup := by
      by_cases hreason : generation.finishReason = .toolCalls
      · exact hsound.1 hreason
      · rw [hsound.2 hreason]
        exact nodup_nil
    simp [Calls.next, TurnEvent.speech, hnodup]
  silent := by
    rintro turn step log generation ⟨hsound, h⟩ hreason
    rw [hsound.2 hreason] at h
    exact h
  answered turn step generation _ := Fallible.Triple.of_pre (fun _ h => h.2)
    ((orderedAnswers turn step).runTools_rule generation.message)
  brokenTurn _ _ h := ⟨_, h⟩
  brokenStep _ _ h := ⟨_, h⟩

/-! ## Calls and results are paired -/

/-- In every turn that was ended, for whatever reason, over settling
answers, every call has its one result and every result its call. -/
theorem tool_calls_paired (provider model : String) (attempts maxSteps : Nat) (initial : Message)
    (env : Prog.Env TurnQuery TurnQuery.Answer)
    (hallowed : TurnAllowed Settling provider model attempts maxSteps initial env)
    (result : Except AgentError Unit) (log : List TurnEvent)
    (hrun : turnRun provider model attempts maxSteps initial env = (some result, log))
    (turn : Nat) (reason : TurnEndReason)
    (hend : .turnEnd turn reason ∈ log) : Paired log := by
  rcases (pairing provider model).turnRun_ends hallowed hrun with rfl | hended | ⟨_, hpending⟩
  · cases hend
  · exact hended.paired
  · exact absurd hend (hpending.no_end turn reason)

/-! ## Concrete runs -/

/-- A stream with tool-call blocks that finishes with `reason`. -/
def callStream (calls : List String) (reason : FinishReason) :
    List (Except TessivumError StreamChunk) :=
  (calls.zipIdx.flatMap fun (call, index) =>
    [.ok (.blockStart index "tool-call"), .ok (.blockEnd index (.toolCall ⟨call⟩ "read" "[]"))])
    ++ [.ok (.finish reason none)]

/-- The model calls tools and finishes with `reason`. -/
def callingModel (calls : List String) (reason : FinishReason) : (q : TurnQuery) → q.Answer
  | .generate => Except.ok (callStream calls reason)
  | q => calmAnswer q

theorem tool_calls_paired_twoCalls :
    TurnAllowed Settling "p" "m" 1 1 greeting (fun _ => callingModel ["c1", "c2"] .toolCalls)
      ∧ Paired (turnRun "p" "m" 1 1 greeting
          fun _ => callingModel ["c1", "c2"] .toolCalls).2 := by
  have hallowed : TurnAllowed Settling "p" "m" 1 1 greeting
      (fun _ => callingModel ["c1", "c2"] .toolCalls) := by
    decide +kernel
  refine ⟨hallowed, ?_⟩
  exact tool_calls_paired "p" "m" 1 1 greeting _ hallowed (.ok ()) _
    (Prod.ext (by decide +kernel) rfl) 1 .blocked (by decide +kernel)

theorem Paired.count_at (h : Paired log) (position : Nat) (hevent : log[position]? = some event)
    (hspeech : event.speech = some calls) (call : ToolCallId) (hmem : call ∈ calls) :
    (answeredNext (log.drop (position + 1))).count call = 1 := by
  obtain ⟨_, hget⟩ := List.getElem?_eq_some_iff.mp hevent
  refine h.1 (log.take position) event calls _ ?_ hspeech call hmem
  rw [← hget, getElem_cons_drop, take_append_drop]

/-- The result of the call, with its text cut. -/
def cutResult (call : String) : CompactionEvent :=
  .prunedResult
    { id := ⟨"a1"⟩, role := .user, content := [.toolResult ⟨call⟩ [.text "cut"] (some false)]
      source := .tool ⟨call⟩ }
    .null

/-- The model calls a tool in its first step, and the second prunes the
result. The first step asks less than twenty questions. -/
def pruningModel (n : Nat) : (q : TurnQuery) → q.Answer
  | .compactPressure => CompactionAnswer.mk (if n < 20 then [] else [cutResult "c1"]) (.ok ())
  | .generate =>
    Except.ok (if n < 20 then callStream ["c1"] .toolCalls else callStream [] .stop)
  | q => calmAnswer q

/-- A turn that completes with an unanswered call, one that answers one id
twice, and one whose compaction does. -/
theorem tool_calls_unpaired :
    (.turnEnd 1 .completed
        ∈ (turnRun "p" "m" 1 1 greeting fun _ => callingModel ["c1"] .stop).2
      ∧ ¬Paired (turnRun "p" "m" 1 1 greeting fun _ => callingModel ["c1"] .stop).2)
    ∧ (.turnEnd 1 .blocked
        ∈ (turnRun "p" "m" 1 1 greeting fun _ => callingModel ["c1", "c1"] .toolCalls).2
      ∧ ¬Paired (turnRun "p" "m" 1 1 greeting
          fun _ => callingModel ["c1", "c1"] .toolCalls).2)
    ∧ .turnEnd 1 .completed ∈ (turnRun "p" "m" 1 2 greeting pruningModel).2
      ∧ ¬Paired (turnRun "p" "m" 1 2 greeting pruningModel).2 := by
  refine ⟨⟨by decide +kernel, ?_⟩, ⟨by decide +kernel, ?_⟩, by decide +kernel, ?_⟩
  · intro h
    have hcount := h.count_at 6 rfl rfl ⟨"c1"⟩ (by decide +kernel)
    exact absurd hcount (by decide +kernel)
  · intro h
    have hcount := h.count_at 8 rfl rfl ⟨"c1"⟩ (by decide +kernel)
    exact absurd hcount (by decide +kernel)
  · intro h
    have hcount := h.count_at 6 rfl rfl ⟨"c1"⟩ (by decide +kernel)
    exact absurd hcount (by decide +kernel)

end Tessivum.Agent
