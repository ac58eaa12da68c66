/-
Tessivum.Agent.TurnRules — what a turn does to its log, whatever is kept of the
log.

A `Discipline` says what has to hold of the log inside a turn, inside a step,
after the assistant has spoken and once the turn has ended, and how each event
of a turn carries one into the next. `Discipline.runTurn_ends` goes once
through `run_turn` and everything it calls: a turn that returns either wrote
nothing, or ended as the discipline says, or failed where an answer broke one
of its `?`.
-/
import Tessivum.Agent.Turn

namespace Tessivum.Agent

open Library Protocol Llm Fallible

/-! ## Events and answers -/

/-- An event that a step may add without opening, closing, speaking or
answering anything. -/
def TurnEvent.isNote : TurnEvent → Bool
  | .userMessage _ => true
  | .assistantChunk _ _ _ => true
  | .planMode _ => true
  | .requestHeader _ _ => true
  | .requestContext _ => true
  | .llmRetry _ _ _ => true
  | .llmRetryStarted _ _ _ _ => true
  | _ => false

/-- An append whose failure the turn survives: a chunk's is an error of
its attempt, and a turn that did not start needs no end. -/
def TurnEvent.survivable : TurnEvent → Bool
  | .assistantChunk _ _ _ => true
  | .turnStart _ => true
  | _ => false

/-- An answer behind which a `?` leaves the started turn. -/
def Breaks : (q : TurnQuery) → q.Answer → Prop
  | .append event _, (written : Except AppendError Nat) =>
    written.isOk = false ∧ event.survivable = false
  | .claimStepBatch, (claimed : Except AgentError (List Message)) => claimed.isOk = false
  | .skillCatalog _, (context : Except AgentError (Option SkillContext)) => context.isOk = false
  | .skill _, (tag : Except AgentError String) => tag.isOk = false
  | .assemblePrompt, (assembled : Except AgentError Unit) => assembled.isOk = false
  | _, _ => False

/-- A question whose answer may bring events. -/
def TurnQuery.writes : TurnQuery → Bool
  | .append _ _ => true
  | .compactPressure => true
  | .compactOverflow => true
  | _ => false

theorem observe_of_not_writes {q : TurnQuery} (hq : q.writes = false) (log : List TurnEvent)
    (a : q.Answer) : observe log q a = log := by
  cases q with
  | append | compactPressure | compactOverflow => cases hq
  | _ => rfl

theorem mem_compactionEvents {q : TurnQuery} {a : q.Answer} {event : TurnEvent}
    (h : event ∈ compactionEvents q a) : ∃ compacted, event = .compaction compacted := by
  cases q with
  | compactPressure | compactOverflow =>
    obtain ⟨compacted, -, rfl⟩ := mem_map.mp h
    exact ⟨compacted, rfl⟩
  | _ => cases h

section Appends

variable {α : Type} {good : (q : TurnQuery) → q.Answer → Prop}
variable {fail pre post : List TurnEvent → Prop}

theorem ask_then {q : TurnQuery} {f : q.Answer → TurnM α} {fin : α → List TurnEvent → Prop}
    (hq : q.writes = false) (h : ∀ a, Triple good observe fail pre (f a) fin) :
    Triple good observe fail pre (ask q >>= f) fin := by
  refine Triple.bind
    (Triple.query fun log a _ => observe_of_not_writes hq log a) ?_
  intro a
  exact Triple.of_pre (fun _ hlog => hlog.2) (h a)

theorem append_rule (event : TurnEvent) (hwritten : ∀ log, pre log → post (log ++ [event]))
    (hrefused : ∀ finalization (error : AppendError) log,
      good (.append event finalization) (.error error) → pre log → fail log) :
    Triple good observe fail pre (append event) fun _ => post := by
  unfold append
  refine ask_then rfl ?_
  intro cancelled log hlog written hgood
  cases written with
  | ok seq => exact hwritten log hlog
  | error error => exact hrefused cancelled error log hgood hlog

theorem appendEvent_rule (event : TurnEvent)
    (hwritten : ∀ log, pre log → post (log ++ [event]))
    (hrefused : ∀ finalization (error : AppendError) log,
      good (.append event finalization) (.error error) → pre log → fail log) :
    Triple good observe fail pre (appendEvent event) fun _ => post := by
  unfold appendEvent
  refine Triple.seq (append_rule event hwritten hrefused) ?_
  intro seq
  exact Triple.skip

end Appends

/-! ## Answering tool calls -/

/-- The ids of the calls of an assistant message, in order. -/
def callIds (message : Message) : List ToolCallId := (toolCalls message).map Prod.fst

/-- What is kept of the log while the calls of a step are answered one
after another: `pending` over the calls without a result. -/
structure Answering (good : (q : TurnQuery) → q.Answer → Prop) (fail : List TurnEvent → Prop)
    (turn step : Nat) where
  pending : List ToolCallId → List TurnEvent → Prop
  called : ∀ {ids log} id name arguments, pending ids log →
    pending ids (log ++ [.toolCall turn step id name arguments])
  result : ∀ {id ids log} messageId output seq metadata, pending (id :: ids) log →
    pending ids (log ++ [.toolResult turn step (resultMessage messageId id output) seq metadata])
  note : ∀ {ids log event}, event.isNote = true → pending ids log → pending ids (log ++ [event])
  dispatched : ∀ {ids log id name arguments output dispatch},
    good (.executeTool id name arguments) output → dispatch ∈ codeDispatches output →
    pending ids log → pending ids (log ++ [.dispatch dispatch.1 dispatch.2])
  broken : ∀ {ids log q a}, good q a → Breaks q a → pending ids log → fail log

namespace Answering

variable {good : (q : TurnQuery) → q.Answer → Prop} {fail : List TurnEvent → Prop}
variable {turn step : Nat} (W : Answering good fail turn step)

/-- An output the environment gave to the call `id`. -/
def Given (good : (q : TurnQuery) → q.Answer → Prop) (given : ToolCallId × ToolOutput) : Prop :=
  ∃ name arguments, good (.executeTool given.1 name arguments) given.2

variable {W}
variable {ids : List ToolCallId}

theorem event_rule {ids' : List ToolCallId} {event : TurnEvent}
    (hsurvivable : event.survivable = false)
    (h : ∀ log, W.pending ids log → W.pending ids' (log ++ [event])) :
    Triple good observe fail (W.pending ids) (append event)
      fun _ => W.pending ids' := by
  refine append_rule event h ?_
  intro finalization error log hgood hlog
  exact W.broken hgood ⟨rfl, hsurvivable⟩ hlog

theorem appendToolCalls_rule (calls : List (ToolCallId × String × String)) :
    Triple good observe fail (W.pending ids) (appendToolCalls turn step calls)
      fun seqs log => seqs.length = calls.length ∧ W.pending ids log := by
  induction calls with
  | nil => exact Triple.pure fun _ h => ⟨rfl, h⟩
  | cons call rest ih =>
    obtain ⟨id, name, arguments⟩ := call
    refine Triple.seq (event_rule rfl fun _ h => W.called id name arguments h)
      fun seq => ?_
    refine Triple.bind ih fun seqs => Triple.pure ?_
    rintro _ ⟨hlength, hlog⟩
    exact ⟨congrArg Nat.succ hlength, hlog⟩

theorem executeTools_rule {pre : List TurnEvent → Prop}
    (calls : List (ToolCallId × String × String)) :
    Triple good observe fail pre (executeTools calls)
      fun outputs log => outputs.map Prod.fst = calls.map Prod.fst
        ∧ (∀ given ∈ outputs, Given good given) ∧ pre log := by
  induction calls with
  | nil => exact Triple.pure fun _ h => ⟨rfl, by simp, h⟩
  | cons call rest ih =>
    obtain ⟨id, name, arguments⟩ := call
    intro log hlog
    refine ensures_bind.mpr ?_
    intro output hgood
    refine ensures_bind.mpr ((ih log hlog).mono ?_)
    intro outputs log' houtputs
    cases outputs with
    | error error => exact houtputs
    | ok outputs =>
      obtain ⟨hids, hgiven, hlog'⟩ := houtputs
      refine ⟨congrArg (id :: ·) hids, ?_, hlog'⟩
      intro given hmem
      rcases mem_cons.mp hmem with rfl | hmem
      · exact ⟨name, arguments, hgood⟩
      · exact hgiven given hmem

theorem appendDispatches_rule (dispatches : List (String × Value))
    (h : ∀ dispatch ∈ dispatches, ∀ log, W.pending ids log →
      W.pending ids (log ++ [.dispatch dispatch.1 dispatch.2])) :
    Triple good observe fail (W.pending ids) (appendDispatches dispatches)
      fun _ => W.pending ids := by
  induction dispatches with
  | nil => exact Triple.skip
  | cons dispatch rest ih =>
    have hfirst : Triple good observe fail (W.pending ids)
        (appendEvent (.dispatch dispatch.1 dispatch.2)) fun _ => W.pending ids :=
      Triple.seq (event_rule rfl (h dispatch mem_cons_self))
        fun _ => Triple.skip
    exact Triple.seq hfirst fun _ =>
      ih fun d hd => h d (mem_cons_of_mem dispatch hd)

theorem appendOutput_rule {id : ToolCallId} {output : ToolOutput} (hgiven : Given good (id, output))
    (seq : Nat) :
    Triple good observe fail (W.pending (id :: ids))
      (appendOutput turn step id output seq) fun _ => W.pending ids := by
  obtain ⟨_, _, hgood⟩ := hgiven
  have hdispatches : Triple good observe fail (W.pending (id :: ids))
      (appendDispatches (codeDispatches output)) fun _ => W.pending (id :: ids) :=
    appendDispatches_rule _ fun dispatch hmem log hlog => W.dispatched hgood hmem hlog
  refine Triple.seq hdispatches fun _ => ask_then rfl fun messageId => ?_
  have hresult : Triple good observe fail (W.pending (id :: ids))
      (appendEvent (.toolResult turn step (resultMessage messageId id output) seq
        ((output.metadata.remove "deferredPlanExit").remove "deferredContext")))
      fun _ => W.pending ids :=
    Triple.seq (event_rule rfl fun _ hlog => W.result messageId output seq _ hlog)
      fun _ => Triple.skip
  refine Triple.seq hresult fun _ => ?_
  cases deferredContext turn step seq output with
  | none => exact Triple.skip
  | some context =>
    exact Triple.seq (event_rule rfl fun _ hlog => W.note rfl hlog)
      fun _ => Triple.skip

theorem appendOutputs_rule (outputs : List (ToolCallId × ToolOutput)) :
    ∀ seqs : List Nat, seqs.length = outputs.length → (∀ given ∈ outputs, Given good given) →
      Triple good observe fail (W.pending (outputs.map Prod.fst))
        (appendOutputs turn step (outputs.zip seqs)) fun _ => W.pending [] := by
  induction outputs with
  | nil => exact fun _ _ _ => Triple.skip
  | cons given rest ih =>
    intro seqs hlength hgiven
    cases seqs with
    | nil => simp at hlength
    | cons seq seqs =>
      have hrest := ih seqs (Nat.succ.inj hlength)
        fun g hg => hgiven g (mem_cons_of_mem given hg)
      refine Triple.seq (appendOutput_rule (hgiven given mem_cons_self) seq)
        fun _ => Triple.seq hrest fun _ => ?_
      exact Triple.skip

theorem runTools_rule (assistant : Message) :
    Triple good observe fail (W.pending (callIds assistant))
      (runTools turn step assistant) fun _ => W.pending [] := by
  refine Triple.bind (appendToolCalls_rule (toolCalls assistant)) fun seqs => ?_
  refine Triple.bind (executeTools_rule (toolCalls assistant)) fun outputs => ?_
  intro log hlog
  obtain ⟨hids, hgiven, hlength, hlog⟩ := hlog
  have hoff : seqs.length = outputs.length := by
    have := congrArg List.length hids
    simp only [List.length_map] at this
    omega
  have hpending : W.pending (outputs.map Prod.fst) log := by
    rw [hids]
    exact hlog
  exact appendOutputs_rule outputs seqs hoff hgiven log hpending

end Answering

/-! ## Disciplines -/

/-- The generation a stream assembles to, if it is accepted to its end. -/
def assembled : List (Except TessivumError StreamChunk) → BlockAssembler → Option LlmGeneration →
    Option LlmGeneration
  | [], _, generation => generation
  | .error _ :: _, _, _ => none
  | .ok chunk :: rest, assembler, generation =>
    match assembler.push chunk with
    | .error _ => none
    | .ok (completed, assembler) => assembled rest assembler (completed.or generation)

def Finishes (reason : FinishReason) : Prop :=
  reason = .stop ∨ reason = .toolCalls ∨ reason = .maxTokens

/-- What is kept of the log of a turn of `provider` and `model` over the
answers `good` allows, with `fail` where an answer broke the turn. -/
structure Discipline (provider model : String) where
  good : (q : TurnQuery) → q.Answer → Prop
  fail : List TurnEvent → Prop
  inTurn : Nat → List TurnEvent → Prop
  inStep : Nat → Nat → List TurnEvent → Prop
  spoken : LlmGeneration → Nat → Nat → List TurnEvent → Prop
  ended : List TurnEvent → Prop
  sound : LlmGeneration → Prop
  unstarted : fail []
  start : ∀ turn, inTurn turn [.turnStart turn]
  enter : ∀ {turn log} step, inTurn turn log → inStep turn step (log ++ [.stepStart turn step])
  leave : ∀ {turn step log}, inStep turn step log → inTurn turn (log ++ [.stepEnd turn step])
  finish : ∀ {turn log} reason, inTurn turn log → ended (log ++ [.turnEnd turn reason])
  noteTurn : ∀ {turn log event}, event.isNote = true → inTurn turn log →
    inTurn turn (log ++ [event])
  noteStep : ∀ {turn step log event}, event.isNote = true → inStep turn step log →
    inStep turn step (log ++ [event])
  /-- What a compaction appends inside a step. -/
  compacted : ∀ {turn step log q a}, good q a → inStep turn step log →
    inStep turn step (log ++ compactionEvents q a)
  /-- What the allowed streams assemble to. -/
  generated : ∀ {chunks id generation}, good .generate (.ok chunks) →
    assembled chunks (.new provider model id) none = some generation →
    Finishes generation.finishReason → sound generation
  speak : ∀ {turn step log generation} usage seqs, sound generation → inStep turn step log →
    spoken generation turn step
      (log ++ [.assistantMessage turn step generation.message usage seqs])
  /-- A generation that calls no tools leaves nothing to answer. -/
  silent : ∀ {turn step log generation}, spoken generation turn step log →
    generation.finishReason ≠ .toolCalls → inStep turn step log
  answered : ∀ turn step generation, generation.finishReason = .toolCalls →
    Fallible.Triple good observe fail (spoken generation turn step)
      (runTools turn step generation.message) fun _ => inStep turn step
  brokenTurn : ∀ {turn log q a}, good q a → Breaks q a → inTurn turn log → fail log
  brokenStep : ∀ {turn step log q a}, good q a → Breaks q a → inStep turn step log → fail log

namespace Discipline

variable {provider model : String} (D : Discipline provider model)

abbrev Moves {α : Type} (pre : List TurnEvent → Prop) (p : TurnM α)
    (post : α → List TurnEvent → Prop) : Prop :=
  Fallible.Triple D.good observe D.fail pre p post

/-! ## Notes -/

variable {D} {α : Type} {pre : List TurnEvent → Prop} {turn step : Nat}

theorem note_moves {event : TurnEvent} (hnote : event.isNote = true)
    (hsurvivable : event.survivable = false) :
    D.Moves (D.inStep turn step) (appendEvent event) fun _ => D.inStep turn step := by
  refine appendEvent_rule event (fun _ h => D.noteStep hnote h) ?_
  intro finalization error log hgood hlog
  exact D.brokenStep hgood ⟨rfl, hsurvivable⟩ hlog

theorem appendOptional_moves {event : Option TurnEvent}
    (hnote : ∀ e, event = some e → e.isNote = true ∧ e.survivable = false) :
    D.Moves (D.inStep turn step) (appendOptional event) fun _ => D.inStep turn step := by
  cases event with
  | none => exact Triple.skip
  | some e => exact note_moves (hnote e rfl).1 (hnote e rfl).2

theorem onlyIf_moves {condition : Bool} {action : TurnM Unit}
    (h : D.Moves pre action fun _ => pre) : D.Moves pre (onlyIf condition action) fun _ => pre := by
  unfold onlyIf
  split
  · exact h
  · exact Triple.skip

/-! ## Closing -/

theorem aborted_moves : D.Moves pre aborted fun _ => pre := by
  unfold aborted
  refine ask_then rfl ?_
  intro cause
  exact Triple.skip

theorem closeStep_moves :
    D.Moves (D.inStep turn step) (closeStep turn step) fun _ => D.inTurn turn := by
  refine appendEvent_rule _ (fun _ h => D.leave h) ?_
  intro finalization error log hgood hlog
  exact D.brokenStep hgood ⟨rfl, rfl⟩ hlog

/-- The end of the turn. -/
theorem endTurn_moves (reason : TurnEndReason) :
    D.Moves (D.inTurn turn) (endTurn turn reason) fun _ => D.ended := by
  unfold endTurn
  refine ask_then rfl ?_
  intro cancelled
  have hreason : D.Moves (D.inTurn turn) (endReason cancelled reason) fun _ => D.inTurn turn := by
    unfold endReason
    split
    · exact aborted_moves
    · exact Triple.skip
  refine Triple.seq hreason ?_
  intro reason
  refine appendEvent_rule _ (fun _ h => D.finish reason h) ?_
  intro finalization error log hgood hlog
  exact D.brokenTurn hgood ⟨rfl, rfl⟩ hlog

theorem endAborted_moves : D.Moves (D.inTurn turn) (endAborted turn) fun _ => D.ended :=
  Triple.seq aborted_moves endTurn_moves

theorem closeCancelledStep_moves :
    D.Moves (D.inStep turn step) (closeCancelledStep turn step) fun _ => D.ended :=
  Triple.seq closeStep_moves fun _ => endAborted_moves

theorem failTurn_moves (error : LlmFailure) :
    D.Moves (D.inStep turn step) (failTurn turn step error) fun _ => D.ended :=
  Triple.seq closeStep_moves fun _ => endTurn_moves _

theorem ending {p : TurnM Unit} {a : α} {fin : α → List TurnEvent → Prop}
    (hp : D.Moves pre p fun _ => fin a) : D.Moves pre (p >>= fun _ => pure a) fin :=
  Triple.seq hp fun _ => Triple.pure fun _ h => h

/-! ## What a step puts before the model -/

theorem appendMessages_moves (messages : List Message) :
    D.Moves (D.inStep turn step) (appendMessages messages) fun _ => D.inStep turn step := by
  induction messages with
  | nil => exact Triple.skip
  | cons message rest ih => exact Triple.seq (note_moves rfl rfl) fun _ => ih

/-- The skills of a step. -/
theorem appendSkills_moves (names : List String) : ∀ index,
    D.Moves (D.inStep turn step) (appendSkills turn step index names)
      fun _ => D.inStep turn step := by
  induction names with
  | nil => exact fun _ => Triple.skip
  | cons name rest ih =>
    intro index
    have hskill : D.Moves (D.inStep turn step) (ofResult (call (.skill name)))
        fun _ => D.inStep turn step := by
      intro log hlog tag hgood
      cases tag with
      | ok tag => exact hlog
      | error error => exact D.brokenStep hgood rfl hlog
    refine Triple.seq hskill ?_
    intro tag
    exact Triple.seq (note_moves rfl rfl) fun _ => ih (index + 1)

/-- The context of the skills. -/
theorem appendSkillContext_moves (messages : List Message) :
    D.Moves (D.inStep turn step) (appendSkillContext turn step messages)
      fun _ => D.inStep turn step := by
  have hcatalog : D.Moves (D.inStep turn step)
      (ofResult (call (.skillCatalog messages))) fun _ => D.inStep turn step := by
    intro log hlog context hgood
    cases context with
    | ok context => exact hlog
    | error error => exact D.brokenStep hgood rfl hlog
  refine Triple.seq hcatalog ?_
  intro context
  cases context with
  | none => exact Triple.skip
  | some context =>
    refine Triple.seq (appendOptional_moves ?_) fun _ => appendSkills_moves _ _
    intro event hevent
    obtain ⟨_, -, rfl⟩ := map_eq_some_iff.mp hevent
    exact ⟨rfl, rfl⟩

theorem appendWorkspaceInstructions_moves :
    D.Moves (D.inStep turn step) (appendWorkspaceInstructions turn)
      fun _ => D.inStep turn step := by
  refine ask_then rfl fun text => appendOptional_moves ?_
  intro event hevent
  obtain ⟨_, -, rfl⟩ := map_eq_some_iff.mp hevent
  exact ⟨rfl, rfl⟩

theorem appendRuntimeContext_moves :
    D.Moves (D.inStep turn step) (appendRuntimeContext turn step)
      fun _ => D.inStep turn step := by
  refine ask_then rfl fun context => appendOptional_moves ?_
  intro event hevent
  obtain ⟨_, -, rfl⟩ := map_eq_some_iff.mp hevent
  exact ⟨rfl, rfl⟩

/-- The request of a step. -/
theorem appendRequest_moves :
    D.Moves (D.inStep turn step) appendRequest fun _ => D.inStep turn step := by
  refine ask_then rfl fun header => Triple.seq (appendOptional_moves ?_) ?_
  · intro event hevent
    obtain ⟨_, -, rfl⟩ := map_eq_some_iff.mp hevent
    exact ⟨rfl, rfl⟩
  · intro _
    refine ask_then rfl fun context => appendOptional_moves ?_
    intro event hevent
    obtain ⟨_, -, rfl⟩ := map_eq_some_iff.mp hevent
    exact ⟨rfl, rfl⟩

/-! ## Generation -/

/-- What an attempt leaves: a step, and what the stream assembled to. -/
def Attempted (D : Discipline provider model) (turn step : Nat)
    (expected : LlmGeneration → Prop) :
    Except TessivumError (LlmGeneration × List Nat) → List TurnEvent → Prop
  | .ok (generation, _), log => expected generation ∧ D.inStep turn step log
  | .error _, log => D.inStep turn step log

variable {log : List TurnEvent}

theorem chunkAppend_ensures {chunk : StreamChunk} (hlog : D.inStep turn step log) :
    (append (.assistantChunk turn step chunk)).run.Ensures D.good observe log
      fun _ log' => D.inStep turn step log' := by
  intro cancelled _ written _
  cases written with
  | ok seq => exact D.noteStep rfl hlog
  | error error => exact hlog

-- The induction is on the stream. A refused chunk is an error of the
-- attempt, so no answer breaks the turn here.
theorem consumeChunks_ensures (chunks : List (Except TessivumError StreamChunk)) :
    ∀ assembler seqs generation log, D.inStep turn step log →
      (consumeChunks turn step chunks assembler seqs generation).Ensures D.good observe log
        (D.Attempted turn step fun g => assembled chunks assembler generation = some g) := by
  induction chunks with
  | nil =>
    intro assembler seqs generation log hlog
    cases generation with
    | none => exact hlog
    | some generation => exact ⟨rfl, hlog⟩
  | cons chunk rest ih =>
    intro assembler seqs generation log hlog
    cases chunk with
    | error error => exact hlog
    | ok chunk =>
      unfold consumeChunks assembled
      cases hpush : assembler.push chunk with
      | error error => exact hlog
      | ok pushed =>
        rw [Prog.ensures_bind]
        refine (chunkAppend_ensures hlog).mono ?_
        intro written log' hlog'
        cases written with
        | ok seq => exact ih pushed.2 (seqs ++ [seq]) (pushed.1.or generation) log' hlog'
        | error error => exact hlog'

theorem consumeGenerationAttempt_ensures (hlog : D.inStep turn step log) :
    (consumeGenerationAttempt provider model turn step).Ensures D.good observe log
      (D.Attempted turn step fun g => Finishes g.finishReason → D.sound g) := by
  intro stream hgood
  cases stream with
  | error error => exact hlog
  | ok chunks =>
    intro id _
    refine (consumeChunks_ensures chunks _ [] none log hlog).mono ?_
    intro attempt log' hattempt
    cases attempt with
    | error error => exact hattempt
    | ok attempt => exact ⟨D.generated hgood hattempt.1, hattempt.2⟩

theorem attempt_moves :
    D.Moves (D.inStep turn step)
      (ExceptT.lift (consumeGenerationAttempt provider model turn step))
      (D.Attempted turn step fun g => Finishes g.finishReason → D.sound g) := by
  intro log hlog
  rw [ensures_lift]
  exact consumeGenerationAttempt_ensures hlog

/-- A retry inside the step. -/
theorem scheduleRetry_moves (error : LlmFailure) :
    D.Moves (D.inStep turn step) (scheduleRetry turn step error) fun _ => D.inStep turn step := by
  refine ask_then rfl fun plan => ?_
  cases plan with
  | none => exact Triple.skip
  | some plan =>
    refine Triple.seq (note_moves rfl rfl) fun _ => ask_then rfl fun cancelled => ?_
    split
    · exact Triple.skip
    refine ask_then rfl fun interrupted => ?_
    split
    · exact Triple.skip
    refine ask_then rfl fun cancelled => ?_
    split
    · exact Triple.skip
    refine Triple.seq (note_moves rfl rfl) fun _ => ask_then rfl fun cancelled => ?_
    exact Triple.skip

def Recovered (D : Discipline provider model) (turn step : Nat) :
    Recovery → List TurnEvent → Prop
  | .again _ => D.inStep turn step
  | .ended => D.ended

/-- A failed attempt. -/
theorem retryOrFail_moves (recovered : Bool) (error : LlmFailure) :
    D.Moves (D.inStep turn step) (retryOrFail turn step recovered error)
      (D.Recovered turn step) := by
  refine Triple.seq (scheduleRetry_moves error) fun retried => ?_
  split
  · exact Triple.pure fun _ h => h
  refine ask_then rfl fun cancelled => ?_
  split
  · exact ending closeCancelledStep_moves
  · exact ending (failTurn_moves error)

/-- A compaction leaves the step open. -/
theorem compact_moves {q : TurnQuery}
    (hq : ∀ log a, observe log q a = log ++ compactionEvents q a) :
    D.Moves (D.inStep turn step) (ask q) fun _ => D.inStep turn step := by
  intro log hlog
  show Ensures D.good observe (ask q) log _
  rw [ask, ensures_query]
  intro a hgood
  rw [hq]
  exact D.compacted hgood hlog

/-- A failed attempt that may be compacted. -/
theorem recoverAttempt_moves (recovered : Bool) (error : LlmFailure) :
    D.Moves (D.inStep turn step) (recoverAttempt turn step recovered error)
      (D.Recovered turn step) := by
  unfold recoverAttempt
  split
  · refine Triple.seq (compact_moves fun _ _ => rfl) fun compacted => ?_
    rcases compacted with ⟨events, failure | _ | _⟩
    · exact ending (failTurn_moves failure)
    · exact retryOrFail_moves recovered error
    · exact Triple.pure fun _ h => h
  · exact retryOrFail_moves recovered error

/-- What the generation loop leaves: a generation to speak, or an ended
turn. -/
def Generated (D : Discipline provider model) (turn step : Nat) :
    Option (LlmGeneration × List Nat) → List TurnEvent → Prop
  | none, log => D.ended log
  | some (generation, _), log =>
    D.sound generation ∧ Finishes generation.finishReason ∧ D.inStep turn step log

/-- The attempts of a step. -/
theorem generateStep_moves (attempts : Nat) : ∀ first recovered,
    D.Moves (D.inStep turn step) (generateStep provider model turn step attempts first recovered)
      (D.Generated turn step) := by
  induction attempts with
  | zero => exact fun _ _ => Triple.stop
  | succ attempts ih =>
    intro first recovered
    have hagain (error : LlmFailure) : D.Moves (D.inStep turn step)
        (do match ← recoverAttempt turn step recovered error with
          | .again recovered => generateStep provider model turn step attempts false recovered
          | .ended => pure none) (D.Generated turn step) := by
      refine Triple.bind (recoverAttempt_moves recovered error) fun recovery => ?_
      cases recovery with
      | again recovered => exact ih false recovered
      | ended => exact Triple.pure fun _ h => h
    refine Triple.seq (onlyIf_moves appendRuntimeContext_moves) fun _ => ?_
    refine Triple.bind attempt_moves fun attempt => ?_
    rcases attempt with error | ⟨generation, seqs⟩
    · refine ask_then rfl fun cancelled => ?_
      split
      · exact ending closeCancelledStep_moves
      · exact hagain (failure error)
    · have hdrop : ∀ log, D.Attempted turn step
          (fun g => Finishes g.finishReason → D.sound g) (.ok (generation, seqs)) log →
          D.inStep turn step log := fun _ h => h.2
      have hspoken (hfinishes : Finishes generation.finishReason) :
          D.Moves (D.Attempted turn step (fun g => Finishes g.finishReason → D.sound g)
            (.ok (generation, seqs))) (pure (some (generation, seqs)))
            (D.Generated turn step) :=
        Triple.pure fun _ h => ⟨h.1 hfinishes, hfinishes, h.2⟩
      dsimp only
      cases hreason : generation.finishReason with
      | error error => exact Triple.of_pre hdrop (hagain error)
      | aborted _ =>
        refine Triple.of_pre hdrop ?_
        exact ending closeCancelledStep_moves
      | stop => exact hspoken (.inl hreason)
      | toolCalls => exact hspoken (.inr (.inl hreason))
      | maxTokens => exact hspoken (.inr (.inr hreason))

/-! ## Steps and turns -/

/-- What a step leaves: a turn that goes on, or one that has ended. -/
def Stepped (D : Discipline provider model) (turn : Nat) : Bool → List TurnEvent → Prop
  | true => D.inTurn turn
  | false => D.ended

/-- The calls of a message and the end of its step. -/
theorem finishStep_moves (maxSteps : Nat) (generation : LlmGeneration) :
    D.Moves (D.spoken generation turn step) (finishStep turn step maxSteps generation)
      (D.Stepped turn) := by
  have hsilent {p : TurnM Bool} (hreason : generation.finishReason ≠ .toolCalls)
      (h : D.Moves (D.inStep turn step) p (D.Stepped turn)) :
      D.Moves (D.spoken generation turn step) p (D.Stepped turn) :=
    Triple.of_pre (fun _ hspoken => D.silent hspoken hreason) h
  unfold finishStep
  cases hreason : generation.finishReason with
  | toolCalls =>
    refine Triple.seq (D.answered turn step generation hreason) fun exitPlanMode => ?_
    refine Triple.seq closeStep_moves fun _ => ?_
    refine Triple.seq (onlyIf_moves ?_) fun _ => ask_then rfl fun cancelled => ?_
    · refine appendEvent_rule _ (fun _ h => D.noteTurn rfl h) ?_
      intro finalization error log hgood hlog
      exact D.brokenTurn hgood ⟨rfl, rfl⟩ hlog
    split
    · exact ending endAborted_moves
    split
    · exact ending (endTurn_moves .blocked)
    · exact Triple.pure fun _ h => h
  | stop =>
    refine hsilent (by simp [hreason]) (Triple.seq closeStep_moves fun _ => ?_)
    refine ask_then rfl fun cancelled => ?_
    split
    · exact ending endAborted_moves
    refine ask_then rfl fun more => ?_
    split
    · split
      · exact ending (endTurn_moves .blocked)
      · exact Triple.pure fun _ h => h
    · exact ending (endTurn_moves .completed)
  | maxTokens =>
    refine hsilent (by simp [hreason]) (Triple.seq closeStep_moves fun _ => ?_)
    exact ending (endTurn_moves .maxTokens)
  | error error =>
    exact hsilent (by simp [hreason]) (ending (failTurn_moves error))
  | aborted _ =>
    exact hsilent (by simp [hreason]) (ending closeCancelledStep_moves)

variable (attempts maxSteps : Nat)

/-- A generation and its calls. -/
theorem generateAndFinish_moves :
    D.Moves (D.inStep turn step)
      (generateAndFinish provider model attempts turn step maxSteps) (D.Stepped turn) := by
  refine Triple.bind (generateStep_moves attempts true false) fun generated => ?_
  match generated with
  | none => exact Triple.pure fun _ h => h
  | some (generation, seqs) =>
    refine ask_then rfl fun cancelled => ?_
    split
    · refine Triple.of_pre (fun _ h => h.2.2) ?_
      exact ending closeCancelledStep_moves
    · refine Triple.seq ?_ fun _ => finishStep_moves maxSteps generation
      refine appendEvent_rule _ (fun _ h => D.speak _ _ h.1 h.2.2) ?_
      intro finalization error log hgood hlog
      exact D.brokenStep hgood ⟨rfl, rfl⟩ hlog.2.2

/-- A step behind its compaction. -/
theorem requestStep_moves :
    D.Moves (D.inStep turn step) (requestStep provider model attempts turn step maxSteps)
      (D.Stepped turn) := by
  have hprompt : D.Moves (D.inStep turn step) (ofResult (call .assemblePrompt))
      fun _ => D.inStep turn step := by
    intro log hlog assembled hgood
    cases assembled with
    | ok _ => exact hlog
    | error error => exact D.brokenStep hgood rfl hlog
  refine Triple.seq appendRuntimeContext_moves fun _ => ?_
  refine Triple.seq hprompt fun _ => ?_
  refine Triple.seq (compact_moves fun _ _ => rfl) fun compacted => ?_
  rcases compacted with ⟨events, error | _⟩
  · exact ending (failTurn_moves error)
  · exact Triple.seq appendRequest_moves fun _ =>
      generateAndFinish_moves attempts maxSteps

/-- A whole step. -/
theorem runStep_moves (initial : Option Message) :
    D.Moves (D.inTurn turn) (runStep provider model attempts turn step maxSteps initial)
      (D.Stepped turn) := by
  have hstart : D.Moves (D.inTurn turn) (appendEvent (.stepStart turn step))
      fun _ => D.inStep turn step := by
    refine appendEvent_rule _ (fun _ h => D.enter step h) ?_
    intro finalization error log hgood hlog
    exact D.brokenTurn hgood ⟨rfl, rfl⟩ hlog
  have hclaim : D.Moves (D.inStep turn step) (ofResult (call .claimStepBatch))
      fun _ => D.inStep turn step := by
    intro log hlog claimed hgood
    cases claimed with
    | ok _ => exact hlog
    | error error => exact D.brokenStep hgood rfl hlog
  refine Triple.seq hstart fun _ => Triple.seq hclaim fun claimed => ?_
  refine Triple.seq (appendMessages_moves _) fun _ => ?_
  refine Triple.seq (appendSkillContext_moves _) fun _ => ?_
  refine Triple.seq (onlyIf_moves appendWorkspaceInstructions_moves) fun _ => ?_
  refine ask_then rfl fun cancelled => ?_
  split
  · exact ending closeCancelledStep_moves
  · exact requestStep_moves attempts maxSteps

-- The induction is on the steps that remain.
/-- All the steps of a turn. -/
theorem runSteps_moves (attempts maxSteps remaining : Nat) : ∀ initial,
    D.Moves (D.inTurn turn) (runSteps provider model attempts turn maxSteps remaining initial)
      fun _ => D.ended := by
  induction remaining with
  | zero => exact fun _ => endTurn_moves .blocked
  | succ remaining ih =>
    intro initial
    refine ask_then rfl fun cancelled => ?_
    split
    · exact endAborted_moves
    refine Triple.bind (runStep_moves attempts maxSteps initial) fun more => ?_
    cases more with
    | true => exact ih none
    | false => exact Triple.skip

/-- A turn writes nothing, ends as the discipline says, or fails where an
answer broke it. -/
theorem runTurn_ends (initial : Message) :
    D.Moves (fun log => log = []) (runTurn provider model attempts maxSteps initial)
      fun _ log => log = [] ∨ D.ended log := by
  refine ask_then rfl fun cancelled => ?_
  split
  · exact Triple.pure fun _ h => .inl h
  refine ask_then rfl fun turn => ?_
  have hstart : D.Moves (fun log => log = []) (appendEvent (.turnStart turn))
      fun _ => D.inTurn turn := by
    refine appendEvent_rule _ ?_ ?_
    · rintro _ rfl
      exact D.start turn
    · rintro _ _ _ - rfl
      exact D.unstarted
  refine Triple.seq hstart fun _ => ?_
  exact (runSteps_moves attempts maxSteps maxSteps (some initial)).weaken (fun _ h => h)
    fun _ _ h => .inr h

end Discipline

/-! ## Runs of a turn -/

/-- One run of a turn from an empty log: what it returns, if it does, and
the events it appended. -/
def turnRun (provider model : String) (attempts maxSteps : Nat) (initial : Message)
    (env : Prog.Env TurnQuery TurnQuery.Answer) :
    Option (Except AgentError Unit) × List TurnEvent :=
  Prog.run observe env (runTurn provider model attempts maxSteps initial).run 0 []

def TurnAllowed (good : (q : TurnQuery) → q.Answer → Prop) (provider model : String)
    (attempts maxSteps : Nat) (initial : Message) (env : Prog.Env TurnQuery TurnQuery.Answer) :
    Prop :=
  Prog.Allowed good env (runTurn provider model attempts maxSteps initial).run 0

instance {good : (q : TurnQuery) → q.Answer → Prop} [∀ q a, Decidable (good q a)]
    (provider model : String) (attempts maxSteps : Nat) (initial : Message)
    (env : Prog.Env TurnQuery TurnQuery.Answer) :
    Decidable (TurnAllowed good provider model attempts maxSteps initial env) :=
  Prog.Allowed.decidable _ _

theorem Discipline.turnRun_ends {provider model : String} (D : Discipline provider model)
    {attempts maxSteps : Nat} {initial : Message} {env : Prog.Env TurnQuery TurnQuery.Answer}
    (hallowed : TurnAllowed D.good provider model attempts maxSteps initial env)
    {result : Except AgentError Unit} {log : List TurnEvent}
    (hrun : turnRun provider model attempts maxSteps initial env = (some result, log)) :
    log = [] ∨ D.ended log ∨ D.fail log := by
  have hreturned : (turnRun provider model attempts maxSteps initial env).1 = some result := by
    rw [hrun]
  have hends := Triple.of_run (Discipline.runTurn_ends attempts maxSteps initial) rfl
    hallowed hreturned
  have hlog : (turnRun provider model attempts maxSteps initial env).2 = log := by rw [hrun]
  rw [← hlog]
  cases result with
  | ok _ => exact hends.imp_right .inl
  | error _ => exact .inr (.inr hends)

def greeting : Message :=
  { id := ⟨"m1"⟩, role := .user, content := [.text "hi"], source := .user none }

/-- Answers in which nothing fails: the model says one word and stops. -/
def calmAnswer : (q : TurnQuery) → q.Answer
  | .isCancelled => false
  | .cancellationCause => TurnEndCancelCause.user
  | .nextTurn => (1 : Nat)
  | .append _ _ => Except.ok 1
  | .claimStepBatch => Except.ok []
  | .skillCatalog _ => Except.ok none
  | .skill _ => Except.ok ""
  | .workspaceInstructions => none
  | .runtimeContext => none
  | .assemblePrompt => Except.ok ()
  | .compactPressure => CompactionAnswer.mk [] (.ok ())
  | .compactOverflow => CompactionAnswer.mk [] (.ok false)
  | .requestHeaderReason => none
  | .requestContext => none
  | .generate => Except.ok
      [.ok (.blockStart 0 "text"), .ok (.blockEnd 0 (.text "hello")), .ok (.finish .stop none)]
  | .messageId => MessageId.mk "a1"
  | .retryPolicy _ => none
  | .sleep => false
  | .executeTool _ _ _ => ToolOutput.mk [] false .null
  | .hasNextStep => false

end Tessivum.Agent
