/-
Tessivum.Agent.TurnTheorems — when a turn is closed.

The events of a turn open and close scopes: a turn, and inside it one step at a
time (`Scope.next`). `turn_closed` says that a turn that returns leaves no
scope open, whatever the model, the tools, the retry policy and the compaction
answer and wherever the cancellation fires, provided the environment is
`Unbroken`: no append of the turn but a chunk's is refused, the skill service,
the step claim and the prompt assembly do not fail, and no tool dispatches a
turn or step event.
-/
import Tessivum.Agent.TurnRules

namespace Tessivum.Agent

open Library Protocol Llm

/-! ## Scopes -/

/-- What is open. -/
inductive Scope where
  | closed
  | turn (turn : Nat)
  | step (turn step : Nat)
  deriving DecidableEq, Repr

def boundaryTypes : List String := ["turn/start", "turn/end", "step/start", "step/end"]

def TurnEvent.isBoundary : TurnEvent → Bool
  | .turnStart _ => true
  | .stepStart _ _ => true
  | .stepEnd _ _ => true
  | .turnEnd _ _ => true
  | .dispatch eventType _ => eventType ∈ boundaryTypes
  | _ => false

def Scope.next : Scope → TurnEvent → Option Scope
  | .closed, .turnStart t => some (.turn t)
  | .turn t, .stepStart t' n => if t' = t then some (.step t n) else none
  | .step t n, .stepEnd t' n' => if t' = t ∧ n' = n then some (.turn t) else none
  | .turn t, .turnEnd t' _ => if t' = t then some .closed else none
  | scope, event => if event.isBoundary then none else some scope

def scopeOf (log : List TurnEvent) : Option Scope := log.foldlM Scope.next .closed

/-- A log that is well nested and leaves `scope` open. -/
def At (scope : Scope) (log : List TurnEvent) : Prop := scopeOf log = some scope

instance (scope : Scope) (log : List TurnEvent) : Decidable (At scope log) :=
  inferInstanceAs (Decidable (_ = _))

variable {event : TurnEvent} {log : List TurnEvent} {scope : Scope}

theorem At.snoc {scope' : Scope} (h : At scope log) (hnext : scope.next event = some scope') :
    At scope' (log ++ [event]) := by
  unfold At scopeOf at *
  rw [List.foldlM_append, h]
  simp [hnext]

theorem Scope.next_quiet (scope : Scope) (h : event.isBoundary = false) :
    scope.next event = some scope := by
  cases event <;> cases scope <;> simp_all [Scope.next, TurnEvent.isBoundary]

theorem turnEnd_mem_of_scope {events : List TurnEvent} :
    ∀ {scope : Scope}, events.foldlM Scope.next scope = some .closed → ∀ turn,
      (.turnStart turn ∈ events ∨ scope = .turn turn ∨ ∃ step, scope = .step turn step) →
      ∃ reason, .turnEnd turn reason ∈ events := by
  induction events with
  | nil =>
    intro scope h turn hopen
    cases h
    simp at hopen
  | cons event rest ih =>
    intro scope h turn hopen
    rw [foldlM_cons] at h
    obtain ⟨mid, hmid, hrest⟩ := bind_eq_some_iff.mp h
    by_cases hend : ∃ reason, event = .turnEnd turn reason
    · obtain ⟨reason, rfl⟩ := hend
      exact ⟨reason, mem_cons_self⟩
    · have hmid' : .turnStart turn ∈ rest ∨ mid = .turn turn ∨ ∃ step, mid = .step turn step := by
        rcases hopen with hmem | hscope
        · rcases mem_cons.mp hmem with rfl | hmem
          · right
            cases scope <;> simp_all [Scope.next, TurnEvent.isBoundary]
          · exact .inl hmem
        · right
          cases event <;> rcases hscope with rfl | ⟨step, rfl⟩ <;>
            simp_all [Scope.next, TurnEvent.isBoundary] <;> grind
      obtain ⟨reason, hmem⟩ := ih hrest turn hmid'
      exact ⟨reason, mem_cons_of_mem event hmem⟩

/-- Where a turn was started, the log is well nested with nothing open and
holds the end of the turn. -/
def TurnClosed (log : List TurnEvent) : Prop :=
  ∀ turn, .turnStart turn ∈ log → At .closed log ∧ ∃ reason, .turnEnd turn reason ∈ log

theorem At.turnClosed (h : At .closed log) : TurnClosed log :=
  fun turn hmem => ⟨h, turnEnd_mem_of_scope h turn (.inl hmem)⟩

/-! ## The condition on the answers -/

instance : ∀ (q : TurnQuery) (a : q.Answer), Decidable (Breaks q a)
  | .append event _, (written : Except AppendError Nat) =>
    inferInstanceAs (Decidable (written.isOk = false ∧ event.survivable = false))
  | .claimStepBatch, (claimed : Except AgentError (List Message)) =>
    inferInstanceAs (Decidable (claimed.isOk = false))
  | .skillCatalog _, (context : Except AgentError (Option SkillContext)) =>
    inferInstanceAs (Decidable (context.isOk = false))
  | .skill _, (tag : Except AgentError String) => inferInstanceAs (Decidable (tag.isOk = false))
  | .assemblePrompt, (assembled : Except AgentError Unit) =>
    inferInstanceAs (Decidable (assembled.isOk = false))
  | .isCancelled, _ | .cancellationCause, _ | .nextTurn, _ | .workspaceInstructions, _
  | .runtimeContext, _ | .compactPressure, _ | .compactOverflow, _ | .requestHeaderReason, _
  | .requestContext, _ | .generate, _ | .messageId, _ | .retryPolicy _, _ | .sleep, _
  | .executeTool _ _ _, _ | .hasNextStep, _ => .isFalse id

def dispatchedTypes : (q : TurnQuery) → q.Answer → List String
  | .executeTool _ _ _, (output : ToolOutput) => (codeDispatches output).map Prod.fst
  | _, _ => []

/-- An answer that breaks no `?` of a started turn and dispatches no
turn or step event. -/
def Unbroken (q : TurnQuery) (a : q.Answer) : Prop :=
  ¬Breaks q a ∧ ∀ eventType ∈ dispatchedTypes q a, eventType ∉ boundaryTypes

instance (q : TurnQuery) (a : q.Answer) : Decidable (Unbroken q a) :=
  inferInstanceAs (Decidable (_ ∧ _))

/-! ## The nesting discipline -/

theorem TurnEvent.isBoundary_of_isNote (h : event.isNote = true) : event.isBoundary = false := by
  cases event <;> simp_all [TurnEvent.isNote, TurnEvent.isBoundary]

theorem At.quiet (h : At scope log) (hquiet : event.isBoundary = false) :
    At scope (log ++ [event]) :=
  h.snoc (scope.next_quiet hquiet)

/-- What a compaction appends opens and closes nothing. -/
theorem At.compacted {q : TurnQuery} {a : q.Answer} (h : At scope log) :
    At scope (log ++ compactionEvents q a) := by
  have hquiet : ∀ events : List TurnEvent, (∀ event ∈ events, event.isBoundary = false) →
      events.foldlM Scope.next scope = some scope := by
    intro events
    induction events with
    | nil => exact fun _ => rfl
    | cons event rest ih =>
      intro hall
      rw [foldlM_cons, scope.next_quiet (hall event mem_cons_self)]
      exact ih fun event hevent => hall event (mem_cons_of_mem _ hevent)
  unfold At scopeOf at *
  rw [List.foldlM_append, h]
  refine hquiet _ fun event hevent => ?_
  obtain ⟨_, rfl⟩ := mem_compactionEvents hevent
  rfl

def nestedAnswers (turn step : Nat) : Answering Unbroken (fun log => log = []) turn step where
  pending _ := At (.step turn step)
  called _ _ _ h := h.quiet rfl
  result _ _ _ _ h := h.quiet rfl
  note hnote h := h.quiet (TurnEvent.isBoundary_of_isNote hnote)
  dispatched := by
    intro ids log id name arguments output dispatch hgood hmem h
    refine h.quiet ?_
    have hquiet : dispatch.1 ∉ boundaryTypes :=
      hgood.2 dispatch.1 (List.mem_map_of_mem hmem)
    simpa [TurnEvent.isBoundary] using hquiet
  broken hgood hbreaks _ := absurd hbreaks hgood.1

def nesting (provider model : String) : Discipline provider model where
  good := Unbroken
  fail log := log = []
  inTurn turn := At (.turn turn)
  inStep turn step := At (.step turn step)
  spoken _ turn step := At (.step turn step)
  ended := At .closed
  sound _ := True
  unstarted := rfl
  start _ := rfl
  enter _ h := h.snoc (by simp [Scope.next])
  leave h := h.snoc (by simp [Scope.next])
  finish _ h := h.snoc (by simp [Scope.next])
  noteTurn hnote h := h.quiet (TurnEvent.isBoundary_of_isNote hnote)
  noteStep hnote h := h.quiet (TurnEvent.isBoundary_of_isNote hnote)
  compacted _ h := h.compacted
  generated _ _ _ := trivial
  speak _ _ _ h := h.quiet rfl
  silent h _ := h
  answered turn step generation _ := (nestedAnswers turn step).runTools_rule generation.message
  brokenTurn hgood hbreaks _ := absurd hbreaks hgood.1
  brokenStep hgood hbreaks _ := absurd hbreaks hgood.1

/-! ## Turns are closed -/

/-- A turn that returns over unbroken answers leaves nothing open, wherever
the cancellation fires and whatever fails inside it. -/
theorem turn_closed (provider model : String) (attempts maxSteps : Nat) (initial : Message)
    (env : Prog.Env TurnQuery TurnQuery.Answer)
    (hallowed : TurnAllowed Unbroken provider model attempts maxSteps initial env)
    (result : Except AgentError Unit) (log : List TurnEvent)
    (hrun : turnRun provider model attempts maxSteps initial env = (some result, log)) :
    TurnClosed log := by
  rcases (nesting provider model).turnRun_ends hallowed hrun with rfl | hended | hfail
  · exact At.turnClosed rfl
  · exact At.turnClosed hended
  · have hnil : log = [] := hfail
    rw [hnil]
    exact At.turnClosed rfl

/-! ## Concrete runs -/

def withoutSkills : (q : TurnQuery) → q.Answer
  | .skillCatalog _ => Except.error (.runtime "skill catalog is unavailable")
  | q => calmAnswer q

/-- The cancellation fires after `append` chose the live token for the end
of the step and before the session looks at it. -/
def cancelledInAppend : (q : TurnQuery) → q.Answer
  | .append (.stepEnd _ _) false => Except.error .cancelled
  | q => calmAnswer q

/-- The model fails, and the turn is closed with the error. -/
def failingModel : (q : TurnQuery) → q.Answer
  | .generate => Except.error (llmError "LLM_DOWN" "the model is down" .null)
  | q => calmAnswer q

theorem turn_closed_failingModel :
    TurnAllowed Unbroken "p" "m" 1 4 greeting (fun _ => failingModel)
      ∧ TurnClosed (turnRun "p" "m" 1 4 greeting fun _ => failingModel).2 := by
  have hallowed : TurnAllowed Unbroken "p" "m" 1 4 greeting (fun _ => failingModel) := by
    decide +kernel
  refine ⟨hallowed, turn_closed "p" "m" 1 4 greeting (fun _ => failingModel) hallowed (.ok ()) _ ?_⟩
  exact Prod.ext (by decide +kernel) rfl

/-- Two turns that return and are left open: the skill catalogue fails,
with every append answered, and the cancellation lands inside an append. -/
theorem turn_left_open :
    ((turnRun "p" "m" 1 4 greeting fun _ => withoutSkills).1
        = some (.error (.runtime "skill catalog is unavailable"))
      ∧ ¬TurnClosed (turnRun "p" "m" 1 4 greeting fun _ => withoutSkills).2)
    ∧ (turnRun "p" "m" 1 4 greeting fun _ => cancelledInAppend).1
        = some (.error (.session .cancelled))
      ∧ ¬TurnClosed (turnRun "p" "m" 1 4 greeting fun _ => cancelledInAppend).2 := by
  refine ⟨⟨by decide +kernel, ?_⟩, by decide +kernel, ?_⟩
  all_goals
    intro h
    exact absurd (h 1 (by decide +kernel)).1 (by decide +kernel)

end Tessivum.Agent
