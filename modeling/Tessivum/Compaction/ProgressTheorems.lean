/-
Tessivum.Compaction.ProgressTheorems — the recovery loop ends before its
bound.

A turn that goes on makes one of two moves, and each lowers one part of a
measure without raising the other. A summary replaces at least one message
that is not a summary; a prune brings one tool result from above the cap to
below it. Both counts are at most the length of the surface, and the cap is
fixed for the call, so twice the length and one more turns are enough.
-/
import Tessivum.Compaction.TurnTheorems

namespace Tessivum.Compaction

open Library Protocol Session List

variable {σ : Type} {S : Serde} {P : Persistence σ} {service : RecoveryService}
  {recovery : Recovery}

/-! ## The measure -/

def unsummarised (surface : List SurfaceMessage) : Nat :=
  surface.countP fun entry => !isSummary entry.message

def largeResults (service : RecoveryService) (recovery : Recovery)
    (surface : List SurfaceMessage) : Nat :=
  surface.countP fun entry =>
    isToolSource entry.message && pruneCap service recovery < messageSize service.text entry.message

def remaining (service : RecoveryService) (recovery : Recovery) (surface : List SurfaceMessage) :
    Nat :=
  unsummarised surface + largeResults service recovery surface

theorem remaining_le (service : RecoveryService) (recovery : Recovery)
    (surface : List SurfaceMessage) :
    remaining service recovery surface ≤ surface.length * 2 := by
  have hunsummarised : unsummarised surface ≤ surface.length := countP_le_length
  have hlarge : largeResults service recovery surface ≤ surface.length := countP_le_length
  unfold remaining
  omega

/-! ## Replacing a stretch -/

variable {start stop : Nat} {surface surface' : List SurfaceMessage}

theorem countP_splice (p : SurfaceMessage → Bool) (surface : List SurfaceMessage) (h : start ≤ stop)
    (entry : SurfaceMessage) :
    (splice surface start stop entry).countP p + (stretch surface start stop).countP p
      = surface.countP p + [entry].countP p := by
  have hsplit := congrArg (List.countP p) (split_stretch surface h)
  rw [countP_append, countP_append] at hsplit
  rw [splice, countP_append, countP_cons, countP_singleton]
  omega

theorem sum_splice (size : SurfaceMessage → Nat) (surface : List SurfaceMessage) (h : start ≤ stop)
    (entry : SurfaceMessage) :
    ((splice surface start stop entry).map size).sum + ((stretch surface start stop).map size).sum
      = (surface.map size).sum + size entry := by
  have hsplit := congrArg (fun xs => (List.map size xs).sum) (split_stretch surface h)
  simp only [map_append, sum_append] at hsplit
  rw [splice, map_append, map_cons, sum_append, sum_cons]
  omega

/-! ## The two moves -/

theorem toolResult_source {entry : SurfaceMessage} {callId : ToolCallId}
    {content : List ContentBlock} {isError : Option Bool}
    (h : toolResult entry = .ok (callId, content, isError)) :
    isToolSource entry.message = true ∧ isSummary entry.message = false := by
  obtain ⟨hsource, _⟩ := toolResult_eq_ok.mp h
  rw [isToolSource, isSummary, hsource]
  exact ⟨rfl, rfl⟩

/-- A surface step lowers the measure. -/
theorem SurfaceStep.remaining_lt (h : SurfaceStep service recovery surface surface') :
    remaining service recovery surface' < remaining service recovery surface := by
  cases h with
  | summary range hselected entry compactionId hsource =>
    have hle : range.start ≤ range.last + 1 := le_succ_of_le hselected.ordered
    have hkept := countP_splice (fun entry => !isSummary entry.message) surface hle entry
    have hlargeKept := countP_splice (fun entry => isToolSource entry.message
      && pruneCap service recovery < messageSize service.text entry.message) surface hle entry
    -- the range holds a message that is no summary, and its summary is one
    have hfresh : 0 < (stretch surface range.start (range.last + 1)).countP
        fun entry => !isSummary entry.message := by
      obtain ⟨old, hold, hnot⟩ := hselected.fresh
      exact countP_pos_iff.mpr ⟨old, hold, by rw [hnot]; rfl⟩
    have hsummary : isSummary entry.message = true := by
      rw [isSummary, hsource]
      rfl
    have htool : isToolSource entry.message = false := by
      rw [isToolSource, hsource]
    rw [countP_singleton, hsummary] at hkept
    rw [countP_singleton, htool] at hlargeKept
    simp only [Bool.not_true, Bool.false_and, false_eq_true, if_false] at hkept hlargeKept
    unfold remaining unsummarised largeResults
    omega
  | prune position old new hold hseed callId content isError output hresult htexts hnew hlarge
      hsmaller =>
      have hle : position ≤ position + 1 := le_succ position
      obtain ⟨holdTool, holdFresh⟩ := toolResult_source hresult
      have hnewFresh : isSummary new.message = false := by
        rw [hnew]
        rfl
      have hkept := countP_splice (fun entry => !isSummary entry.message) surface hle new
      have hlargeKept := countP_splice (fun entry => isToolSource entry.message
        && pruneCap service recovery < messageSize service.text entry.message) surface hle new
      rw [stretch_one hold, countP_singleton, countP_singleton, holdFresh, hnewFresh]
        at hkept
      rw [stretch_one hold, countP_singleton, countP_singleton, holdTool,
        decide_eq_true hlarge, decide_eq_false (Nat.not_lt.mpr hsmaller)] at hlargeKept
      simp only [Bool.and_true, Bool.and_false, Bool.not_false, false_eq_true, if_true,
        if_false] at hkept hlargeKept
      unfold remaining unsummarised largeResults
      omega

theorem SurfaceStep.total_lt (h : SurfaceStep service recovery surface surface') :
    (surfaceSizes service surface').sum < (surfaceSizes service surface).sum := by
  cases h with
  | summary range hselected entry compactionId hsource htexts hsmaller =>
    have hle : range.start ≤ range.last + 1 := le_succ_of_le hselected.ordered
    have hsplice := sum_splice (fun entry => messageSize service.text entry.message) surface hle
      entry
    rw [sliceSum_sizes] at hsmaller
    unfold surfaceSizes
    omega
  | prune position old new hold hseed callId content isError output hresult htexts hnew hlarge
      hsmaller =>
      have hle : position ≤ position + 1 := le_succ position
      have hsplice := sum_splice (fun entry => messageSize service.text entry.message) surface hle
        new
      rw [stretch_one hold, map_singleton, sum_singleton] at hsplice
      unfold surfaceSizes
      omega

/-! ## The loop -/

theorem recoverLoop_returns (hS : S.RoundTrips) (hP : P.Lawful) :
    ∀ (left : Nat) (steps : Nat → StepEnvironment), (∀ turn, (steps turn).Quiet) →
      ∀ progress : Progress σ, progress.live.Replays S P →
        remaining service recovery progress.live.state.surface < left →
          ∃ result live, recoverLoop service recovery S P left steps progress
            = .returned result live
  | 0, _, _, _, _, hleft => nomatch hleft
  | left + 1, steps, hquiet, progress, hlive, hleft => by
    have hspec : TurnSpec S P service recovery progress.live
        (recoverStep service recovery S P (steps 0) progress) :=
      recoverStep_spec hS hP (hquiet 0) hlive
    rw [recoverLoop]
    cases hturn : recoverStep service recovery S P (steps 0) progress with
    | returned result live => exact ⟨result, live, rfl⟩
    | again next =>
      rw [hturn] at hspec
      obtain ⟨_, hnext, hstep⟩ := hspec
      have hless := hstep.remaining_lt
      exact recoverLoop_returns hS hP left (fun turn => steps (turn + 1))
        (fun turn => hquiet (turn + 1)) next hnext (by omega)

theorem maxSteps_eq {live : Live σ} (hlive : live.Replays S P) :
    maxSteps live.state.surface = live.state.surface.length * 2 + 1 := by
  have hle := surface_length_le hlive
  unfold maxSafeInteger at hle
  unfold maxSteps saturate u64Bound
  omega

/-- The step bound of the recovery loop is sufficient. For every live session
nobody else writes to, every service, request, trigger, window and every
sequence of answers of the model and the token: the loop returns within its
bound, so the call returns what the loop returned and never the error behind
it; and every turn that goes on lowers the total size of the surface. -/
theorem recovery_loop_returns (S : Serde) (hS : S.RoundTrips) (P : Persistence σ) (hP : P.Lawful)
    (service : RecoveryService) (trigger : CompactionTrigger) (request : GenerateRequest)
    (contextWindow : Option Nat) (steps : Nat → StepEnvironment)
    (hquiet : ∀ turn, (steps turn).Quiet) (live : Live σ) (hlive : live.Replays S P) :
    (∀ seq, nextSeq live.state.events = .ok seq →
      ∃ result live', recoverLoop service
          (recoveryOf service trigger request contextWindow seq live) S P
          (maxSteps live.state.surface) steps { live, outcome := none, completed := 0 }
            = .returned result live'
        ∧ compactForRequest S P service trigger request contextWindow false false steps live
            = (result, live'))
    ∧ ∀ (recovery : Recovery) (env : StepEnvironment), env.Quiet →
        ∀ progress next : Progress σ, progress.live.Replays S P →
          recoverStep service recovery S P env progress = .again next →
            (surfaceSizes service next.live.state.surface).sum
              < (surfaceSizes service progress.live.state.surface).sum := by
  refine ⟨fun seq hseq => ?_, fun recovery env henv progress next hprogress hturn => ?_⟩
  · have hremaining := remaining_le service
      (recoveryOf service trigger request contextWindow seq live) live.state.surface
    have hsteps := maxSteps_eq hlive
    obtain ⟨result, live', hloop⟩ := recoverLoop_returns hS hP (maxSteps live.state.surface) steps
      hquiet { live, outcome := none, completed := 0 } hlive
      (show remaining service (recoveryOf service trigger request contextWindow seq live)
        live.state.surface < maxSteps live.state.surface by omega)
    refine ⟨result, live', hloop, ?_⟩
    unfold compactForRequest
    rw [if_neg Bool.false_ne_true, if_neg Bool.false_ne_true, hseq]
    dsimp only
    rw [hloop]
  · have hspec : TurnSpec S P service recovery progress.live
        (recoverStep service recovery S P env progress) := recoverStep_spec hS hP henv hprogress
    rw [hturn] at hspec
    exact hspec.2.2.total_lt

/-! ## A turn that goes on -/

section

variable {plan : Plan} {run : Run σ}

/-- What an execution does that gets a shorter summary. -/
theorem execute_of_summary {service : Service} {env : Environment} {run₁ run₂ : Run σ}
    {startSeq summarySeq : Nat} {generation : LlmGeneration} {summary : List ContentBlock}
    (trigger : CompactionTrigger) (hentry : env.cancelledOnEntry = false)
    (hlimit : summaryTokenLimit service run.live.header.id = none)
    (hcalls : ∀ point, env.calls point = [])
    (hstart : run.append S P (startSpec env.compactionId (openTurn run.live.state.events))
      env.startToken = (.ok startSeq, run₁))
    (hsummary : checkedSummary service env = .ok (generation, summary))
    (hwritten : run₁.append S P (summarySpec service plan env.compactionId generation summary)
      env.summaryToken = (.ok summarySeq, run₂)) (hafter : env.cancelledAfterSummary = false)
    (hshorter : (serializedCodepoints service.text
        (summaryMessage startSeq env.compactionId summary)).getD (u64Bound - 1)
      < selectedCodepoints service plan) :
    execute S P service env trigger plan run =
      executeReplacement S P env trigger plan (openTurn run.live.state.events) startSeq summarySeq
        (summaryMessage startSeq env.compactionId summary) run₂ := by
  have hquiet : ∀ (run : Run σ) (point : Point), run.interfere S P (env.calls point) = run := by
    intro run point
    rw [hcalls]
    rfl
  have hopen : ¬ ∃ limit ∈ summaryTokenLimit service run.live.header.id,
      (plan.messages.map (messageTokenEstimate service.text)).sum > limit := by
    rintro ⟨_, hmem, -⟩
    rw [hlimit] at hmem
    cases hmem
  unfold execute
  rw [if_neg (by rw [hentry]; exact Bool.false_ne_true), if_neg hopen]
  simp only [hquiet, hstart]
  rw [executeStarted, hsummary]
  simp only [hquiet, hwritten]
  rw [executeSummary]
  simp only [hafter, false_eq_true, if_false, if_neg (Nat.not_le.mpr hshorter)]

variable {env : StepEnvironment} {progress : Progress σ}

theorem recoverStep_of_selected {range : CompactionRange} {oversized : Option (Nat × Nat)}
    {result : CompactionResult} (hcancelled : env.cancelled = false)
    (htrigger : recovery.trigger ≠ .pressure) (hfirst : progress.outcome = none)
    (hselected : selection service recovery progress.live.state.surface = (some range, oversized))
    (hplan : planFromSurface service.config service.text progress.live.state.surface range
      recovery.inputCodepointLimit = .ok plan)
    (hexecuted : execute S P service.toService env.attempt recovery.trigger plan
      { live := progress.live, attempts := [] } = (.ok result, run)) :
    recoverStep service recovery S P env progress =
      .again { live := run.live, outcome := some (.compacted result)
               completed := progress.completed + 1 } := by
  have hgoes : ¬ ((!pressured service recovery progress)
      && (decide (recovery.trigger = .pressure) || progress.outcome.isSome)) = true := by
    rw [hfirst, decide_eq_false htrigger]
    simp
  rw [recoverStep, hcancelled, if_neg Bool.false_ne_true, if_neg hgoes, hselected]
  dsimp only
  rw [summarise, hplan]
  dsimp only
  rw [hexecuted]

end

/-! ### Recovering a call with two results -/

def sampleRecovery (config : CompactionConfig) (h : config.maxInputCodepoints < u64Bound) :
    RecoveryService where
  config
  text m := some (messageText (fun _ => "null") m)
  contentToValue content := .array (Wire.blocksToItems content)
  contextWindow := none
  valueText _ := "null"
  resolver := none
  contextWindow_eq := rfl
  text_isSome _ := rfl
  maxInputCodepoints_lt := h

def sampleRequest : GenerateRequest :=
  { provider := "p", model := "m", messages := [], maxTokens := none, system := .null
    tools := .null, fixedBytes := 64 }

/-- Nobody else writes, and the model answers with a short summary. -/
def quietStep : StepEnvironment :=
  { cancelled := false, attempt := quietEnvironment, prune := quietPrune }

theorem quietStep_quiet : quietStep.Quiet := ⟨fun _ => rfl, rfl⟩

def callMessage : Message :=
  { id := ⟨"a"⟩, role := .assistant, content := [.toolCall ⟨"c"⟩ "read" "\x7b\x7d"]
    source := .model "p" "m" none }

def resultMessage : Message :=
  { id := ⟨"r"⟩, role := .user, content := [.toolResult ⟨"c"⟩ [.text "done"] none]
    source := .tool ⟨"c"⟩ }

/-- An assistant message or a tool result appended to the surface. -/
def toolEvent (eventType : String) (m : Message) (seq : Nat) : SessionEvent :=
  { SessionEvent.plain eventType seq 0 (.object [("message", wireSerde.messageToValue m)]) with
    surfaceOp := some .append }

def answeredTwice : Live MemoryState :=
  runState (Live.call wireSerde (memoryPersistence wireSerde)) (memorySession (.plain ⟨"s"⟩ 0))
    [.append (toolEvent "assistant/message" callMessage 0) .never,
     .append (toolEvent "tool/result" resultMessage 1) .never,
     .append (toolEvent "tool/result" resultMessage 2) .never]

def twiceSurface : List SurfaceMessage :=
  [⟨0, callMessage, none⟩, ⟨1, resultMessage, none⟩, ⟨2, resultMessage, none⟩]

theorem answeredTwice_replays :
    answeredTwice.Replays wireSerde (memoryPersistence wireSerde) := memorySession_replays _

theorem answeredTwice_run : nextSeq answeredTwice.state.events = .ok 3
    ∧ answeredTwice.state.surface = twiceSurface := by
  decide +kernel

def twiceService : RecoveryService := sampleRecovery greetingService.config (by decide)

def shortSummary : Message := summaryMessage 3 "c" [.text "hi"]

/-! The sizes are counted on the characters: `String.ofList` adds none. -/

theorem sampleRecovery_count (config : CompactionConfig) (h : config.maxInputCodepoints < u64Bound)
    (m : Message) : serializedCodepoints (sampleRecovery config h).text m =
      some (messageChars (fun _ => "null") m).length :=
  congrArg some String.length_ofList

theorem twice_counts :
    serializedCodepoints twiceService.text callMessage = some 155
      ∧ serializedCodepoints twiceService.text resultMessage = some 156
      ∧ serializedCodepoints twiceService.text shortSummary = some 140
      ∧ serializedCodepoints twiceService.text
          (summaryMessage 3 "00000000-0000-0000-0000-000000000000" [.text "."]) = some 174 := by
  simp only [twiceService, sampleRecovery_count]
  decide +kernel

theorem twice_sizes : surfaceSizes twiceService twiceSurface = [155, 156, 156] := by
  obtain ⟨hcall, hresult, -, -⟩ := twice_counts
  simp only [surfaceSizes, twiceSurface, map_cons, map_nil, messageSize, hcall, hresult,
    getD_some]

def twiceRecovery : Recovery :=
  { trigger := .manual, request := sampleRequest, seedSeqs := [], overhead := 64
    requestLimit := none, summaryLimit := none, inputCodepointLimit := 65536, targetCp := 49152
    targetCount := 384, keep := 116, minimumSummary := 174 }

theorem twiceRecovery_eq :
    recoveryOf twiceService .manual sampleRequest none 3 answeredTwice = twiceRecovery := by
  obtain ⟨-, -, -, hminimum⟩ := twice_counts
  rw [recoveryOf, answeredTwice_run.2, twice_sizes, messageSize, hminimum]
  rfl

theorem twice_selected :
    selection twiceService twiceRecovery twiceSurface = (some { start := 0, last := 1 }, none) := by
  have hboundaries : completeBoundaries twiceSurface = [0, 2, 3] := by decide
  have hstart : recentStartOf twiceService twiceRecovery twiceSurface = 2 := by
    rw [recentStartOf, twice_sizes, hboundaries]
    decide
  rw [selection, hstart, hboundaries]
  simp only [selectBatch, Batch.extend, twice_sizes, exceeds]
  decide

def twicePlan : Plan :=
  { range := { start := 0, last := 1 }, expectedSurfaceEventSeqs := [0, 1, 2]
    shadowedEventSeqs := [0, 1], messages := [callMessage, resultMessage]
    tokenEstimate := tokensFor 311 }

theorem twice_planned : planFromSurface twiceService.config twiceService.text twiceSurface
    { start := 0, last := 1 } twiceRecovery.inputCodepointLimit = .ok twicePlan := by
  obtain ⟨hcall, hresult, -, -⟩ := twice_counts
  have hslice : rangeSlice twiceSurface { start := 0, last := 1 } =
      .ok [⟨0, callMessage, none⟩, ⟨1, resultMessage, none⟩] := rfl
  have hpairs : validateToolPairs twiceSurface { start := 0, last := 1 } = .ok () := by
    decide
  have hcount : inputCodepoints twiceService.text [callMessage, resultMessage] = some 311 := by
    simp only [inputCodepoints, hcall, hresult]
    rfl
  exact planFromSurface_of_count hslice (by decide) hpairs hcount (by decide)

theorem twice_shorter :
    (serializedCodepoints twiceService.text shortSummary).getD (u64Bound - 1)
      < selectedCodepoints twiceService.toService twicePlan := by
  obtain ⟨hcall, hresult, hsummary, -⟩ := twice_counts
  simp only [selectedCodepoints, twicePlan, filterMap_cons, filterMap_nil, hcall, hresult,
    hsummary]
  decide

def twiceStarted : Except SessionError Nat × Run MemoryState :=
  ({ live := answeredTwice, attempts := [] } : Run MemoryState).append wireSerde
    (memoryPersistence wireSerde) (startSpec "c" (openTurn answeredTwice.state.events)) .never

def twiceSummarised : Except SessionError Nat × Run MemoryState :=
  twiceStarted.2.append wireSerde (memoryPersistence wireSerde)
    (summarySpec twiceService.toService twicePlan "c"
      { message := { id := ⟨"a"⟩, role := .assistant, content := [.text "hi"]
                     source := .model "p" "m" none }
        finishReason := .stop, usage := .null } [.text "hi"]) .never

def twiceReplaced : Except CompactionError CompactionResult × Run MemoryState :=
  executeReplacement wireSerde (memoryPersistence wireSerde) quietEnvironment .manual twicePlan
    (openTurn answeredTwice.state.events) 3 4 shortSummary twiceSummarised.2

def replacedSurface : List SurfaceMessage :=
  [⟨5, shortSummary, some [3, 4, 0, 1]⟩, ⟨2, resultMessage, none⟩]

theorem twiceReplaced_run : (twiceStarted.1 = .ok 3 ∧ twiceSummarised.1 = .ok 4)
    ∧ twiceReplaced.1.toOption.isSome = true
    ∧ twiceReplaced.2.live.state.surface = replacedSurface := by
  decide +kernel

theorem twice_executed :
    execute wireSerde (memoryPersistence wireSerde) twiceService.toService quietEnvironment .manual
      twicePlan { live := answeredTwice, attempts := [] } = twiceReplaced :=
  have hstarted := twiceReplaced_run.1.1
  have hsummarised := twiceReplaced_run.1.2
  execute_of_summary .manual rfl rfl (fun _ => rfl) (Prod.ext hstarted rfl) rfl
    (Prod.ext hsummarised rfl) rfl twice_shorter

/-- The call and its first result are summarised, and the loop goes on. -/
theorem answeredTwice_turn :
    ∃ result, recoverStep twiceService twiceRecovery wireSerde (memoryPersistence wireSerde)
      quietStep { live := answeredTwice, outcome := none, completed := 0 } =
        .again { live := twiceReplaced.2.live, outcome := some (.compacted result)
                 completed := 1 } := by
  obtain ⟨-, hok, -⟩ := twiceReplaced_run
  obtain ⟨result, hresult⟩ : ∃ result, twiceReplaced.1 = .ok result := by
    cases hcase : twiceReplaced.1 with
    | ok result => exact ⟨result, rfl⟩
    | error err =>
      rw [hcase] at hok
      cases hok
  have hselected := twice_selected
  have hplan := twice_planned
  rw [← answeredTwice_run.2] at hselected hplan
  exact ⟨result, recoverStep_of_selected rfl CompactionTrigger.noConfusion rfl hselected hplan
    (twice_executed.trans (Prod.ext hresult rfl))⟩

theorem recovery_loop_returns_twice :
    (∃ result live', recoverLoop twiceService
        (recoveryOf twiceService .manual sampleRequest none 3 answeredTwice) wireSerde
        (memoryPersistence wireSerde) (maxSteps answeredTwice.state.surface) (fun _ => quietStep)
        { live := answeredTwice, outcome := none, completed := 0 } = .returned result live'
      ∧ compactForRequest wireSerde (memoryPersistence wireSerde) twiceService .manual
          sampleRequest none false false (fun _ => quietStep) answeredTwice = (result, live'))
    ∧ ∃ next, recoverStep twiceService twiceRecovery wireSerde (memoryPersistence wireSerde)
          quietStep { live := answeredTwice, outcome := none, completed := 0 } = .again next
        ∧ (surfaceSizes twiceService next.live.state.surface).sum
          < (surfaceSizes twiceService answeredTwice.state.surface).sum := by
  have hreturns := recovery_loop_returns wireSerde wireSerde_roundTrips
    (memoryPersistence wireSerde) (memoryPersistence_lawful wireSerde) twiceService .manual
    sampleRequest none (fun _ => quietStep) (fun _ => quietStep_quiet) answeredTwice
    answeredTwice_replays
  obtain ⟨result, hturn⟩ := answeredTwice_turn
  have hless := hreturns.2 twiceRecovery quietStep quietStep_quiet _ _ answeredTwice_replays hturn
  exact ⟨hreturns.1 3 answeredTwice_run.1, _, hturn, hless⟩

end Tessivum.Compaction
