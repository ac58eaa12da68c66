/-
Tessivum.Compaction.TurnTheorems — what one turn of the recovery loop does to
the surface when nobody else writes.

`SurfaceStep` is the whole of it: a selected range is replaced by a smaller
summary message of text blocks, or one tool result above the cap is replaced by
a smaller one with the same call. `recoverStep_spec` derives it once from the
runs of the two services; that the loop ends, that its selections can be executed
and what it protects are read off `SurfaceStep`.
-/
import Tessivum.Compaction.PruneTheorems
import Tessivum.Compaction.SelectionTheorems

namespace Tessivum.Compaction

open Library Protocol Session List

variable {σ : Type} {S : Serde} {P : Persistence σ} {service : RecoveryService}
  {recovery : Recovery}

/-! ## Nobody else writes -/

/-- The other writers do not call. -/
structure StepEnvironment.Quiet (env : StepEnvironment) : Prop where
  attempt : ∀ point, env.attempt.calls point = []
  prune : env.prune.calls = []

def AllOwn (run : Run σ) : Prop := ∀ a ∈ run.attempts, a.own = true

theorem foreignEvents_of_own {attempts : List Attempt} (h : ∀ a ∈ attempts, a.own = true) :
    foreignEvents attempts = [] := by
  rw [foreignEvents, admittedBy, filter_eq_nil_iff.mpr, map_nil]
  intro a ha
  simp [h a ha]

theorem AllOwn.append (run : Run σ) (spec : AppendSpec) (token : Cancellation) (h : AllOwn run) :
    AllOwn (run.append S P spec token).2 := by
  intro a ha
  rcases mem_append.mp ha with ha | ha
  · exact h a ha
  · rw [mem_singleton.mp ha]

theorem Follows.append (hP : P.Lawful) {start : Live σ} (run : Run σ) (spec : AppendSpec)
    (token : Cancellation) (h : Follows S P start run) :
    Follows S P start (run.append S P spec token).2 := by
  rcases happend : run.append S P spec token with ⟨result, _⟩
  cases result with
  | error err => exact (h.append_error hP happend).1
  | ok seq => exact (h.append_ok hP happend).1

/-! ### What every own append keeps, the services keep -/

section Kept

variable {env : Environment} (hquiet : ∀ point, env.calls point = []) {Inv : Run σ → Prop}
  (happend : ∀ run spec token, Inv run → Inv (run.append S P spec token).2)

include hquiet happend

omit happend in
theorem interfere_quiet (run : Run σ) (point : Point) :
    run.interfere S P (env.calls point) = run := by
  rw [hquiet point]
  rfl

variable {run : Run σ}

theorem finishError_kept (h : Inv run) (err : CompactionError) :
    Inv (finishError S P env run err).2 := by
  unfold finishError appendEnd
  simp only [interfere_quiet hquiet]
  have hend := happend run
    (endSpec env.compactionId (openTurn run.live.state.events) (some err)) .never h
  split <;> rename_i hclosed <;> rw [hclosed] at hend <;> exact hend

/-- The replacement keeps what every append keeps. -/
theorem executeReplacement_kept (h : Inv run) (trigger : CompactionTrigger) (plan : Plan)
    (turn : Option Nat) (startSeq summarySeq : Nat) (replacement : Message) :
    Inv (executeReplacement S P env trigger plan turn startSeq summarySeq replacement run).2 := by
  unfold executeReplacement
  split
  · exact h
  · rename_i stop _
    simp only [interfere_quiet hquiet]
    have hreplaced := happend run
      (replacementSpec S plan startSeq summarySeq stop replacement) env.replacementToken h
    split
    · rename_i hresult
      rw [hresult] at hreplaced
      exact finishError_kept hquiet happend hreplaced _
    · rename_i _ hresult
      rw [hresult] at hreplaced
      unfold appendEnd
      simp only [interfere_quiet hquiet]
      have hend := happend _ (endSpec env.compactionId turn none) .never hreplaced
      split <;> rename_i hclosed <;> rw [hclosed] at hend <;> exact hend

/-- A started execution keeps what every append keeps. -/
theorem executeStarted_kept (h : Inv run) (service : Service) (trigger : CompactionTrigger)
    (plan : Plan) (turn : Option Nat) (startSeq : Nat) :
    Inv (executeStarted S P service env trigger plan turn startSeq run).2 := by
  unfold executeStarted
  split
  · exact finishError_kept hquiet happend h _
  · rename_i generation summary _
    simp only [interfere_quiet hquiet]
    have hsummary := happend run
      (summarySpec service plan env.compactionId generation summary) env.summaryToken h
    split
    · rename_i hresult
      rw [hresult] at hsummary
      exact finishError_kept hquiet happend hsummary _
    · rename_i hresult
      rw [hresult] at hsummary
      unfold executeSummary
      dsimp only
      split
      · exact finishError_kept hquiet happend hsummary _
      · split
        · exact finishError_kept hquiet happend hsummary _
        · exact executeReplacement_kept hquiet happend hsummary _ _ _ _ _ _

/-- An execution keeps what every append keeps. -/
theorem execute_kept (h : Inv run) (service : Service) (trigger : CompactionTrigger) (plan : Plan) :
    Inv (execute S P service env trigger plan run).2 := by
  unfold execute
  split
  · exact h
  · split
    · exact h
    · simp only [interfere_quiet hquiet]
      have hstart := happend run
        (startSpec env.compactionId (openTurn run.live.state.events)) env.startToken h
      split
      · rename_i hresult
        rw [hresult] at hstart
        exact hstart
      · rename_i hresult
        rw [hresult] at hstart
        exact executeStarted_kept hquiet happend hstart _ _ _ _ _

end Kept

variable {env : PruneEnvironment} {limit : Nat} {plan : Plan} {range : CompactionRange}
  {surface : List SurfaceMessage} {entry : SurfaceMessage} {live : Live σ}

theorem pruneToolResultLocked_own {text : Message → Option String} {valueText : Value → String}
    (hquiet : env.calls = []) (sourceEventSeq maxCodepoints : Nat) (live : Live σ) :
    AllOwn (pruneToolResultLocked S P text valueText env sourceEventSeq
      maxCodepoints { live, attempts := [] }).2 := by
  have hnone : AllOwn ({ live, attempts := [] } : Run σ) := fun _ ha => (by cases ha)
  unfold pruneToolResultLocked
  split
  · exact hnone
  · dsimp only
    split
    · exact hnone
    · exact hnone
    · rename_i position replacement original retained _
      rw [hquiet]
      have happended := AllOwn.append (S := S) (P := P) _ (pruneSpec S sourceEventSeq position
        live.state.surface replacement original retained) env.token hnone
      split <;> rename_i happend <;>
        rw [show Run.interfere S P { live, attempts := [] } [] = { live, attempts := [] } from rfl]
          at happend <;> rw [happend] at happended <;> exact happended

/-! ## Sizes -/

theorem serializedCodepoints_eq (service : RecoveryService) (m : Message) :
    serializedCodepoints service.text m = some (messageSize service.text m) := by
  obtain ⟨t, ht⟩ := isSome_iff_exists.mp (service.text_isSome m)
  rw [messageSize, serializedCodepoints, ht]
  rfl

theorem sum_filterMap_sizes (service : RecoveryService) (messages : List Message) :
    (messages.filterMap (serializedCodepoints service.text)).sum
      = (messages.map (messageSize service.text)).sum := by
  congr 1
  rw [← filterMap_eq_map]
  exact filterMap_congr fun m _ => serializedCodepoints_eq service m

theorem sliceSum_sizes (service : RecoveryService) (surface : List SurfaceMessage)
    (start stop : Nat) :
    sliceSum (surfaceSizes service surface) start stop
      = ((stretch surface start stop).map fun entry =>
        messageSize service.text entry.message).sum := by
  rw [sliceSum_eq, surfaceSizes, stretch_map]

theorem sliceSum_estimates (service : RecoveryService) (surface : List SurfaceMessage)
    (start stop : Nat) :
    sliceSum (surfaceEstimates service surface) start stop
      = ((stretch surface start stop).map fun entry =>
        messageTokenEstimate service.text entry.message).sum := by
  rw [sliceSum_eq, surfaceEstimates, stretch_map]

theorem selectedCodepoints_eq
    (hplan : planFromSurface service.config service.text surface range limit = .ok plan) :
    selectedCodepoints service.toService plan
      = sliceSum (surfaceSizes service surface) range.start (range.last + 1) := by
  rw [selectedCodepoints, sum_filterMap_sizes, (planFromSurface_eq_ok hplan).2.2.2.2, drop_take_eq,
    sliceSum_sizes, map_map]
  rfl

/-! ## The largest tool result -/

theorem maxByKey_mem {α : Type} {key : α → Nat} : ∀ {xs : List α} {x : α},
    maxByKey key xs = some x → x ∈ xs
  | [], _, h => nomatch h
  | y :: rest, x, h => by
    rw [maxByKey] at h
    split at h
    · rename_i hrest
      split at h
      · exact mem_cons.mpr (.inl (some.inj h).symm)
      · obtain rfl := some.inj h
        exact mem_cons_of_mem y (maxByKey_mem hrest)
    · exact mem_cons.mpr (.inl (some.inj h).symm)

/-- The result that is pruned is a large one outside of the seed. -/
theorem pruneTarget_spec {oversized : Option (Nat × Nat)}
    (hoversized : ∀ group ∈ oversized,
      Oversized recovery surface (recentStartOf service recovery surface) group)
    (h : pruneTarget service recovery surface oversized = some entry) :
    entry ∈ surface ∧ isToolSource entry.message = true
      ∧ recovery.seedSeqs.contains entry.eventSeq = false
      ∧ pruneCap service recovery < messageSize service.text entry.message := by
  unfold pruneTarget at h
  obtain ⟨group, hgroup, h⟩ := bind_eq_some_iff.mp h
  obtain ⟨found, hfound, h⟩ := bind_eq_some_iff.mp h
  split at h
  · rename_i hlarge
    obtain rfl := some.inj h
    -- neither kind of group touches the seed
    have hunseeded : ∀ i, group.1 ≤ i → i < group.2 → seededAt recovery surface i = false := by
      intro i hle hlt
      rcases Option.or_eq_some_iff.mp hgroup with hgroup | ⟨_, hgroup⟩
      · have hprotected := hoversized group hgroup i hle hlt
        unfold protectedAt at hprotected
        simp only [or_eq_false_iff] at hprotected
        exact hprotected.1.1.1
      · have hblocking := find?_some hgroup
        unfold blocking at hblocking
        rw [and_eq_true, not_eq_true', any_eq_false] at hblocking
        have hnot := hblocking.2 i (mem_range'_1.mpr ⟨hle, by omega⟩)
        simpa using hnot
    obtain ⟨hmem, htool⟩ := mem_filter.mp (maxByKey_mem hfound)
    rw [drop_take_eq] at hmem
    obtain ⟨i, hle, hlt, hi⟩ := exists_of_mem_stretch hmem
    have hseed := hunseeded i hle hlt
    rw [seededAt, hi] at hseed
    exact ⟨mem_of_getElem? hi, htool, by simpa using hseed, hlarge⟩
  · cases h

/-! ## One turn -/

/-- What a turn does to the surface: a range becomes a smaller summary, or a
tool result above the cap a smaller one that answers the same call. -/
inductive SurfaceStep (service : RecoveryService) (recovery : Recovery)
    (surface : List SurfaceMessage) : List SurfaceMessage → Prop
  | summary (range : CompactionRange)
      (hselected : Selected service recovery surface (recentStartOf service recovery surface) range)
      (entry : SurfaceMessage) (compactionId : String)
      (hsource : entry.message.source = .plugin "compact" (some compactionId) none none none)
      (htexts : ∀ block ∈ entry.message.content, ∃ t, block = .text t)
      (hsmaller : messageSize service.text entry.message
        < sliceSum (surfaceSizes service surface) range.start (range.last + 1)) :
      SurfaceStep service recovery surface (splice surface range.start (range.last + 1) entry)
  | prune (position : Nat) (old new : SurfaceMessage) (hold : surface[position]? = some old)
      (hseed : recovery.seedSeqs.contains old.eventSeq = false) (callId : ToolCallId)
      (content : List ContentBlock) (isError : Option Bool) (output : String)
      (hresult : toolResult old = .ok (callId, content, isError))
      (htexts : ∀ block ∈ content, isText block = true)
      (hnew : new.message = prunedMessage old.eventSeq callId isError output)
      (hlarge : pruneCap service recovery < messageSize service.text old.message)
      (hsmaller : messageSize service.text new.message ≤ pruneCap service recovery) :
      SurfaceStep service recovery surface (splice surface position (position + 1) new)

/-- A turn that returns has changed nothing or made one step; one that goes
on has made a step. -/
def TurnSpec (S : Serde) (P : Persistence σ) (service : RecoveryService) (recovery : Recovery)
    (live : Live σ) : Turn σ → Prop
  | .returned _ live' =>
    live'.state.surface = live.state.surface
      ∨ SurfaceStep service recovery live.state.surface live'.state.surface
  | .again next =>
    next.live.header = live.header ∧ next.live.Replays S P
      ∧ SurfaceStep service recovery live.state.surface next.live.state.surface

/-- What an execution nobody disturbs does to the surface. -/
theorem execute_surface (hS : S.RoundTrips) (hP : P.Lawful) (hlive : live.Replays S P)
    {env : Environment} (hquiet : ∀ point, env.calls point = [])
    (hselected : Selected service recovery live.state.surface
      (recentStartOf service recovery live.state.surface) range)
    (hplan : planFromSurface service.config service.text live.state.surface range limit = .ok plan)
    (trigger : CompactionTrigger) :
    let outcome := execute S P service.toService env trigger plan { live, attempts := [] }
    Follows S P live outcome.2
      ∧ ((outcome.2.live.state.surface = live.state.surface ∧ ∃ err, outcome.1 = .error err)
        ∨ SurfaceStep service recovery live.state.surface outcome.2.live.state.surface) := by
  intro outcome
  have hfollows : Follows S P live outcome.2 :=
    execute_kept hquiet (Follows.append hP) (Follows.refl hlive) _ _ _
  have hnone : AllOwn ({ live, attempts := [] } : Run σ) := fun _ ha => (by cases ha)
  have hown : AllOwn outcome.2 := execute_kept hquiet AllOwn.append hnone _ _ _
  refine ⟨hfollows, ?_⟩
  obtain ⟨hsettled, _⟩ := execute_settled env hS hP hlive hplan trigger
  rcases hsettled with ⟨hkept, herror⟩ | ⟨_, after, _, _, summary, _,
    hattempts, _, _, _, _, _, _, _, hsurface, hsmaller, htexts⟩
  · rw [Kept, foreignEvents_of_own hown] at hkept
    exact .inl ⟨hkept, herror⟩
  · have hafter : ∀ a ∈ after, a.own = true := by
      intro a ha
      refine hown a ?_
      rw [hattempts]
      exact mem_append_right _ (mem_cons_of_mem _ ha)
    rw [foreignEvents_of_own hafter] at hsurface
    rw [selectedCodepoints_eq hplan] at hsmaller
    rw [hsurface]
    exact .inr (.summary range hselected _ env.compactionId rfl htexts hsmaller)

/-- What a prune nobody disturbs does to the surface. -/
theorem pruneToolResultLocked_surface (hS : S.RoundTrips) (hP : P.Lawful) (hlive : live.Replays S P)
    (hquiet : env.calls = []) (hentry : entry ∈ live.state.surface)
    (hseed : recovery.seedSeqs.contains entry.eventSeq = false)
    (hlarge : pruneCap service recovery < messageSize service.text entry.message) :
    let outcome := pruneToolResultLocked S P service.text service.valueText env entry.eventSeq
      (pruneCap service recovery) { live, attempts := [] }
    Follows S P live outcome.2
      ∧ ((outcome.2.live.state.surface = live.state.surface
          ∧ ∀ result, outcome.1 ≠ .ok (.pruned result))
        ∨ SurfaceStep service recovery live.state.surface outcome.2.live.state.surface) := by
  intro outcome
  have hspec : PruneRun S P service.text service.valueText env entry.eventSeq
      (pruneCap service recovery) live outcome ∧ Follows S P live outcome.2 :=
    pruneToolResultLocked_run service.text service.valueText hS hP hlive env _ _
  have hown : AllOwn outcome.2 := pruneToolResultLocked_own hquiet _ _ live
  clear_value outcome
  obtain ⟨hrun, hfollows⟩ := hspec
  refine ⟨hfollows, ?_⟩
  cases hrun with
  | cancelled _ | refused err _ | fits count _ => exact .inl ⟨rfl, fun _ h => (by cases h)⟩
  | unwritten position original retained replacement _ err run hkept _ =>
    rw [Kept, foreignEvents_of_own hown] at hkept
    exact .inl ⟨hkept, fun _ h => (by cases h)⟩
  | pruned position original retained replacement hplan seq run hpruned =>
    obtain ⟨_, _, _, _, _, _, _, hsurface⟩ := hpruned
    obtain ⟨old, callId, content, isError, output, hold, hseq, hresult, htexts, hreplacement,
      hcap, _⟩ := prunePlan_eq_shrink hplan
    -- the entry that was found is the target: numbers are distinct
    have hdistinct := (Live.Replays.accepted hlive).surfaceSeqs_nodup
    have hsame : old = entry :=
      inj_on_of_nodup_map hdistinct (mem_of_getElem? hold) hentry hseq
    subst hsame
    rw [hsurface]
    exact .inr (.prune position old _ hold hseed callId content isError output hresult htexts
      hreplacement hlarge hcap)

theorem stuck_spec (progress : Progress σ) :
    TurnSpec S P service recovery progress.live (stuck service recovery progress) := by
  unfold stuck
  split <;> exact .inl rfl

/-- One turn of the loop: it returns, or it goes on from a surface step. -/
theorem recoverStep_spec (hS : S.RoundTrips) (hP : P.Lawful) {env : StepEnvironment}
    (hquiet : env.Quiet) {progress : Progress σ} (hlive : progress.live.Replays S P) :
    TurnSpec S P service recovery progress.live
      (recoverStep service recovery S P env progress) := by
  obtain ⟨hrange, hgroup⟩ := selection_spec service recovery progress.live.state.surface
  unfold recoverStep
  split
  · exact .inl rfl
  · split
    · exact .inl rfl
    · split
      · rename_i range oversized hselection
        rw [hselection] at hrange
        have hselected := hrange range rfl
        unfold summarise
        split
        · exact .inl rfl
        · rename_i hplan
          obtain ⟨hfollows, hsurface⟩ := execute_surface hS hP hlive hquiet.attempt hselected hplan
            recovery.trigger
          split
          · rename_i hresult
            rw [hresult] at hsurface
            rcases hsurface with ⟨hsame, _⟩ | hstep
            · exact .inl hsame
            · exact .inr hstep
          · rename_i hresult
            rw [hresult] at hsurface hfollows
            rcases hsurface with ⟨_, _, herr⟩ | hstep
            · cases herr
            · exact ⟨hfollows.header, hfollows.replays, hstep⟩
      · rename_i hselection
        rw [hselection] at hgroup
        unfold unblock
        split
        · exact stuck_spec progress
        · rename_i htarget
          obtain ⟨hentry, _, hseed, hlarge⟩ := pruneTarget_spec hgroup htarget
          obtain ⟨hfollows, hsurface⟩ := pruneToolResultLocked_surface hS hP hlive hquiet.prune
            hentry hseed hlarge
          split
          · rename_i hresult
            rw [hresult] at hsurface
            rcases hsurface with ⟨hsame, _⟩ | hstep
            · exact .inl hsame
            · exact .inr hstep
          · rename_i result run hresult
            rw [hresult] at hsurface hfollows
            rcases hsurface with ⟨_, hnot⟩ | hstep
            · exact absurd rfl (hnot result)
            · exact ⟨hfollows.header, hfollows.replays, hstep⟩
          · exact stuck_spec progress

/-! ## Calls and results -/

theorem stretch_one {position : Nat} (h : surface[position]? = some entry) :
    stretch surface position (position + 1) = [entry] := by
  rw [stretch_succ (le_refl position) h, stretch_self, nil_append]

theorem collectBlocks_texts : ∀ {blocks : List ContentBlock},
    (∀ block ∈ blocks, ∃ t, block = .text t) → collectBlocks blocks = []
  | [], _ => rfl
  | block :: rest, h => by
    obtain ⟨t, rfl⟩ := h block mem_cons_self
    rw [collectBlocks, collectBlocks_texts fun b hb => h b (mem_cons_of_mem _ hb)]
    rfl

theorem isText_eq_true {block : ContentBlock} (h : isText block = true) : ∃ t, block = .text t := by
  cases block with
  | text t => exact ⟨t, rfl⟩
  | _ => cases h

theorem bracketOf_texts (h : ∀ block ∈ entry.message.content, ∃ t, block = .text t) :
    bracketOf entry = { opens := [], closes := [] } := by
  have hcalls : toolCalls entry.message = [] := by
    rw [toolCalls, filterMap_eq_nil_iff]
    intro block hblock
    obtain ⟨t, rfl⟩ := h block hblock
    rfl
  rw [bracketOf, hcalls, toolResults, collectBlocks_texts h]

theorem bracketOf_pruned {old new : SurfaceMessage} {callId : ToolCallId}
    {content : List ContentBlock} {isError : Option Bool} {output : String}
    (hresult : toolResult old = .ok (callId, content, isError))
    (htexts : ∀ block ∈ content, isText block = true)
    (hnew : new.message = prunedMessage old.eventSeq callId isError output) :
    bracketOf new = bracketOf old := by
  obtain ⟨_, hcontent⟩ := toolResult_eq_ok.mp hresult
  have hnone : collectBlocks content = [] :=
    collectBlocks_texts fun block hblock => isText_eq_true (htexts block hblock)
  rw [bracketOf, bracketOf, hnew, toolCalls, toolCalls, toolResults, toolResults, hcontent]
  simp [prunedMessage, collectBlocks, collectToolResults, hnone]

/-- A condition along the calls and results that a message without any meets
is kept by every step. -/
theorem SurfaceStep.along {ok : List String → Bracket String → Prop}
    (hok : ok [] { opens := [], closes := [] }) {surface' : List SurfaceMessage}
    (h : SurfaceStep service recovery surface surface') (halong : Along ok [] (brackets surface)) :
    Along ok [] (brackets surface') := by
  cases h with
  | summary range hselected entry compactionId hsource htexts =>
    have hle : range.start ≤ range.last + 1 := le_succ_of_le hselected.ordered
    have hstart := (mem_completeBoundaries.mp hselected.start_mem).2
    have hstop := (mem_completeBoundaries.mp hselected.stop_mem).2
    have hbracket := bracketOf_texts htexts
    rw [← split_stretch surface hle, brackets_append, brackets_append] at halong
    rw [← take_append_stretch hle, brackets_append] at hstop
    rw [splice, brackets_append, brackets, brackets, map_cons, hbracket]
    exact halong.replace hstart hstop hok rfl
  | prune position old new hold hseed callId content isError output hresult htexts hnew hlarge
      hsmaller =>
      have hbracket := bracketOf_pruned hresult htexts hnew
      have hsplit := split_stretch surface (le_succ position)
      rw [stretch_one hold] at hsplit
      rw [← hsplit, brackets_append, brackets_append] at halong
      rw [splice, brackets_append, brackets, brackets, map_cons, hbracket]
      rwa [append_assoc] at halong

/-! ## The whole loop -/

/-- An invariant of the surface that every step keeps holds where the loop
ends. -/
theorem recoverLoop_invariant (hS : S.RoundTrips) (hP : P.Lawful)
    {Inv : List SurfaceMessage → Prop}
    (hstep : ∀ surface surface', Inv surface → SurfaceStep service recovery surface surface' →
      Inv surface') :
    ∀ (left : Nat) (steps : Nat → StepEnvironment), (∀ turn, (steps turn).Quiet) →
      ∀ progress : Progress σ, progress.live.Replays S P → Inv progress.live.state.surface →
        match recoverLoop service recovery S P left steps progress with
        | .returned _ live => Inv live.state.surface
        | .again progress => Inv progress.live.state.surface
  | 0, _, _, progress, _, hinv => hinv
  | left + 1, steps, hquiet, progress, hlive, hinv => by
    have hspec : TurnSpec S P service recovery progress.live
        (recoverStep service recovery S P (steps 0) progress) :=
      recoverStep_spec hS hP (hquiet 0) hlive
    rw [recoverLoop]
    cases hturn : recoverStep service recovery S P (steps 0) progress with
    | returned result live =>
      rw [hturn] at hspec
      rcases hspec with hsame | hmoved
      · rw [← hsame] at hinv
        exact hinv
      · exact hstep _ _ hinv hmoved
    | again next =>
      rw [hturn] at hspec
      obtain ⟨_, hnext, hmoved⟩ := hspec
      exact recoverLoop_invariant hS hP hstep left (fun turn => steps (turn + 1))
        (fun turn => hquiet (turn + 1)) next hnext (hstep _ _ hinv hmoved)

/-- What every surface step keeps holds after the call. -/
theorem compactForRequest_invariant (hS : S.RoundTrips) (hP : P.Lawful) (hlive : live.Replays S P)
    (trigger : CompactionTrigger) (request : GenerateRequest) (contextWindow : Option Nat)
    (busy cancelled : Bool) {steps : Nat → StepEnvironment} (hquiet : ∀ turn, (steps turn).Quiet)
    (Inv : List SurfaceMessage → Prop)
    (hstep : ∀ seq surface surface', Inv surface →
      SurfaceStep service (recoveryOf service trigger request contextWindow seq live) surface
        surface' → Inv surface') (hinv : Inv live.state.surface) :
    Inv (compactForRequest S P service trigger request contextWindow busy cancelled steps
      live).2.state.surface := by
  unfold compactForRequest
  split
  · exact hinv
  · split
    · exact hinv
    · split
      · exact hinv
      · rename_i seq _
        have hloop := recoverLoop_invariant hS hP (hstep seq) (maxSteps live.state.surface) steps
          hquiet { live, outcome := none, completed := 0 } hlive hinv
        split
        · rename_i hresult
          rw [hresult] at hloop
          exact hloop
        · rename_i hresult
          rw [hresult] at hloop
          exact hloop

end Tessivum.Compaction
