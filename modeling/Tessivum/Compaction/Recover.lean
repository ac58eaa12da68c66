/-
Tessivum.Compaction.Recover — automatic compaction (`compact_for_request` of
`src/compaction.rs`).

The loop reads the surface again in every turn. While the request is too large
for its model it summarises the first batch of complete tool groups that holds
no protected message and fits a summary's input, and, where no batch can be
selected, prunes the largest tool result of a group that stands in the way.

What a call fixes before its loop is a `Recovery`. Sums of sizes are unbounded
here; the usage numbers of a log are not sizes, and their sum wraps as in the
source.
-/
import Tessivum.Compaction.Prune

namespace Tessivum.Compaction

open Library Protocol Session

/-! ## Requests and services -/

/-- The fields of `GenerateRequest` that recovery reads. -/
structure GenerateRequest where
  provider : String
  model : String
  messages : List Message
  maxTokens : Option Nat
  /-- `serde_json::to_value` of the system prompt and of the tools. -/
  system : Value
  tools : Value
  /-- `serialized_request_without_messages`. -/
  fixedBytes : Nat

inductive CompactionOutcome where
  | noop (trigger : CompactionTrigger) (tokenEstimate : Nat)
  | compacted (result : CompactionResult)
  | pruned (result : ToolResultPruneResult)
  deriving DecidableEq, Repr

/-- `CompactionService`. `serde` writes every message, the resolver is the one
the summary route is resolved with, and a bound is a `usize`. -/
structure RecoveryService extends Service where
  /-- `Value::to_string`. -/
  valueText : Value → String
  /-- `context_window_resolver`. -/
  resolver : Option (String → String → Option Nat)
  contextWindow_eq : contextWindow = resolver.bind fun resolve => resolve config.provider config.model
  text_isSome : ∀ m, (text m).isSome = true
  maxInputCodepoints_lt : config.maxInputCodepoints < u64Bound

/-- `saturating_add` and `saturating_mul` of a `u64`. -/
def saturate (n : Nat) : Nat := min n (u64Bound - 1)

def softLimit (limit : Nat) : Nat := limit - limit / 4

def isSummary (m : Message) : Bool :=
  match m.source with
  | .plugin plugin _ _ _ _ => plugin == "compact"
  | _ => false

def isUserSource (m : Message) : Bool :=
  match m.source with
  | .user _ => true
  | _ => false

def isPluginSource (name : String) (m : Message) : Bool :=
  match m.source with
  | .plugin plugin _ _ _ _ => plugin == name
  | _ => false

def isToolSource (m : Message) : Bool :=
  match m.source with
  | .tool _ => true
  | _ => false

/-! ## Reading the surface -/

/-- `rposition`: the last position with a property. -/
def rposition {α : Type} (p : α → Bool) : List α → Option Nat
  | [] => none
  | x :: rest =>
    match rposition p rest with
    | some index => some (index + 1)
    | none => if p x then some 0 else none

/-- `max_by_key`: the last of the largest. -/
def maxByKey {α : Type} (key : α → Nat) : List α → Option α
  | [] => none
  | x :: rest =>
    match maxByKey key rest with
    | some y => if key x > key y then some x else some y
    | none => some x

/-- The sum over the positions from `start` up to `stop`. -/
def sliceSum (xs : List Nat) (start stop : Nat) : Nat := ((xs.drop start).take (stop - start)).sum

def pendingAfter (pending : List String) (m : Message) : List String :=
  (toolResults m).foldl (fun pending result => pending.filter fun call => call ≠ result)
    (pending ++ toolCalls m)

/-- The loop of `complete_boundaries`: the positions with no pending call. -/
def boundariesFrom : Nat → List String → List SurfaceMessage → List Nat
  | _, _, [] => []
  | index, pending, entry :: rest =>
    let pending := pendingAfter pending entry.message
    if pending.isEmpty then (index + 1) :: boundariesFrom (index + 1) pending rest
    else boundariesFrom (index + 1) pending rest

def completeBoundaries (surface : List SurfaceMessage) : List Nat := 0 :: boundariesFrom 0 [] surface

/-- `windows(2)`. -/
def windows : List Nat → List (Nat × Nat)
  | start :: stop :: rest => (start, stop) :: windows (stop :: rest)
  | _ => []

def recentWindow (sizes : List Nat) (keep count : Nat) : Nat → Nat → Nat
  | 0, _ => 0
  | start + 1, cp =>
    let size := sizes.getD start 0
    if cp < keep ∧ sizes.length - (start + 1) < count
        ∧ (start + 1 = sizes.length ∨ cp + size ≤ keep) then
      recentWindow sizes keep count start (cp + size)
    else start + 1

def boundaryBefore (boundaries : List Nat) (index : Nat) : Nat :=
  (boundaries.takeWhile (· ≤ index)).getLast?.getD 0

/-! ### Recent usage -/

/-- `header.pointer("/config/" ++ key)` and `source.get(key)`, as strings. -/
def stringAt (key : String) (v : Value) : Option String := (v.get key).bind Value.asStr

def sameHeader (request : GenerateRequest) (header : Value) : Bool :=
  (header.get "config").bind (stringAt "provider") = some request.provider
    && (header.get "config").bind (stringAt "model") = some request.model
    && (header.get "system").getD .null = request.system
    && (header.get "tools").getD .null = request.tools

/-- `usage.get(key).and_then(Value::as_u64).unwrap_or(0)`. -/
def usageNumber (usage : Value) (key : String) : Nat := ((usage.get key).bind Value.asU64).getD 0

/-- The loop of `recent_usage_estimate`, the newest event first. -/
def usageFrom (text : Message → Option String) (request : GenerateRequest)
    (surface : List SurfaceMessage) : List SessionEvent → Nat
  | [] => 0
  | e :: older =>
    match e.surfaceOp with
    | some (.replace _ _) => 0
    | _ =>
      if e.eventType ≠ "assistant/message" then usageFrom text request surface older
      else
        match e.data.get "usage" with
        | none => usageFrom text request surface older
        | some usage =>
          let source := (e.data.get "message").bind fun message => message.get "source"
          if source.bind (stringAt "provider") ≠ some request.provider
              ∨ source.bind (stringAt "model") ≠ some request.model then 0
          else
            let input := (usageNumber usage "inputTokens" + usageNumber usage "cacheReadTokens"
              + usageNumber usage "cacheWriteTokens") % u64Bound
            saturate (input + ((surface.filter fun entry => entry.eventSeq ≥ e.seq).map
              fun entry => messageTokenEstimate text entry.message).sum)

def recentUsageEstimate (text : Message → Option String) (events : List SessionEvent)
    (request : GenerateRequest) (surface : List SurfaceMessage) : Nat :=
  match (events.reverse.find? fun e => e.eventType = "request/header").bind
      fun e => e.data.get "header" with
  | none => 0
  | some header =>
    if sameHeader request header then usageFrom text request surface events.reverse else 0

/-! ## What a call fixes before its loop -/

/-- The bindings before the loop. -/
structure Recovery where
  trigger : CompactionTrigger
  request : GenerateRequest
  seedSeqs : List Nat
  overhead : Nat
  requestLimit : Option Nat
  summaryLimit : Option Nat
  inputCodepointLimit : Nat
  targetCp : Nat
  targetCount : Nat
  keep : Nat
  minimumSummary : Nat

section Reading

variable (service : RecoveryService)

variable (surface : List SurfaceMessage)

def surfaceSizes : List Nat :=
  surface.map fun entry => messageSize service.text entry.message

def surfaceEstimates : List Nat :=
  surface.map fun entry => messageTokenEstimate service.text entry.message

/-- The first half of `compact_for_request`. -/
def recoveryOf (trigger : CompactionTrigger) (request : GenerateRequest)
    (contextWindow : Option Nat) (nextSeq : Nat) {σ : Type} (live : Live σ) : Recovery :=
  let initial := live.state.surface
  let initialIds := initial.map fun entry => entry.message.id
  let extraTokens := ((request.messages.filter fun m => !initialIds.contains m.id).map
    (messageTokenEstimate service.text)).sum
  let requestWindow := contextWindow.or
    (service.resolver.bind fun resolve => resolve request.provider request.model)
  let summaryLimit := summaryTokenLimit service.toService live.header.id
  let targetCp := softLimit service.config.maxInputCodepoints
  { trigger, request
    seedSeqs := (live.state.events.take live.state.seedLength).map SessionEvent.seq
    overhead := saturate (request.fixedBytes + extraTokens)
    requestLimit := requestWindow.map fun window =>
      softLimit (window - request.maxTokens.getD (max (window / 4) 1))
    summaryLimit
    inputCodepointLimit := match summaryLimit with
      | some limit => saturate (limit * 4)
      | none => service.config.maxInputCodepoints
    targetCp
    targetCount := softLimit service.config.maxSurfaceMessages
    keep := max (min (targetCp / 4) ((surfaceSizes service initial).sum / 4)) 1
    minimumSummary := messageSize service.text
      (summaryMessage nextSeq "00000000-0000-0000-0000-000000000000" [.text "."]) }

def maxSteps : Nat := saturate (saturate (surface.length * 2) + 1)

end Reading

/-! ## Selecting a batch -/

def seededAt (recovery : Recovery) (surface : List SurfaceMessage) (index : Nat) : Bool :=
  surface[index]?.any fun entry => recovery.seedSeqs.contains entry.eventSeq

def contextPlugins : List String := ["tessivum/runtime-context", "tessivum-workspace-instructions"]

/-- What is protected at a position, given where the recent window starts. -/
def protectedAt (recovery : Recovery) (surface : List SurfaceMessage) (recentStart index : Nat) :
    Bool :=
  seededAt recovery surface index
    || some index == rposition (fun entry => isUserSource entry.message) surface
    || (contextPlugins.map fun name =>
      rposition (fun entry => isPluginSource name entry.message) surface).contains (some index)
    || index ≥ recentStart

/-- The batch collected so far. -/
structure Batch where
  start : Option Nat
  cp : Nat
  tokens : Nat
  fresh : Bool
  selected : Option CompactionRange

def Batch.empty : Batch := { start := none, cp := 0, tokens := 0, fresh := false, selected := none }

section Step

variable {σ : Type} (service : RecoveryService) (recovery : Recovery)

def exceeds (begin_ stop cp tokens : Nat) : Prop :=
  stop - begin_ > service.config.maxSurfaceMessages ∨ cp > recovery.inputCodepointLimit
    ∨ ∃ limit ∈ recovery.summaryLimit, tokens > limit

instance (begin_ stop cp tokens : Nat) : Decidable (exceeds service recovery begin_ stop cp tokens) := by
  unfold exceeds
  infer_instance

variable (surface : List SurfaceMessage)

def Batch.extend (start stop : Nat) (batch : Batch) : Batch :=
  let begin_ := batch.start.getD start
  let cp := batch.cp + sliceSum (surfaceSizes service surface) start stop
  let fresh := batch.fresh
    || ((surface.drop start).take (stop - start)).any fun entry => !isSummary entry.message
  { start := some begin_, cp
    tokens := batch.tokens + sliceSum (surfaceEstimates service surface) start stop, fresh
    selected := if fresh ∧ cp > recovery.minimumSummary
      then some { start := begin_, last := stop - 1 } else batch.selected }

/-- The loop over the groups between boundaries: the selected range, and a
group that is too large on its own. -/
def selectBatch (surface : List SurfaceMessage) (recentStart : Nat) :
    List Nat → Batch → Option CompactionRange × Option (Nat × Nat)
  | start :: stop :: rest, batch =>
    if (List.range' start (stop - start)).any (protectedAt recovery surface recentStart) then
      if batch.selected.isSome then (batch.selected, none)
      else selectBatch surface recentStart (stop :: rest) Batch.empty
    else
      if exceeds service recovery (batch.start.getD start) stop
          (batch.cp + sliceSum (surfaceSizes service surface) start stop)
          (batch.tokens + sliceSum (surfaceEstimates service surface) start stop) then
        if batch.selected.isSome then (batch.selected, none) else (none, some (start, stop))
      else selectBatch surface recentStart (stop :: rest)
        (batch.extend service recovery surface start stop)
  | _, batch => (batch.selected, none)

def recentStartOf : Nat :=
  let sizes := surfaceSizes service surface
  boundaryBefore (completeBoundaries surface)
    (recentWindow sizes recovery.keep (max (recovery.targetCount / 4) 1) sizes.length 0)

def selection : Option CompactionRange × Option (Nat × Nat) :=
  selectBatch service recovery surface (recentStartOf service recovery surface)
    (completeBoundaries surface) Batch.empty

/-! ## Pruning a group -/

def pruneCap : Nat :=
  min (min (service.config.maxInputCodepoints / 4) (recovery.targetCp / 2))
    (recovery.summaryLimit.getD (u64Bound - 1) / 4)

/-- A group that holds more than half the target and no seed. -/
def blocking (group : Nat × Nat) : Bool :=
  sliceSum (surfaceSizes service surface) group.1 group.2 > recovery.targetCp / 2
    && !(List.range' group.1 (group.2 - group.1)).any (seededAt recovery surface)

/-- The tool result to prune: the largest one of the blocking group, if it
exceeds the cap. -/
def pruneTarget (oversized : Option (Nat × Nat)) : Option SurfaceMessage := do
  let group ← oversized.or ((windows (completeBoundaries surface)).find?
    (blocking service recovery surface))
  let entry ← maxByKey (fun entry => messageSize service.text entry.message)
    (((surface.drop group.1).take (group.2 - group.1)).filter
      fun entry => isToolSource entry.message)
  if messageSize service.text entry.message > pruneCap service recovery then some entry else none

/-! ## The loop -/

/-- What one turn of the loop does not decide. -/
structure StepEnvironment where
  cancelled : Bool
  attempt : Environment
  prune : PruneEnvironment

/-- The state of the loop. -/
structure Progress (σ : Type) where
  live : Live σ
  outcome : Option CompactionOutcome
  completed : Nat

/-- One turn returns from the call, or goes on. -/
inductive Turn (σ : Type) where
  | returned (result : Except CompactionError CompactionOutcome) (live : Live σ)
  | again (progress : Progress σ)

variable (progress : Progress σ)

def totalTokens : Nat :=
  let surface := progress.live.state.surface
  let total := saturate (recovery.overhead + (surfaceEstimates service surface).sum)
  if progress.outcome.isNone then
    max total (recentUsageEstimate service.text progress.live.state.events recovery.request surface)
  else total

def pressured : Bool :=
  let surface := progress.live.state.surface
  match recovery.requestLimit with
  | none => surface.length > recovery.targetCount
      || (surfaceSizes service surface).sum > recovery.targetCp
  | some limit => totalTokens service recovery progress > limit

/-- `outcome.unwrap_or(Noop)`. -/
def settledOutcome : CompactionOutcome :=
  progress.outcome.getD (.noop recovery.trigger (totalTokens service recovery progress))

def protectedInputTooLarge : CompactionError :=
  let surface := progress.live.state.surface
  let totalCp := (surfaceSizes service surface).sum
  invalidCompaction "COMPACTION_PROTECTED_INPUT_TOO_LARGE"
    ("Recovery stopped after " ++ toString progress.completed ++ " committed summaries: "
      ++ toString totalCp ++ " codepoints / " ++ toString recovery.targetCp ++ ", "
      ++ toString surface.length ++ " messages / " ++ toString recovery.targetCount
      ++ ", estimated " ++ toString (totalTokens service recovery progress)
      ++ " tokens. Seed/current input, pending tools, recent context, or one indivisible tool group cannot fit. Shorten the protected input or tool output; committed recovery is retained.")
    (.object [("codepoints", .ofNat totalCp), ("completed", .ofNat progress.completed),
      ("maximum", .ofNat recovery.targetCp)])

def stuck : Turn σ :=
  if !pressured service recovery progress && recovery.trigger = .manual then
    .returned (.ok (settledOutcome service recovery progress)) progress.live
  else .returned (.error (protectedInputTooLarge service recovery progress)) progress.live

variable (S : Serde) (P : Persistence σ)

def summarise (env : StepEnvironment) (range : CompactionRange) (progress : Progress σ) : Turn σ :=
  match planFromSurface service.config service.text progress.live.state.surface range
      recovery.inputCodepointLimit with
  | .error err => .returned (.error err) progress.live
  | .ok plan =>
    match execute S P service.toService env.attempt recovery.trigger plan
        { live := progress.live, attempts := [] } with
    | (.error err, run) => .returned (.error err) run.live
    | (.ok result, run) => .again { live := run.live, outcome := some (.compacted result)
                                    completed := progress.completed + 1 }

def unblock (env : StepEnvironment) (oversized : Option (Nat × Nat)) (progress : Progress σ) :
    Turn σ :=
  match pruneTarget service recovery progress.live.state.surface oversized with
  | none => stuck service recovery progress
  | some entry =>
    match pruneToolResultLocked S P service.text service.valueText env.prune entry.eventSeq
        (pruneCap service recovery) { live := progress.live, attempts := [] } with
    | (.error err, run) => .returned (.error err) run.live
    | (.ok (.pruned result), run) => .again { progress with live := run.live
                                                            outcome := some (.pruned result) }
    | (.ok (.noop _ _), _) => stuck service recovery progress

/-- One turn of the loop of `compact_for_request`. -/
def recoverStep (env : StepEnvironment) (progress : Progress σ) : Turn σ :=
  if env.cancelled then .returned (.error .cancelled) progress.live
  else if !pressured service recovery progress
      && (recovery.trigger = .pressure || progress.outcome.isSome) then
    .returned (.ok (settledOutcome service recovery progress)) progress.live
  else
    match selection service recovery progress.live.state.surface with
    | (some range, _) => summarise service recovery S P env range progress
    | (none, oversized) => unblock service recovery S P env oversized progress

def recoverLoop : Nat → (Nat → StepEnvironment) → Progress σ → Turn σ
  | 0, _, progress => .again progress
  | left + 1, steps, progress =>
    match recoverStep service recovery S P (steps 0) progress with
    | .returned result live => .returned result live
    | .again progress => recoverLoop left (fun turn => steps (turn + 1)) progress

end Step

section Request

variable {σ : Type} (S : Serde) (P : Persistence σ) (service : RecoveryService)

def recoveryExhausted (completed : Nat) : CompactionError :=
  invalidCompaction "COMPACTION_NO_PROGRESS"
    "Recovery exhausted its finite progress bound; committed history is retained."
    (.object [("completed", .ofNat completed)])

/-- `CompactionService::compact_for_request`. `busy` says that another attempt
holds the lease, and `cancelled` what the first read of the token answers. -/
def compactForRequest (trigger : CompactionTrigger) (request : GenerateRequest)
    (contextWindow : Option Nat) (busy cancelled : Bool) (steps : Nat → StepEnvironment)
    (live : Live σ) : Except CompactionError CompactionOutcome × Live σ :=
  if cancelled then (.error .cancelled, live)
  else if busy then (.error (.busy live.header.id), live)
  else
    match nextSeq live.state.events with
    | .error err => (.error (.session err), live)
    | .ok seq =>
      match recoverLoop service (recoveryOf service trigger request contextWindow seq live) S P
          (maxSteps live.state.surface) steps { live, outcome := none, completed := 0 } with
      | .returned result live => (result, live)
      | .again progress => (.error (recoveryExhausted progress.completed), progress.live)

end Request

end Tessivum.Compaction
