/-
Tessivum.Goal.Ledger — the goal ledger and its replay from the session log
(`validate_goal_operation`, `apply_snapshot`, `apply_goal_event` and
`apply_goal_round` of `src/goal.rs`).

The ledger is folded from the log. A `goal/change` event carries the next
snapshot of one goal and must be a legal step from the snapshot before it. A
`user/message` event whose source is a goal starts a round of that goal and
must name its current revision and its next round.

The `BTreeMap`s of the source are `AList`s: the ledger only looks up, inserts,
removes and asks whether any value satisfies a test.
-/
import Tessivum.Goal.Change

namespace Tessivum.Goal

open Library Protocol Session

abbrev GoalMap (α : Type) : Type := AList fun _ : String => α

/-- A bounded run of automatic rounds over one goal. -/
structure Activation where
  id : Nat
  reference : GoalRef
  maxRounds : Nat
  rounds : Nat
  firstEventSeq : Nat
  lastUserEventSeq : Option Nat
  queuedRound : Option Nat
  deriving DecidableEq, Repr

structure GoalState where
  goals : GoalMap GoalSnapshot
  times : GoalMap GoalTimes
  blockedReasons : GoalMap GoalBlockReason
  activation : Option Activation
  nextActivation : Nat
  observedEvents : Nat
  current : Option String

/-- `GoalState::default`. -/
def GoalState.empty : GoalState :=
  { goals := ∅, times := ∅, blockedReasons := ∅, activation := none, nextActivation := 0
    observedEvents := 0, current := none }

variable (state : GoalState)

/-- `state.next_activation.checked_add(1).unwrap_or(1)`. -/
def GoalState.nextActivationId : Nat :=
  if state.nextActivation + 1 < u64Bound then state.nextActivation + 1 else 1

/-! ## Legal steps -/

/-- The table of `validate_goal_operation` for a goal that exists. -/
def operationValid (operation : GoalOperation) (current next : GoalSnapshot) : Bool :=
  let sameDefinition :=
    current.title == next.title && current.maxGoalRounds == next.maxGoalRounds
  match operation with
  | .create => false
  | .edit => !next.tombstone && next.phase == current.phase
  | .pause => !next.tombstone && sameDefinition && current.phase == .active
      && next.phase == .paused
  | .resume => !next.tombstone && sameDefinition
      && (current.phase == .active || current.phase == .paused || current.phase == .blocked)
      && next.phase == .active
  | .complete => !next.tombstone && sameDefinition && current.phase != .complete
      && next.phase == .complete
  | .block => !next.tombstone && sameDefinition && current.phase == .active
      && next.phase == .blocked
  | .clear => next.tombstone && sameDefinition && next.phase == current.phase

variable (goals : GoalMap GoalSnapshot)

/-- The half of `validate_goal_operation` for every operation but a
create. -/
def validateRevision (operation : GoalOperation) (next : GoalSnapshot) : Except GoalError Unit :=
  match goals.lookup next.reference.id with
  | none => .error (.notFound next.reference.id)
  | some current => do
    failIf current.tombstone .tombstoned
    let expected ← nextRef current.reference
    failIf (next.reference ≠ expected) .stale
    failIf (!operationValid operation current next) .invalidTransition

/-- `validate_goal_operation`. A create looks at its own snapshot only. -/
def validateGoalOperation (operation : GoalOperation) (next : GoalSnapshot) :
    Except GoalError Unit :=
  if operation = .create then
    failIf (!(!next.tombstone && next.reference.revision == 1 && next.phase == .active))
      .invalidTransition
  else validateRevision goals operation next

def validateGoalTimes (times : GoalMap GoalTimes) (operation : GoalOperation)
    (snapshot : GoalSnapshot) (next : GoalTimes) : Except GoalError Unit :=
  if operation = .create then
    failIf (next.roundsStarted ≠ 0) (.invalid "goal create roundsStarted must be zero")
  else
    match times.lookup snapshot.reference.id with
    | none => .error (.invalid "durable goal change lacks prior timestamps")
    | some current =>
      failIf (¬(next.createdAt = current.createdAt ∧ next.updatedAt ≥ current.updatedAt
          ∧ next.roundsStarted = current.roundsStarted))
        (.invalid "goal change does not preserve counters or timestamps")

/-- The step `apply_snapshot` allows from a snapshot that exists. On
replay the caller need not name the snapshot it expects. -/
def checkSuccessor (current : GoalSnapshot) (expected : Option GoalRef) (snapshot : GoalSnapshot)
    (replay : Bool) : Except GoalError Unit := do
  failIf current.tombstone .tombstoned
  match expected.or (if replay then some current.reference else none) with
  | none => .error .stale
  | some expected => do
    failIf (expected ≠ current.reference
        ∨ snapshot.reference.revision ≠ min (current.reference.revision + 1) (u64Bound - 1))
      .stale
    failIf (!current.phase.permits snapshot.phase) .invalidTransition

def applySnapshot (expected : Option GoalRef) (snapshot : GoalSnapshot) (replay : Bool) :
    Except GoalError (GoalMap GoalSnapshot) := do
  snapshot.validate
  match goals.lookup snapshot.reference.id with
  | none =>
    failIf (expected.isSome ∨ snapshot.reference.revision ≠ 1 ∨ snapshot.tombstone) .stale
  | some current => checkSuccessor current expected snapshot replay
  .ok (goals.insert snapshot.reference.id snapshot)

/-! ## Replay -/

/-- The bookkeeping of a committed clear, shared by the writer and by
replay. -/
def GoalState.forget (goals : GoalMap GoalSnapshot) (id : String) : GoalState :=
  { state with goals, times := state.times.erase id
               blockedReasons := state.blockedReasons.erase id, current := none }

def GoalState.remember (goals : GoalMap GoalSnapshot) (id : String) (times : GoalTimes)
    (blockedReason : Option GoalBlockReason) : GoalState :=
  { state with goals, times := state.times.insert id times
               blockedReasons :=
                 match blockedReason with
                 | some reason => state.blockedReasons.insert id reason
                 | none => state.blockedReasons.erase id
               current := some id }

/-- What a replayed change does to the activation: a goal that is not
active disarms it, an edit of its goal carries it along. -/
def Activation.follow (operation : GoalOperation) (snapshot : GoalSnapshot)
    (activation : Activation) : Option Activation :=
  if snapshot.phase ≠ .active then none
  else if operation = .edit ∧ activation.reference.id = snapshot.reference.id then
    some { activation with reference := snapshot.reference
                           maxRounds := snapshot.maxGoalRounds }
  else some activation

/-- The clear arm of `apply_goal_event`. -/
def applyClear (change : GoalChange) : Except GoalError GoalState := do
  match change.cleared with
  | none => .error (.invalid "durable goal clear lacks ref")
  | some reference =>
    match state.goals.lookup reference.id with
    | none => .error (.notFound reference.id)
    | some current => do
      let snapshot : GoalSnapshot :=
        { reference, phase := current.phase, title := current.title
          maxGoalRounds := current.maxGoalRounds, tombstone := true }
      validateGoalOperation state.goals .clear snapshot
      let goals ← applySnapshot state.goals none snapshot true
      .ok { state.forget goals reference.id with activation := none }

def GoalChange.times (change : GoalChange) : Except GoalError GoalTimes :=
  match change.createdAt, change.updatedAt, change.roundsStarted with
  | none, _, _ => .error (.invalid "goal change lacks createdAt")
  | _, none, _ => .error (.invalid "goal change lacks updatedAt")
  | _, _, none => .error (.invalid "goal change lacks roundsStarted")
  | some createdAt, some updatedAt, some roundsStarted =>
    .ok { createdAt, updatedAt, roundsStarted }

/-- The other arm of `apply_goal_event`. -/
def applyRevision (change : GoalChange) : Except GoalError GoalState := do
  match change.goal with
  | none => .error (.invalid "durable goal change lacks goal")
  | some wire => do
    let (snapshot, blockedReason) ← wire.snapshot
    let times ← change.times
    validateGoalOperation state.goals change.operation snapshot
    validateGoalTimes state.times change.operation snapshot times
    let goals ← applySnapshot state.goals none snapshot true
    .ok { state.remember goals snapshot.reference.id times blockedReason with
      activation := state.activation.bind (Activation.follow change.operation snapshot) }

/-- The `goal/change` half of `apply_goal_event`. -/
def applyGoalChange (data : Value) : Except GoalError GoalState :=
  match Wire.changeFromValue data with
  | none => .error (.invalid "durable goal/change payload is invalid")
  | some change => do
    change.validateShape
    if change.operation = .clear then applyClear state change else applyRevision state change

/-- The goal a round is started on: present, not tombstoned, active. -/
def activeGoal (id : String) : Option GoalSnapshot :=
  (goals.lookup id).filter fun goal => !goal.tombstone && goal.phase == .active

def GoalState.armRound (goal : GoalSnapshot) (round seq : Nat) : GoalState :=
  { state with
    nextActivation := state.nextActivationId
    activation := some
      { id := state.nextActivationId, reference := goal.reference
        maxRounds := goal.maxGoalRounds, rounds := round, firstEventSeq := seq
        lastUserEventSeq := some seq, queuedRound := none } }

/-- The activation after a round of `goal` was observed. -/
def GoalState.observeRound (goal : GoalSnapshot) (round seq : Nat) : GoalState :=
  match state.activation with
  | some activation =>
    if activation.reference.id = goal.reference.id then
      { state with
        activation := some { activation with
          reference := goal.reference, maxRounds := goal.maxGoalRounds, rounds := round
          lastUserEventSeq := some seq, queuedRound := none } }
    else state.armRound goal round seq
  | none => state.armRound goal round seq

/-- A round of one goal: the current revision of an active goal, and its
next round within the cap. -/
def applyRound (goalId : String) (revision round seq : Nat) : Except GoalError GoalState :=
  match activeGoal state.goals goalId with
  | none => .error .inactive
  | some goal => do
    failIf (goal.reference.revision ≠ revision) .stale
    match state.times.lookup goalId with
    | none => .error (.invalid "goal lacks round counter")
    | some times => do
      failIf (round ≠ min (times.roundsStarted + 1) (u64Bound - 1)
          ∨ round > goal.maxGoalRounds) .roundCap
      let counted := { state with
        times := state.times.insert goalId { times with roundsStarted := round } }
      .ok (counted.observeRound goal round seq)

def applyGoalRound (S : Serde) (state : GoalState) (e : SessionEvent) :
    Except GoalError GoalState :=
  if e.eventType ≠ "user/message" then .ok state
  else
    match S.messageFromValue e.data with
    | none => .error (.invalid "durable goal round message is invalid")
    | some message =>
      match message.source with
      | .goal goalId revision round => do
        failIf (message.role ≠ .user) (.invalid "goal round must be a user message")
        applyRound state goalId revision round e.seq
      | _ => .ok state

def applyGoalEvent (S : Serde) (state : GoalState) (e : SessionEvent) :
    Except GoalError GoalState := do
  let state ← if e.eventType = "goal/change" then applyGoalChange state e.data else .ok state
  applyGoalRound S state e

/-- Folding the whole log, as `GoalService::new` does. -/
def foldGoals (S : Serde) (log : List SessionEvent) : Except GoalError GoalState :=
  log.foldlM (applyGoalEvent S) GoalState.empty

end Tessivum.Goal
