/-
Tessivum.Goal.Service — the goal service: views of the ledger and the calls
that change it (`GoalService` of `src/goal.rs`).

A view is one `GoalService` over a session. It caches the ledger of the log up
to the event it has observed, behind a lock that a call holds from its
synchronisation to its return. A call synchronises, checks what it was asked to
do against the synchronised ledger, and then appends its change under the
number of the first event it has not observed. An append that lost a race for
that number synchronises again and repeats only the checks of the ledger.

Several views may share one session, so the system is a machine over the
session and its views.
-/
import Tessivum.Goal.Ledger
import Tessivum.Session.Store

namespace Tessivum.Goal

open Library Protocol Session

/-! ## Reading the ledger -/

/-- `require_live`, given whether the agent is undisposed and owns the
session. -/
def requireLive (live : Bool) : Except GoalError Unit := failIf (live = false) .notLive

/-- `check_cancellation` of the goal service. -/
def checkCancelled (token : Cancellation) (n : Nat) : Except GoalError Unit :=
  failIf (token n = true) .cancelled

/-- `GoalService::sync_locked`. A failed synchronisation leaves the view
as it was. -/
def syncLocked (S : Serde) (state : GoalState) (log : List SessionEvent) :
    Except GoalError GoalState :=
  if state.observedEvents > log.length then
    .error (.invalid "durable goal event cursor regressed")
  else if state.observedEvents = log.length then .ok state
  else do
    let candidate ← (log.drop state.observedEvents).foldlM (applyGoalEvent S) state
    .ok { candidate with observedEvents := log.length }

variable (state : GoalState)

def GoalState.currentActive : Option GoalSnapshot :=
  state.current.bind (activeGoal state.goals)

/-- `GoalService::new` over a live agent. -/
def openView (S : Serde) (log : List SessionEvent) : Except GoalError GoalState := do
  let folded ← foldGoals S log
  let state := { folded with observedEvents := log.length }
  match state.currentActive with
  | none => .ok state
  | some goal =>
    .ok { state with
      nextActivation := 1
      activation := some
        { id := 1, reference := goal.reference, maxRounds := goal.maxGoalRounds
          rounds := ((state.times.lookup goal.reference.id).map GoalTimes.roundsStarted).getD 0
          firstEventSeq := 1, lastUserEventSeq := none, queuedRound := none } }

def currentLocked (reference : GoalRef) : Except GoalError GoalSnapshot :=
  match state.goals.lookup reference.id with
  | none => .error (.notFound reference.id)
  | some current => do
    failIf current.tombstone .tombstoned
    failIf (current.reference ≠ reference) .stale
    .ok current

/-- The open-goal test of `GoalService::create`. -/
def GoalState.anyOpen : Bool :=
  state.goals.entries.any fun entry => entry.2.isOpen

/-! ## Calls -/

def normalizeObjective (objective : String) : Except GoalError String := do
  failIf (isBlank objective) (.invalid "goal objective must be non-empty")
  .ok (trim objective)

/-- A call on a view. A create draws the random part of the id it gives
the goal. -/
inductive GoalCall where
  | create (uuid objective : String) (maxGoalRounds : Option Nat)
  | edit (reference : GoalRef) (objective : Option String) (maxGoalRounds : Option Nat)
  | pause (reference : GoalRef)
  | block (reference : GoalRef) (reason : GoalBlockReason)
  | resume (reference : GoalRef)
  | complete (reference : GoalRef)
  | clear (reference : GoalRef)
  deriving DecidableEq, Repr

/-- What a call asks to be written. -/
structure GoalRequest where
  expected : Option GoalRef
  snapshot : GoalSnapshot
  operation : GoalOperation
  reason : Option GoalBlockReason
  deriving DecidableEq, Repr

def createSnapshot (uuid objective : String) (maxGoalRounds : Option Nat) :
    Except GoalError GoalSnapshot := do
  let title ← normalizeObjective objective
  let snapshot : GoalSnapshot :=
    { reference := { id := "goal-" ++ uuid, revision := 1 }, phase := .active, title
      maxGoalRounds := maxGoalRounds.getD defaultMaxGoalRounds, tombstone := false }
  snapshot.validate
  .ok snapshot

def GoalCall.precheck (live : Bool) (token : Cancellation) : GoalCall → Except GoalError Unit
  | .create uuid objective maxGoalRounds => do
    requireLive live
    checkCancelled token 0
    let _ ← createSnapshot uuid objective maxGoalRounds
    .ok ()
  | .edit _ objective maxGoalRounds => do
    failIf (objective.isNone ∧ maxGoalRounds.isNone)
      (.invalid "goal edit requires objective or maxGoalRounds")
    requireLive live
    checkCancelled token 0
  | _ => do
    requireLive live
    checkCancelled token 0

/-- The request of a call that moves a goal to another phase, from one
of the phases it allows. -/
def transitionRequest (reference : GoalRef) (allowed : List GoalPhase) (phase : GoalPhase)
    (operation : GoalOperation) (reason : Option GoalBlockReason) :
    Except GoalError GoalRequest := do
  let current ← currentLocked state reference
  failIf (current.phase ∉ allowed) .invalidTransition
  let next ← nextRef current.reference
  .ok { expected := some reference
        snapshot := { reference := next, phase, title := current.title
                      maxGoalRounds := current.maxGoalRounds, tombstone := false }
        operation, reason }

def editTitle (current : GoalSnapshot) : Option String → Except GoalError String
  | some objective => normalizeObjective objective
  | none => .ok current.title

/-- The extra refusals of a resume: an active goal that is already armed,
and a goal whose rounds are used up. -/
def checkResume (current : GoalSnapshot) : Except GoalError Unit := do
  failIf ((current.phase ≠ .active ∧ current.phase ≠ .paused ∧ current.phase ≠ .blocked)
      ∨ (current.phase = .active ∧ state.activation.isSome)) .invalidTransition
  failIf ((state.times.lookup current.reference.id).any
      fun times => times.roundsStarted ≥ current.maxGoalRounds) .invalidTransition

/-- What a call asks to be written, checked against the synchronised
ledger. -/
def GoalCall.request : GoalCall → Except GoalError GoalRequest
  | .create uuid objective maxGoalRounds => do
    let snapshot ← createSnapshot uuid objective maxGoalRounds
    failIf state.anyOpen .alreadyExists
    .ok { expected := none, snapshot, operation := .create, reason := none }
  | .edit reference objective maxGoalRounds => do
    let current ← currentLocked state reference
    let next ← nextRef current.reference
    let title ← editTitle current objective
    .ok { expected := some reference
          snapshot := { reference := next, phase := current.phase, title
                        maxGoalRounds := maxGoalRounds.getD current.maxGoalRounds
                        tombstone := false }
          operation := .edit, reason := none }
  | .pause reference => transitionRequest state reference [.active] .paused .pause none
  | .block reference reason =>
    transitionRequest state reference [.active] .blocked .block (some reason)
  | .resume reference => do
    let current ← currentLocked state reference
    checkResume state current
    let next ← nextRef current.reference
    .ok { expected := some reference
          snapshot := { reference := next, phase := .active, title := current.title
                        maxGoalRounds := current.maxGoalRounds, tombstone := false }
          operation := .resume, reason := none }
  | .complete reference =>
    transitionRequest state reference [.active, .paused, .blocked] .complete .complete none
  | .clear reference => do
    let current ← currentLocked state reference
    let next ← nextRef current.reference
    .ok { expected := some reference
          snapshot := { reference := next, phase := current.phase, title := current.title
                        maxGoalRounds := current.maxGoalRounds, tombstone := true }
          operation := .clear, reason := none }

/-! ## Writing -/

/-- A write that has passed the checks before the append loop. -/
structure GoalWrite where
  expected : Option GoalRef
  snapshot : GoalSnapshot
  operation : GoalOperation
  blockedReason : Option GoalBlockReason
  deriving DecidableEq, Repr

/-- The reason a blocked snapshot is written with: the caller's, or the
one the ledger keeps. -/
def blockedReasonFor (request : GoalRequest) : Except GoalError (Option GoalBlockReason) :=
  if request.snapshot.phase = .blocked then
    match request.reason.or (state.blockedReasons.lookup request.snapshot.reference.id) with
    | none => .error (.invalid "blocked goal lacks blockedReason")
    | some reason => do
      let normalized ← reason.normalized
      .ok (some normalized)
  else .ok none

/-- `write_locked_with_reason` up to its loop. -/
def GoalRequest.prepare (request : GoalRequest) (state : GoalState) (token : Cancellation) :
    Except GoalError GoalWrite := do
  checkCancelled token 1
  request.snapshot.validate
  let blockedReason ← blockedReasonFor state request
  .ok { expected := request.expected, snapshot := request.snapshot
        operation := request.operation, blockedReason }

def now (clock : Nat) : Nat := min clock maxSafeInteger

def GoalWrite.times (write : GoalWrite) (state : GoalState) (clock : Nat) : GoalTimes :=
  match state.times.lookup write.snapshot.reference.id with
  | some old => { createdAt := old.createdAt, updatedAt := max (now clock) old.updatedAt
                  roundsStarted := old.roundsStarted }
  | none => { createdAt := now clock, updatedAt := now clock, roundsStarted := 0 }

variable (write : GoalWrite)

def GoalWrite.change (times : GoalTimes) : GoalChange :=
  if write.operation = .clear then .clear write.snapshot.reference times.updatedAt
  else .snapshot write.operation write.snapshot times write.blockedReason

/-- The checks of one turn of the append loop, giving the goals as they
will be. -/
def GoalWrite.plan (state : GoalState) : Except GoalError (GoalMap GoalSnapshot) := do
  validateGoalOperation state.goals write.operation write.snapshot
  applySnapshot state.goals write.expected write.snapshot false

def GoalWrite.event (state : GoalState) (clock time : Nat) : SessionEvent :=
  .plain "goal/change" state.observedEvents (now time)
    (Wire.changeToValue (write.change (write.times state clock)))

/-- The view after its append committed. The counter cannot saturate: it
was the number of an admitted event. -/
def GoalWrite.commit (state : GoalState) (goals : GoalMap GoalSnapshot) (clock : Nat) : GoalState :=
  let id := write.snapshot.reference.id
  let recorded :=
    if write.operation = .clear then state.forget goals id
    else state.remember goals id (write.times state clock) write.blockedReason
  { recorded with observedEvents := state.observedEvents + 1 }

/-! ## After the commit -/

/-- `arm_locked`, with the sequence number the session would give next. -/
def armLocked (reference : GoalRef) (maxRounds : Nat) (nextSeq : Except SessionError Nat) :
    GoalState :=
  if maxRounds < 1 ∨ maxRounds > maxSafeInteger then state
  else
    match state.goals.lookup reference.id with
    | none => state
    | some snapshot =>
      if snapshot.reference ≠ reference ∨ snapshot.tombstone ∨ snapshot.phase ≠ .active then
        state
      else
        -- the activation id is taken before the sequence number is read
        let bumped := { state with nextActivation := state.nextActivationId }
        match nextSeq with
        | .error _ => bumped
        | .ok firstEventSeq =>
          { bumped with
            activation := some
              { id := state.nextActivationId, reference, maxRounds, rounds := 0
                firstEventSeq, lastUserEventSeq := none, queuedRound := none } }

/-- An edit carries the view's activation to the new revision. -/
def followEdit (reference : GoalRef) (snapshot : GoalSnapshot) : GoalState :=
  { state with
    activation := state.activation.map fun activation =>
      if activation.reference = reference then
        { activation with reference := snapshot.reference
                          maxRounds := snapshot.maxGoalRounds }
      else activation }

def GoalCall.finish (snapshot : GoalSnapshot) (nextSeq : Except SessionError Nat)
    (token : Cancellation) : GoalCall → GoalState
  | .create _ _ _ =>
    if token 0 = true then state
    else armLocked state snapshot.reference snapshot.maxGoalRounds nextSeq
  | .resume _ => armLocked state snapshot.reference snapshot.maxGoalRounds nextSeq
  | .edit reference _ _ => followEdit state reference snapshot
  | _ => { state with activation := none }

/-! ## The system -/

/-- Where a call stands between two accesses to the shared log. -/
inductive WriteStage where
  | attempting
  | lost (expected actual : Nat)
  | resyncing
  | committed
  deriving DecidableEq, Repr

/-- A call in progress, or a `write`, which does nothing after its
commit. `checkedAt` is the length of the log its checks were made on; no
step reads it. -/
structure GoalJob where
  call : Option GoalCall
  write : GoalWrite
  stage : WriteStage
  checkedAt : Nat

/-- One `GoalService` and the call that holds its lock, if any. -/
structure GoalView where
  state : GoalState
  job : Option GoalJob

/-- A session and the views over it. -/
structure GoalSystem (σ : Type) where
  session : Live σ
  views : List GoalView

def GoalSystem.log {σ : Type} (sys : GoalSystem σ) : List SessionEvent := sys.session.state.events

/-- One step of the system. `ordinary` is any other writer's append. -/
inductive GoalStep where
  | ordinary (call : Call)
  | openView
  | begin (view : Nat) (call : GoalCall) (live : Bool) (token : Cancellation)
  | attempt (view : Nat) (clock time : Nat) (token : Cancellation)
  | checkLost (view : Nat) (token : Cancellation)
  | resync (view : Nat)
  | finish (view : Nat) (token : Cancellation)

def GoalView.idle : GoalView := { state, job := none }

/-- Start a call on a view whose lock is free: up to the first append. -/
def GoalView.begin (S : Serde) (log : List SessionEvent) (view : GoalView) (call : GoalCall)
    (live : Bool) (token : Cancellation) : GoalView :=
  match view.job with
  | some _ => view
  | none =>
    match call.precheck live token with
    | .error _ => view
    | .ok () =>
      match syncLocked S view.state log with
      | .error _ => view
      | .ok state =>
        match call.request state >>= fun request => request.prepare state token with
        | .error _ => .idle state
        | .ok write =>
          { state, job := some { call := some call, write, stage := .attempting
                                 checkedAt := log.length } }

/-- The operation `GoalService::write` reads off its snapshot. -/
def writeOperation (snapshot : GoalSnapshot) : GoalOperation :=
  if snapshot.tombstone then .clear
  else if snapshot.reference.revision = 1 then .create
  else
    match state.goals.lookup snapshot.reference.id with
    | none => .edit
    | some current =>
      match current.phase, snapshot.phase with
      | .active, .paused => .pause
      | .active, .complete => .complete
      | .paused, .complete => .complete
      | .blocked, .complete => .complete
      | .active, .blocked => .block
      | .paused, .active => .resume
      | .blocked, .active => .resume
      | _, _ => .edit

/-- `GoalService::write` up to the first append. -/
def GoalView.beginWrite (S : Serde) (log : List SessionEvent) (view : GoalView)
    (expected : Option GoalRef) (snapshot : GoalSnapshot) (live : Bool) (token : Cancellation) :
    GoalView :=
  match view.job with
  | some _ => view
  | none =>
    match (do requireLive live; checkCancelled token 0 : Except GoalError Unit) with
    | .error _ => view
    | .ok () =>
      match syncLocked S view.state log with
      | .error _ => view
      | .ok state =>
        let request : GoalRequest :=
          { expected, snapshot, operation := writeOperation state snapshot
            reason := none }
        match request.prepare state token with
        | .error _ => .idle state
        | .ok write =>
          { state, job := some { call := none, write, stage := .attempting
                                 checkedAt := log.length } }

section Steps

variable {σ : Type} (S : Serde) (P : Persistence σ)

def GoalView.attempt (session : Live σ) (view : GoalView) (clock time : Nat)
    (token : Cancellation) : GoalView × Live σ :=
  match view.job with
  | none => (view, session)
  | some job =>
    if job.stage ≠ .attempting then (view, session)
    else
      match job.write.plan view.state with
      | .error _ => (.idle view.state, session)
      | .ok goals =>
        match session.append S P (job.write.event view.state clock time) token with
        | (.ok (), session') =>
          ({ state := job.write.commit view.state goals clock
             job := some { job with stage := .committed } }, session')
        | (.error (.sequenceGap expected actual), session') =>
          ({ view with job := some { job with stage := .lost expected actual } }, session')
        | (.error _, session') => (.idle view.state, session')

/-- A lost append is retried when the view was behind and the session
still stands where the append found it. -/
def GoalView.checkLost (session : Live σ) (view : GoalView) (token : Cancellation) : GoalView :=
  match view.job with
  | none => view
  | some job =>
    match job.stage with
    | .lost expected actual =>
      if actual ≥ expected ∨ nextSeq session.state.events ≠ .ok expected
          ∨ token 0 = true then .idle view.state
      else { view with job := some { job with stage := .resyncing } }
    | _ => view

/-- The synchronisation of a retry. The call's own checks are not made
again. -/
def GoalView.resync (log : List SessionEvent) (view : GoalView) : GoalView :=
  match view.job with
  | none => view
  | some job =>
    if job.stage ≠ .resyncing then view
    else
      match syncLocked S view.state log with
      | .error _ => .idle view.state
      | .ok state => { state, job := some { job with stage := .attempting } }

def GoalView.finish (session : Live σ) (view : GoalView) (token : Cancellation) : GoalView :=
  match view.job with
  | none => view
  | some job =>
    if job.stage ≠ .committed then view
    else
      match job.call with
      | none => .idle view.state
      | some call => .idle (call.finish view.state job.write.snapshot
          (nextSeq session.state.events) token)

def GoalSystem.setView (sys : GoalSystem σ) (v : Nat) (view : GoalView) : GoalSystem σ :=
  { sys with views := sys.views.set v view }

def GoalSystem.onView (sys : GoalSystem σ) (v : Nat) (f : GoalView → GoalView) : GoalSystem σ :=
  match sys.views[v]? with
  | none => sys
  | some view => sys.setView v (f view)

def GoalSystem.step (sys : GoalSystem σ) : GoalStep → GoalSystem σ
  | .ordinary call =>
    if (call.event sys.session).eventType = "goal/change" then sys
    else { sys with session := (sys.session.call S P call).2 }
  | .openView =>
    match openView S sys.log with
    | .error _ => sys
    | .ok state => { sys with views := sys.views ++ [.idle state] }
  | .begin v call live token =>
    match sys.views[v]? with
    | none => sys
    | some view => sys.setView v (view.begin S sys.log call live token)
  | .attempt v clock time token =>
    match sys.views[v]? with
    | none => sys
    | some view =>
      let (view', session') := view.attempt S P sys.session clock time token
      { session := session', views := sys.views.set v view' }
  | .checkLost v token =>
    match sys.views[v]? with
    | none => sys
    | some view => sys.setView v (view.checkLost sys.session token)
  | .resync v =>
    match sys.views[v]? with
    | none => sys
    | some view => sys.setView v (view.resync S sys.log)
  | .finish v token =>
    match sys.views[v]? with
    | none => sys
    | some view => sys.setView v (view.finish sys.session token)

end Steps

end Tessivum.Goal
