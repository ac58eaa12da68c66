/-
Tessivum.Goal.Arming — the activation of a goal view under every operation of
its service (`GoalService` and `GoalActivation` of `src/goal.rs`).

An activation is process-local: it names one revision of one goal and is
carried along, moved or dropped by each operation in its own way.
-/
import Tessivum.Goal.Rounds

namespace Tessivum.Goal

open Library Protocol Session

/-! ## The handle of an activation -/

def attributedUser (e : SessionEvent) : Bool :=
  e.eventType == "user/message"
    && ((e.data.get "source").bind (·.get "kind")).bind Value.asStr == some "user"

/-- The first user message `admit_user_round` has not admitted. -/
def Activation.nextUserEvent (activation : Activation) (log : List SessionEvent) :
    Option SessionEvent :=
  let after := activation.lastUserEventSeq.getD (activation.firstEventSeq - 1)
  log.find? fun e =>
    decide (e.seq ≥ activation.firstEventSeq) && decide (e.seq > after) && attributedUser e

/-- `GoalActivation::admit_user_round`, on the handle of activation
`id`. -/
def admitUserRound (state : GoalState) (log : List SessionEvent) (id userEventSeq : Nat)
    (live : Bool) (token : Cancellation) : Except GoalError GoalState := do
  checkCancelled token 0
  requireLive live
  match state.activation with
  | none => .error .inactive
  | some activation => do
    failIf (activation.id ≠ id) .inactive
    failIf (activation.rounds ≥ activation.maxRounds) .roundCap
    match state.goals.lookup activation.reference.id with
    | none => .error (.notFound activation.reference.id)
    | some current => do
      failIf (current.reference ≠ activation.reference ∨ current.phase ≠ .active
          ∨ current.tombstone) .inactive
      match activation.nextUserEvent log with
      | none => .error .invalidRound
      | some expected => do
        failIf (expected.seq ≠ userEventSeq) .invalidRound
        .ok { state with
          activation := some { activation with
            lastUserEventSeq := some userEventSeq, rounds := activation.rounds + 1 } }

def disarm (state : GoalState) (id : Nat) : GoalState :=
  match state.activation with
  | some activation => if activation.id = id then { state with activation := none } else state
  | none => state

/-! ## Operations on a view whose lock is free -/

section Views

variable {σ : Type} (S : Serde)

/-- The synchronisation of `snapshot`, `snapshots`, `current`,
`projection` and `model_value`. -/
def GoalView.read (log : List SessionEvent) (view : GoalView) : GoalView :=
  match view.job with
  | some _ => view
  | none =>
    match syncLocked S view.state log with
    | .error _ => view
    | .ok state => .idle state

def GoalView.activate (session : Live σ) (view : GoalView) (reference : GoalRef)
    (maxRounds : Nat) (live : Bool) (token : Cancellation) : GoalView :=
  match view.job with
  | some _ => view
  | none =>
    match (do requireLive live; checkCancelled token 0 : Except GoalError Unit) with
    | .error _ => view
    | .ok () =>
      match syncLocked S view.state session.state.events with
      | .error _ => view
      | .ok state =>
        .idle (armLocked state reference maxRounds (nextSeq session.state.events))

/-- The locked half of `GoalService::drive` on an idle agent. -/
def GoalView.drive (log : List SessionEvent) (view : GoalView) (live : Bool) : GoalView :=
  match view.job with
  | some _ => view
  | none =>
    match requireLive live with
    | .error _ => view
    | .ok () =>
      match syncLocked S view.state log with
      | .error _ => view
      | .ok state =>
        match driveNext state with
        | .ok (some (.queue _ round _ _)) => .idle (state.setQueued (some round))
        | _ => .idle state

def GoalView.patch (view : GoalView) (f : GoalState → GoalState) : GoalView :=
  match view.job with
  | some _ => view
  | none => .idle (f view.state)

end Views

/-! ## The system -/

/-- One step: a step of the goal system, or one of the operations
above. -/
inductive ArmingStep where
  | base (step : GoalStep)
  | write (view : Nat) (expected : Option GoalRef) (snapshot : GoalSnapshot) (live : Bool)
      (token : Cancellation)
  | read (view : Nat)
  | activate (view : Nat) (reference : GoalRef) (maxRounds : Nat) (live : Bool)
      (token : Cancellation)
  | drive (view : Nat) (live : Bool)
  | clearQueued (view : Nat) (reference : GoalRef) (round : Nat)
  | admitUserRound (view id userEventSeq : Nat) (live : Bool) (token : Cancellation)
  | disarm (view id : Nat)

section Steps

variable {σ : Type} (S : Serde) (P : Persistence σ)

def GoalSystem.arm (sys : GoalSystem σ) : ArmingStep → GoalSystem σ
  | .base i => sys.step S P i
  | .write v expected snapshot live token =>
    sys.onView v fun view => view.beginWrite S sys.log expected snapshot live token
  | .read v => sys.onView v fun view => view.read S sys.log
  | .activate v reference maxRounds live token =>
    sys.onView v fun view => view.activate S sys.session reference maxRounds live token
  | .drive v live => sys.onView v fun view => view.drive S sys.log live
  | .clearQueued v reference round =>
    sys.onView v fun view => view.patch fun state => clearQueuedRound state reference round
  | .admitUserRound v id seq live token =>
    sys.onView v fun view => view.patch fun state =>
      (Goal.admitUserRound state sys.log id seq live token).toOption.getD state
  | .disarm v id => sys.onView v fun view => view.patch fun state => Goal.disarm state id

end Steps

end Tessivum.Goal
