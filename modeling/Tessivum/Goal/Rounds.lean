/-
Tessivum.Goal.Rounds — automatic goal rounds: the goal driver, the agent's
inbox and the turns that record a round (`GoalService::drive` of `src/goal.rs`,
`run_setup` of `src/agent.rs`, the claim and turn code of `src/agent_loop.rs`,
`ensure_agent_under_setup` of `src/host.rs`).

`drive` reads the ledger, stamps a message with the goal's revision and its
next round, appends an `agent/inbox/enqueued` event and hands the message to
the agent. The agent claims it some time later, records the claim by a splice,
and appends the message as a `user/message` event, which is where the ledger
counts the round.

The system extends the goal system by the agent's inbox, the driver calls in
progress, the turn in progress and restarts.
-/
import Tessivum.Agent.Inbox
import Tessivum.Goal.Service
import Tessivum.Library.Bytes
import Tessivum.Session.InboxProvenance

namespace Tessivum.Goal

open Library Protocol Session Agent

/-! ## The round message -/

def roundText (objective : String) (round maxRounds : Nat) : String :=
  "<goal_round>\nObjective: " ++ String.ofList (jsonString objective.toList) ++ "\nRound: "
    ++ toString round ++ "/" ++ toString maxRounds
    ++ "\n\nContinue working toward the objective in this same session. Treat the current "
    ++ "workspace, tool results, and durable session state as authoritative; inspect them "
    ++ "instead of assuming earlier narration is still current. Make concrete progress and "
    ++ "verify the result. Before claiming completion, gather evidence that the whole objective "
    ++ "is achieved, read the current goal, and mark it complete. If work remains, leave the "
    ++ "goal active for the next round. Follow the configured goal-tool policy before reporting "
    ++ "a blocker.\n</goal_round>"

def roundMessage (id : MessageId) (reference : GoalRef) (round : Nat) (objective : String)
    (maxRounds : Nat) : Message :=
  { id, role := .user, content := [.text (roundText objective round maxRounds)]
    source := .goal reference.id reference.revision round }

/-! ## The driver -/

/-- What `drive` decides to do. -/
inductive NextRound where
  | queue (reference : GoalRef) (round : Nat) (objective : String) (maxRounds : Nat)
  | block (reference : GoalRef) (maxRounds : Nat)

/-- The decision of `drive` on a synchronised state. -/
def driveNext (state : GoalState) : Except GoalError (Option NextRound) :=
  match state.activation with
  | none => .ok none
  | some activation =>
    if activation.queuedRound.isSome then .ok none
    else
      match state.goals.lookup activation.reference.id with
      | none => .error (.notFound activation.reference.id)
      | some current =>
        if current.reference ≠ activation.reference ∨ current.tombstone
            ∨ current.phase ≠ .active then .ok none
        else
          match state.times.lookup current.reference.id with
          | none => .error (.invalid "goal lacks round counter")
          | some times =>
            if times.roundsStarted ≥ current.maxGoalRounds then
              .ok (some (.block current.reference current.maxGoalRounds))
            else
              .ok (some (.queue current.reference (times.roundsStarted + 1) current.title
                current.maxGoalRounds))

def GoalState.setQueued (state : GoalState) (queuedRound : Option Nat) : GoalState :=
  { state with activation := state.activation.map fun a => { a with queuedRound } }

def clearQueuedRound (state : GoalState) (reference : GoalRef) (round : Nat) : GoalState :=
  match state.activation with
  | some activation =>
    if activation.reference = reference ∧ activation.queuedRound = some round then
      state.setQueued none
    else state
  | none => state

def roundLimitReason (maxRounds : Nat) : GoalBlockReason :=
  { code := "round-limit"
    message := "Goal reached its configured limit of " ++ toString maxRounds ++ " rounds." }

def queueFailedReason (round : Nat) (cause : String) : GoalBlockReason :=
  { code := "queue-failed"
    message := "Could not queue goal round " ++ toString round ++ ": " ++ cause ++ " failed." }

/-- Where a call of `drive` stands. -/
inductive DriveStage where
  | entered
  | stamped (message : Message) (reference : GoalRef) (round : Nat)
  | numbered (message : Message) (reference : GoalRef) (round seq : Nat)
  | appended (message : Message) (reference : GoalRef) (round : Nat)
  | failed (reference : GoalRef) (round : Nat) (cause : String)
  | blocking (reference : GoalRef) (reason : GoalBlockReason)

/-- A call of `drive` on one view. -/
structure Drive where
  view : Nat
  stage : DriveStage

/-! ## The system -/

/-- The ledger position at which `drive` stamped a round. No step reads
it. -/
structure RoundStamp where
  goalId : String
  revision : Nat
  round : Nat
  position : Nat
  deriving DecidableEq, Repr

def RoundStamp.source (stamp : RoundStamp) : MessageSource :=
  .goal stamp.goalId stamp.revision stamp.round

/-- The claim in progress: the reservation, and whether its durable half
is done. -/
structure ClaimProgress where
  reservation : InboxState.ClaimReservation
  recorded : Bool

/-- A session with its goal views, its agent and its driver calls. -/
structure RoundSystem (σ : Type) where
  goals : GoalSystem σ
  inbox : InboxState
  running : Bool
  drives : List Drive
  claim : Option ClaimProgress
  turn : List Message
  stamps : List RoundStamp

variable {σ : Type}

def RoundSystem.log (sys : RoundSystem σ) : List SessionEvent := sys.goals.log

def startsNoRound (m : Message) : Bool :=
  match m.source with
  | .goal _ _ _ => false
  | _ => true

/-- A message of another sender: it starts no round, and it reads back
from its own JSON form. -/
def ordinaryMessage (m : Message) : Bool :=
  match m.source with
  | .goal _ _ _ => false
  | .model _ _ (some .null) => false
  | _ => true

/-- An event of another writer: no change of a goal, no round, and no
round put into the durable inbox. -/
def foreignEvent (S : Serde) (e : SessionEvent) : Bool :=
  e.eventType != "goal/change"
    && (e.eventType != "user/message"
        || ((S.messageFromValue e.data).map startsNoRound).getD true)
    && (inboxMessages S e).all ordinaryMessage

/-- One step of the system. -/
inductive RoundStep where
  | goal (i : GoalStep)
  | submit (message : Message) (target : InboxTarget) (wakeup : Bool)
  | enterDrive (view : Nat) (live : Bool)
  | decide (drive : Nat) (id : MessageId)
  | number (drive : Nat)
  | enqueue (drive : Nat) (time : Nat) (token : Cancellation)
  | deliver (drive : Nat) (accepts : Bool)
  | clearQueued (drive : Nat)
  | block (drive : Nat) (live : Bool) (token : Cancellation)
  | wake
  | settle
  | claim
  | splice (time : Nat) (token : Cancellation)
  | commitClaim
  | record (time : Nat) (token : Cancellation)
  | dropTurn
  | restart

def RoundSystem.setDrive (sys : RoundSystem σ) (d : Nat) (drive : Drive) : RoundSystem σ :=
  { sys with drives := sys.drives.set d drive }

def RoundSystem.endDrive (sys : RoundSystem σ) (d : Nat) : RoundSystem σ :=
  { sys with drives := sys.drives.eraseIdx d }

def RoundSystem.setView (sys : RoundSystem σ) (v : Nat) (view : GoalView) : RoundSystem σ :=
  { sys with goals := sys.goals.setView v view }

section Steps

variable (S : Serde) (P : Persistence σ)

variable (sys : RoundSystem σ)

/-- The locked half of `drive`: synchronise, decide, and stamp. -/
def RoundSystem.decide (d : Nat) (drive : Drive) (view : GoalView) (id : MessageId) :
    RoundSystem σ :=
  match syncLocked S view.state sys.log with
  | .error _ => sys.endDrive d
  | .ok state =>
    match driveNext state with
    | .error _ => (sys.setView drive.view (.idle state)).endDrive d
    | .ok none => (sys.setView drive.view (.idle state)).endDrive d
    | .ok (some (.block reference maxRounds)) =>
      (sys.setView drive.view (.idle state)).setDrive d
        { drive with stage := .blocking reference (roundLimitReason maxRounds) }
    | .ok (some (.queue reference round objective maxRounds)) =>
      let message := roundMessage id reference round objective maxRounds
      let stamp : RoundStamp :=
        { goalId := reference.id, revision := reference.revision, round
          position := sys.log.length }
      { (sys.setView drive.view (.idle (state.setQueued (some round)))).setDrive d
          { drive with stage := .stamped message reference round } with
        stamps := sys.stamps ++ [stamp] }

/-- The durable half of `drive`. -/
def RoundSystem.enqueue (d : Nat) (drive : Drive) (message : Message) (reference : GoalRef)
    (round seq time : Nat) (token : Cancellation) : RoundSystem σ :=
  match sys.goals.session.append S P (inboxEnqueued S .followup message (now time) seq) token with
  | (.ok (), session) =>
    { sys.setDrive d { drive with stage := .appended message reference round } with
      goals := { sys.goals with session } }
  | (.error _, session) =>
    { sys.setDrive d { drive with stage := .failed reference round "durable queue append" } with
      goals := { sys.goals with session } }

def RoundSystem.deliver (d : Nat) (drive : Drive) (message : Message) (reference : GoalRef)
    (round : Nat) (accepts : Bool) : RoundSystem σ :=
  match accepts, sys.inbox.send message .followup true with
  | true, .ok inbox => { sys.endDrive d with inbox }
  | _, _ =>
    sys.setDrive d { drive with stage := .failed reference round "agent delivery" }

def RoundSystem.stepDrive (d : Nat) (i : RoundStep) : RoundSystem σ :=
  match sys.drives[d]? with
  | none => sys
  | some drive =>
    match sys.goals.views[drive.view]? with
    | none => sys.endDrive d
    | some view =>
      match i, drive.stage, view.job with
      | .decide _ id, .entered, none => sys.decide S d drive view id
      | .number _, .stamped message reference round, _ =>
        match nextSeq sys.log with
        | .error _ => sys.endDrive d
        | .ok seq =>
          sys.setDrive d { drive with stage := .numbered message reference round seq }
      | .enqueue _ time token, .numbered message reference round seq, _ =>
        sys.enqueue S P d drive message reference round seq time token
      | .deliver _ accepts, .appended message reference round, _ =>
        sys.deliver d drive message reference round accepts
      | .clearQueued _, .failed reference round cause, none =>
        (sys.setView drive.view (.idle (clearQueuedRound view.state reference round))).setDrive
          d { drive with stage := .blocking reference (queueFailedReason round cause) }
      | .block _ live token, .blocking reference reason, none =>
        (sys.setView drive.view
          (view.begin S sys.log (.block reference reason) live token)).endDrive d
      | _, _, _ => sys

/-- The followups of a fresh agent: the pending next-turn messages of the
durable inbox, or none when one of them is refused. -/
def restoredInbox (log : List SessionEvent) : InboxState :=
  match replayInbox S log with
  | .error _ => .empty
  | .ok durable =>
    (durable.followups.foldlM
      (fun (inbox : InboxState) message => inbox.send message .followup false)
      InboxState.empty).toOption.getD .empty

/-- The durable half of a claim. A failed append drops the reservation
and ends the run of the driver loop. -/
def RoundSystem.splice (claim : InboxState.ClaimReservation) (time : Nat) (token : Cancellation) :
    RoundSystem σ :=
  if durableInboxClaim sys.log claim.messages then
    match sys.goals.session.appendNext S P (claimSplicedEvent claim time) token with
    | (.ok _, session) =>
      { sys with claim := some { reservation := claim, recorded := true }
                 goals := { sys.goals with session } }
    | (.error _, session) =>
      { sys with claim := none, running := false
                 inbox := sys.inbox.abortClaim claim.entries
                 goals := { sys.goals with session } }
  else { sys with claim := some { reservation := claim, recorded := true } }

/-- Put the first message of the turn into the conversation. A failed
append ends the turn, and its messages with it. -/
def RoundSystem.record (time : Nat) (token : Cancellation) : RoundSystem σ :=
  match sys.turn with
  | [] => sys
  | message :: rest =>
    match sys.goals.session.appendNext S P (userMessageEvent S message time) token with
    | (.ok _, session) => { sys with turn := rest, goals := { sys.goals with session } }
    | (.error _, session) => { sys with turn := [], goals := { sys.goals with session } }

def RoundSystem.step (sys : RoundSystem σ) : RoundStep → RoundSystem σ
  | .goal (.ordinary call) =>
    if foreignEvent S (call.event sys.goals.session) then
      { sys with goals := sys.goals.step S P (.ordinary call) }
    else sys
  | .goal i => { sys with goals := sys.goals.step S P i }
  | .submit message target wakeup =>
    match ordinaryMessage message, sys.inbox.send message target wakeup with
    | true, .ok inbox => { sys with inbox }
    | _, _ => sys
  | .enterDrive v live =>
    -- `drive` returns at once while the agent is running
    if live = true ∧ sys.running = false then
      { sys with drives := sys.drives ++ [{ view := v, stage := .entered }] }
    else sys
  | .wake => { sys with running := true }
  | .settle =>
    if sys.claim.isNone ∧ sys.turn = [] then { sys with running := false } else sys
  | .claim =>
    if sys.running = true ∧ sys.claim.isNone ∧ sys.turn = [] then
      match sys.inbox.reserveNextTurnClaim with
      | none => sys
      | some (reservation, inbox) =>
        { sys with inbox, claim := some { reservation, recorded := false } }
    else sys
  | .splice time token =>
    match sys.claim with
    | some { reservation, recorded := false } => sys.splice S P reservation time token
    | _ => sys
  | .commitClaim =>
    match sys.claim with
    | some { reservation, recorded := true } =>
      match sys.inbox.commitClaim reservation with
      | some inbox => { sys with inbox, claim := none, turn := reservation.messages }
      | none => { sys with claim := none, running := false
                           inbox := sys.inbox.abortClaim reservation.entries }
    | _ => sys
  | .record time token => sys.record S P time token
  | .dropTurn => { sys with turn := [] }
  | .restart =>
    { sys with goals := { sys.goals with views := [] }, inbox := restoredInbox S sys.log
               running := false, drives := [], claim := none, turn := [] }
  | .decide d id => sys.stepDrive S P d (.decide d id)
  | .number d => sys.stepDrive S P d (.number d)
  | .enqueue d time token => sys.stepDrive S P d (.enqueue d time token)
  | .deliver d accepts => sys.stepDrive S P d (.deliver d accepts)
  | .clearQueued d => sys.stepDrive S P d (.clearQueued d)
  | .block d live token => sys.stepDrive S P d (.block d live token)

end Steps

end Tessivum.Goal
