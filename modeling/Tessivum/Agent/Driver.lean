/-
Tessivum.Agent.Driver — the driver loop of an agent and the operations it
interleaves with (`drive` of `src/agent_loop.rs`, `AgentInner` of
`src/agent.rs`).

The driver sleeps until the runtime's wake revision differs from the one it
last saw, takes the session's execution lock and claims followups until a claim
comes back empty. A send and a steered update wake the runtime after they have
changed the inbox; in between, the wake is pending.

Every lock acquisition of the source is one step here, so a run is an arbitrary
interleaving of the driver with the host.
-/
import Tessivum.Agent.Inbox

namespace Tessivum.Agent

open Library Protocol InboxState

/-! ## State -/

/-- Where the driver stands between two lock acquisitions. -/
inductive Phase where
  /-- in the outer loop, comparing the wake revision -/
  | waiting
  /-- a new wake was seen, the execution lock is not held yet -/
  | starting
  /-- at the top of the inner loop -/
  | looping
  /-- a next-turn claim is reserved, its splice not appended yet -/
  | claimed (claim : ClaimReservation)
  /-- the splice of a next-turn claim is appended -/
  | appended (claim : ClaimReservation)
  /-- inside `run_turn` -/
  | turn
  /-- a next-step claim is reserved, its splice not appended yet -/
  | stepClaimed (claim : ClaimReservation)
  /-- the splice of a next-step claim is appended -/
  | stepAppended (claim : ClaimReservation)
  /-- the claim came back empty -/
  | checking
  /-- about to store the settled revision -/
  | settling (revision : Nat)
  /-- settled, about to clear `running` -/
  | stopping
  /-- the claim failed -/
  | failed
  /-- the claim failed, about to settle on the revision read -/
  | failing (revision : Nat)
  /-- the worker has returned -/
  | exited
  deriving DecidableEq

def Phase.claim : Phase → Option ClaimReservation
  | .claimed claim => some claim
  | .appended claim => some claim
  | .stepClaimed claim => some claim
  | .stepAppended claim => some claim
  | _ => none

/-- The `running` flag while the agent is not cancelled. -/
def Phase.isRunning : Phase → Bool
  | .waiting => false
  | .starting => false
  | .exited => false
  | _ => true

/-- The inbox, the runtime's `State`, the driver's local `seen_wake`, the
update reservations hosts hold, and the number of operations that have
changed the inbox and not yet woken the runtime. -/
structure DriverSystem where
  inbox : InboxState
  updates : List UpdateReservation
  pendingWakes : Nat
  running : Bool
  wakeRevision : Nat
  settledRevision : Nat
  seenWake : Nat
  phase : Phase
  cancelled : Bool
  deriving DecidableEq

namespace DriverSystem

/-- `AgentLoop::spawn` over the inbox the setup has filled. -/
def spawn (inbox : InboxState) : DriverSystem :=
  { inbox, updates := [], pendingWakes := 0, running := false, wakeRevision := 0
    settledRevision := 0, seenWake := 0, phase := .waiting, cancelled := false }

/-! ## The host's operations -/

/-- The first half of `AgentInner::send`. Followups and steers wake the
agent, injections do not. -/
def send (s : DriverSystem) (message : Message) (target : InboxTarget) : DriverSystem :=
  if s.cancelled then s
  else
    let wakeup := target != .inject
    match s.inbox.send message target wakeup with
    | .error _ => s
    | .ok inbox =>
      { s with inbox, pendingWakes := if wakeup then s.pendingWakes + 1 else s.pendingWakes }

variable (s : DriverSystem)

/-- `AgentLoop::wake`, for one operation that owes it. -/
def wake : DriverSystem :=
  if s.pendingWakes = 0 then s
  else
    { s with
      pendingWakes := s.pendingWakes - 1
      wakeRevision := if s.cancelled then s.wakeRevision
        else (s.wakeRevision + 1) % u64Bound }

/-- `AgentInner::reserve_inbox_update`. -/
def reserve (id : MessageId) (update : InboxUpdate) : DriverSystem :=
  if s.cancelled then s
  else
    match s.inbox.reserveUpdate id update s.running with
    | .reserved reservation inbox =>
      { s with inbox, updates := reservation :: s.updates }
    | .notPending => s
    | .steerUnavailable => s

/-- The reservation a host holds on an item. A reserved item is not
reserved again, so the item names it. -/
def held (id : MessageId) : Option UpdateReservation :=
  s.updates.find? fun reservation => reservation.itemId == id

def heldApart (id : MessageId) : List UpdateReservation :=
  s.updates.filter fun reservation => reservation.itemId != id

/-- The first half of `AgentInner::commit_inbox_update`. -/
def commitUpdate (id : MessageId) : DriverSystem :=
  match s.held id with
  | none => s
  | some reservation =>
    let (committed, inbox) := s.inbox.commitReservation reservation
    { s with
      inbox
      updates := s.heldApart id
      pendingWakes :=
        if committed && reservation.wakes then s.pendingWakes + 1 else s.pendingWakes }

def abortUpdate (id : MessageId) : DriverSystem :=
  match s.held id with
  | none => s
  | some reservation =>
    { s with inbox := s.inbox.abortReservation reservation.itemId, updates := s.heldApart id }

/-- `AgentInner::cancel_including_idle`. -/
def cancel (keepInbox : Bool) : DriverSystem :=
  if s.cancelled then s
  else { s with cancelled := true, inbox := if keepInbox then s.inbox else s.inbox.clear }

/-! ## The driver -/

/-- The driver returns from `drive`. -/
def exit : DriverSystem :=
  { s with running := false, settledRevision := s.wakeRevision, phase := .exited }

def look : DriverSystem :=
  if s.cancelled then s.exit
  else if s.wakeRevision ≠ s.seenWake then
    { s with seenWake := s.wakeRevision, phase := .starting }
  else s

def acquire : DriverSystem :=
  if s.cancelled then s.exit else { s with running := true, phase := .looping }

/-- The top of the inner loop, up to the reservation of
`claim_next_turn`. -/
def claimNextTurn : DriverSystem :=
  if s.cancelled then { s with phase := .waiting }
  else
    match s.inbox.reserveNextTurnClaim with
    | none => { s with phase := .checking }
    | some (claim, inbox) => { s with inbox, phase := .claimed claim }

/-- The reservation of `claim_step_batch`. -/
def claimStepBatch : DriverSystem :=
  match s.inbox.reserveStepBatchClaim with
  | none => s
  | some (claim, inbox) => { s with inbox, phase := .stepClaimed claim }

def dropClaim (claim : ClaimReservation) (next : Phase) : DriverSystem :=
  { s with inbox := s.inbox.abortClaim claim.entries, phase := next }

def commitClaim (s : DriverSystem) (claim : ClaimReservation) (lost : Phase) : DriverSystem :=
  match s.inbox.commitClaim claim with
  | some inbox => { s with inbox, phase := .turn }
  | none => s.dropClaim claim lost

/-- The claim came back empty: go on if a wake came in, else settle. -/
def check : DriverSystem :=
  if s.wakeRevision ≠ s.seenWake then
    { s with seenWake := s.wakeRevision, phase := .looping }
  else { s with phase := .settling s.wakeRevision }

/-- What the outside tells the driver: whether an append went through, and
whether a turn claims its step batch or ends. -/
inductive Answer where
  | ok | no
  deriving DecidableEq, Repr

/-- One step of the driver. A turn that fails ends like one that
completes: only the last error differs. -/
def drive (answer : Answer) : DriverSystem :=
  match s.phase with
  | .waiting => s.look
  | .starting => s.acquire
  | .looping => s.claimNextTurn
  | .claimed claim =>
    match answer with
    | .ok => { s with phase := .appended claim }
    | .no => s.dropClaim claim .failed
  | .appended claim => s.commitClaim claim .failed
  | .turn =>
    match answer with
    | .ok => s.claimStepBatch
    | .no => { s with phase := .looping }
  | .stepClaimed claim =>
    match answer with
    | .ok => { s with phase := .stepAppended claim }
    | .no => s.dropClaim claim .looping
  | .stepAppended claim => s.commitClaim claim .looping
  | .checking => s.check
  | .settling revision => { s with settledRevision := revision, phase := .stopping }
  | .stopping => { s with running := false, phase := .waiting }
  | .failed => { s with phase := .failing s.wakeRevision }
  | .failing revision =>
    { s with settledRevision := revision, running := false, phase := .waiting }
  | .exited => s

end DriverSystem

/-! ## Runs -/

/-- One step of the host or of the driver. -/
inductive DriverStep where
  | send (message : Message) (target : InboxTarget)
  | wake
  | reserve (id : MessageId) (update : InboxUpdate)
  | commitUpdate (id : MessageId)
  | abortUpdate (id : MessageId)
  | cancel (keepInbox : Bool)
  | drive (answer : DriverSystem.Answer)
  deriving DecidableEq

def DriverSystem.step (s : DriverSystem) : DriverStep → DriverSystem
  | .send message target => s.send message target
  | .wake => s.wake
  | .reserve id update => s.reserve id update
  | .commitUpdate id => s.commitUpdate id
  | .abortUpdate id => s.abortUpdate id
  | .cancel keepInbox => s.cancel keepInbox
  | .drive answer => s.drive answer

end Tessivum.Agent
