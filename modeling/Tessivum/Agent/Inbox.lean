/-
Tessivum.Agent.Inbox — the in-memory inbox of an agent (`Inbox` of
`src/agent.rs`).

Messages wait in three queues: followups start a turn, steers and injections
join the next step. An operation that also writes a durable event first
reserves the messages it is about to take or change, and commits or aborts
after the event; a reserved message is not handed to anyone else.

Each method takes the lock of the inbox once, so it is one function on the
state. The reservation guards of the source are values here, and dropping one
is `abortClaim` or `abortReservation`.

The session's log follows the inbox (`src/agent_loop.rs`,
`inbox_enqueued_event` of `src/host.rs`). A submission appends
`agent/inbox/enqueued` before it sends. A claim appends a positional
`agent/inbox/spliced` that removes from the front of its queue, and only when
every message of the batch was durably enqueued. A claimed message enters the
conversation as a `user/message` event.
-/
import Tessivum.Protocol.Event

namespace Tessivum.Agent

open Library Protocol

/-- The point in agent execution at which a message is consumed. -/
inductive InboxTarget where
  | followup | steer | inject
  deriving DecidableEq, Repr

/-- One id-addressed pending inbox mutation. -/
inductive InboxUpdate where
  | edit (content : List ContentBlock)
  | remove
  | steer
  deriving DecidableEq, Repr

/-- The refusals of `Inbox::send`. -/
inductive InboxError where
  | message (error : TessivumError)
  | duplicateInboxMessage (id : MessageId)
  deriving DecidableEq, Repr

structure InboxState where
  followups : List Message
  steers : List Message
  injections : List Message
  reservations : Finset MessageId
  stepOrder : List (InboxTarget × MessageId)
  changes : Nat
  wakes : Nat
  deriving DecidableEq

namespace InboxState

/-- `Inbox::new`. -/
def empty : InboxState :=
  { followups := [], steers := [], injections := [], reservations := ∅, stepOrder := []
    changes := 0, wakes := 0 }

def pendingIndex (queue : List Message) (id : MessageId) : Option Nat :=
  queue.findIdx? fun m => m.id == id

variable (state : InboxState)

def pendingContains (id : MessageId) : Bool :=
  (pendingIndex state.followups id).isSome || (pendingIndex state.steers id).isSome
    || (pendingIndex state.injections id).isSome

/-- `bump`: zero is never reached again. -/
def bump (value : Nat) : Nat := if value + 1 < u64Bound then value + 1 else 1

def queue : InboxTarget → List Message
  | .followup => state.followups
  | .steer => state.steers
  | .inject => state.injections

def setQueue (target : InboxTarget) (q : List Message) : InboxState :=
  match target with
  | .followup => { state with followups := q }
  | .steer => { state with steers := q }
  | .inject => { state with injections := q }

/-- The change counter, and the wake counter where the mutation wakes. -/
def touch (wakeup : Bool) : InboxState :=
  { state with changes := bump state.changes
               wakes := if wakeup then bump state.wakes else state.wakes }

def push (message : Message) (target : InboxTarget) : InboxState :=
  match target with
  | .followup => { state with followups := state.followups ++ [message] }
  | .steer => { state with steers := state.steers ++ [message]
                           stepOrder := state.stepOrder ++ [(.steer, message.id)] }
  | .inject => { state with injections := state.injections ++ [message]
                            stepOrder := state.stepOrder ++ [(.inject, message.id)] }

def send (message : Message) (target : InboxTarget) (wakeup : Bool) :
    Except InboxError InboxState := do
  (message.validate).mapError .message
  failIf (state.pendingContains message.id) (.duplicateInboxMessage message.id)
  .ok ((state.push message target).touch wakeup)

/-- The inbox `run_setup` hands to the runtime: the followups a resumed
session still holds are sent into a new one, and none of them wakes. -/
def restore (pending : List Message) : Except InboxError InboxState :=
  pending.foldlM (fun inbox message => inbox.send message .followup false) empty

/-! ## Claims -/

/-- `InboxClaimReservation`: a claimed batch held until its durable
deletion commits. -/
structure ClaimReservation where
  nextStep : Bool
  entries : List (InboxTarget × MessageId)
  messages : List Message
  deriving DecidableEq

/-- `Inbox::reserve_next_turn_claim`. Nothing is claimed past a reserved
front. -/
def reserveNextTurnClaim : Option (ClaimReservation × InboxState) :=
  match state.followups with
  | [] => none
  | message :: _ =>
    if message.id ∈ state.reservations then none
    else some
      ({ nextStep := false, entries := [(.followup, message.id)], messages := [message] },
       { state with reservations := insert message.id state.reservations })

def stepMessage : InboxTarget × MessageId → Option Message
  | (.followup, _) => none
  | (.steer, id) => state.steers.find? fun m => m.id == id
  | (.inject, id) => state.injections.find? fun m => m.id == id

def reserveStepBatchClaim : Option (ClaimReservation × InboxState) :=
  if state.stepOrder = [] ∨ ∃ entry ∈ state.stepOrder, entry.2 ∈ state.reservations then none
  else
    match state.stepOrder.mapM state.stepMessage with
    | none => none
    | some messages => some
        ({ nextStep := true, entries := state.stepOrder, messages },
         { state with
           reservations := (state.stepOrder.map Prod.snd).toFinset ∪ state.reservations })

def dropId (queue : List Message) (id : MessageId) : List Message :=
  match pendingIndex queue id with
  | some index => queue.eraseIdx index
  | none => queue

/-- Take one claimed entry out of its queue and out of the
reservations. -/
def takeEntry (entry : InboxTarget × MessageId) : InboxState :=
  let taken := state.setQueue entry.1 (dropId (state.queue entry.1) entry.2)
  { taken with reservations := taken.reservations.erase entry.2 }

def commitClaim (claim : ClaimReservation) : Option InboxState :=
  if (∀ entry ∈ claim.entries, entry.2 ∈ state.reservations)
      ∧ ∀ entry ∈ claim.entries, (pendingIndex (state.queue entry.1) entry.2).isSome then
    let taken := claim.entries.foldl takeEntry state
    let ordered :=
      if claim.nextStep then
        { taken with stepOrder := taken.stepOrder.filter fun queued =>
          !claim.entries.any fun entry => entry.2 == queued.2 }
      else taken
    some (ordered.touch false)
  else none

def abortClaim (entries : List (InboxTarget × MessageId)) : InboxState :=
  { state with
    reservations := state.reservations.filter fun id => ¬ ∃ entry ∈ entries, entry.2 = id }

/-! ## Updates -/

/-- `InboxUpdateReservation`: a pending queue mutation held out of agent
consumption until its durable event commits. -/
structure UpdateReservation where
  itemId : MessageId
  update : InboxUpdate
  target : InboxTarget
  message : Message
  sourceTarget : InboxTarget
  start : Nat
  destinationStart : Option Nat
  wakes : Bool
  deriving DecidableEq

/-- `InboxReservationResult`. -/
inductive ReservationResult where
  | reserved (reservation : UpdateReservation) (state : InboxState)
  | notPending
  | steerUnavailable

/-- Where a pending user message stands: its queue, its position there
(for a steer, in the step order) and the message. -/
def locate (id : MessageId) : Option (InboxTarget × Nat × Message) :=
  match state.followups.findIdx? fun m => m.id == id with
  | some index => (state.followups[index]?).map fun message => (.followup, index, message)
  | none =>
    (state.steers.find? fun m => m.id == id).map fun message =>
      (.steer, (state.stepOrder.findIdx? fun queued => queued.2 == id).getD 0, message)

def reserveUpdate (id : MessageId) (update : InboxUpdate) (steerEnabled : Bool) :
    ReservationResult :=
  if id ∈ state.reservations then .notPending
  else
    match state.locate id with
    | none => .notPending
    | some (source, start, original) =>
      let reserved := { state with reservations := insert id state.reservations }
      let hold (target : InboxTarget) (message : Message) (destinationStart : Option Nat)
          (wakes : Bool) : ReservationResult :=
        .reserved { itemId := id, update, target, message, sourceTarget := source, start
                    destinationStart, wakes } reserved
      match update with
      | .edit content =>
        let message := { original with content }
        match message.validate with
        | .error _ => .notPending
        | .ok () => hold source message none false
      | .remove => hold source original none false
      | .steer =>
        if source = .followup ∧ steerEnabled then
          hold .steer original (some state.stepOrder.length) true
        else .steerUnavailable

/-- The queue `Inbox::commit_reservation` works on. -/
def UpdateReservation.queue (reservation : UpdateReservation) : InboxTarget :=
  match reservation.update with
  | .steer => .followup
  | _ => reservation.target

/-- The mutation of a committed update, at the position of its item. -/
def applyUpdate (reservation : UpdateReservation) (index : Nat) : InboxState :=
  let source := reservation.queue
  match reservation.update with
  | .edit _ => state.setQueue source ((state.queue source).set index reservation.message)
  | .remove =>
    let removed := state.setQueue source ((state.queue source).eraseIdx index)
    if source = .steer then
      { removed with stepOrder := removed.stepOrder.filter fun queued =>
        queued.2 != reservation.itemId }
    else removed
  | .steer =>
    match state.followups[index]? with
    | none => state
    | some message =>
      { state with
        followups := state.followups.eraseIdx index
        steers := state.steers ++ [message]
        stepOrder := state.stepOrder ++ [(.steer, message.id)] }

/-- `Inbox::commit_reservation`. The reservation is gone in every case. -/
def commitReservation (reservation : UpdateReservation) : Bool × InboxState :=
  if reservation.itemId ∈ state.reservations then
    let released :=
      { state with reservations := state.reservations.erase reservation.itemId }
    match pendingIndex (released.queue reservation.queue) reservation.itemId with
    | none => (false, released)
    | some index => (true, (released.applyUpdate reservation index).touch reservation.wakes)
  else (false, state)

/-- `Inbox::abort_reservation`. Only the inbox's own wake counter
moves. -/
def abortReservation (id : MessageId) : InboxState :=
  let released := { state with reservations := state.reservations.erase id }
  if id ∈ state.reservations ∧ released.pendingContains id = true then
    { released with wakes := bump released.wakes }
  else released

def clear : InboxState :=
  if state.followups = [] ∧ state.steers = [] ∧ state.injections = [] then state
  else
    { state with followups := [], steers := [], injections := [], reservations := ∅
                 stepOrder := [], changes := bump state.changes }

end InboxState

/-! ## The durable events beside the inbox -/

def queueTargetName : InboxTarget → String
  | .followup => "next-turn"
  | .steer => "next-step"
  | .inject => "next-step"

/-- `inbox_enqueued_event`. -/
def inboxEnqueued (S : Serde) (target : InboxTarget) (message : Message) (time seq : Nat) :
    SessionEvent :=
  { SessionEvent.plain "agent/inbox/enqueued" seq time
      (.object [("message", S.messageToValue message),
        ("target", .string (queueTargetName target))])
    with ignorable := some true }

/-- `durable_inbox_claim`: every claimed message was durably enqueued. -/
def durableInboxClaim (log : List SessionEvent) (messages : List Message) : Bool :=
  !messages.isEmpty && messages.all fun message =>
    log.any fun e => e.eventType == "agent/inbox/enqueued"
      && ((e.data.get "message").bind fun m => m.get "id").bind Value.asStr
          == some message.id.asStr

/-- The event that records a claim, as `commit_inbox_claim` writes it. -/
def claimSplicedEvent (claim : InboxState.ClaimReservation) (time seq : Nat) : SessionEvent :=
  .plain "agent/inbox/spliced" seq time
    (.object [("inserted", .array []),
      ("removedCount", .ofNat claim.messages.length), ("start", .ofNat 0),
      ("target", .string (if claim.nextStep then "next-step" else "next-turn"))])

/-- The event that puts a claimed message into the conversation. -/
def userMessageEvent (S : Serde) (message : Message) (time seq : Nat) : SessionEvent :=
  { SessionEvent.plain "user/message" seq time (S.messageToValue message) with
    surfaceOp := some .append }

end Tessivum.Agent
