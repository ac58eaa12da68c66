/-
Tessivum.Session.Log — the durable inbox and the state of a session, rebuilt
from the log (`InboxReplay`, `replay_inbox` and `build_state` of
`src/session.rs`).

Two event types mutate the durable inbox. `agent/inbox/enqueued` appends a
message to the next-turn or the next-step queue. `agent/inbox/spliced` comes in
two shapes: a positional splice (`start`, `removedCount`, `inserted`, no
`action`), and a mutation of one item named by `itemId` (`action` is `edit`,
`remove` or `steer`). A `user/message` event claims its message, so it drops a
pending message of the same id.

A failed application leaves the source's structure half mutated on one path
(`steer` removes before it compares), but every caller drops the structure on
failure, so a failure carries no state here.
-/
import Tessivum.Session.State

namespace Tessivum.Session

open Library Protocol

inductive InboxReplayTarget where
  | followup
  | step
  deriving DecidableEq, Repr

/-- `InboxReplay`: the two pending queues. -/
structure InboxReplay where
  followups : List Message
  steps : List Message
  deriving DecidableEq, Repr

def inboxEnqueuedEvent : String := "agent/inbox/enqueued"

def inboxSplicedEvent : String := "agent/inbox/spliced"

def inboxEvent (reason : String) : SessionError := .invalidInboxEvent reason

def isInboxEvent (e : SessionEvent) : Bool :=
  e.eventType == inboxEnqueuedEvent || e.eventType == inboxSplicedEvent

/-! ## Payload fields -/

def inboxTarget (e : SessionEvent) : Except SessionError InboxReplayTarget :=
  match (e.data.get "target").bind Value.asStr with
  | some "next-turn" => .ok .followup
  | some "next-step" => .ok .step
  | _ => .error (inboxEvent "inbox target must be next-turn or next-step")

def inboxMessage (S : Serde) (e : SessionEvent) : Except SessionError Message :=
  match e.data.get "message" with
  | none => .error (inboxEvent "inbox message is missing")
  | some v => decodeMessage S v (inboxEvent "inbox message is invalid")

/-- `inbox_item_id`. `MessageId` is a transparent string on the wire. -/
def inboxItemId (e : SessionEvent) : Except SessionError MessageId :=
  match e.data.get "itemId" with
  | none => .error (inboxEvent "splice itemId is missing")
  | some (.string s) => .ok ⟨s⟩
  | some _ => .error (inboxEvent "splice itemId is invalid")

/-- A required field, reporting `reason` when it is absent or of another
shape. -/
def requireField {α : Type} (v : Option α) (reason : String) : Except SessionError α :=
  match v with
  | some a => .ok a
  | none => .error (inboxEvent reason)

namespace InboxReplay

/-! ## Queues -/

def empty : InboxReplay := { followups := [], steps := [] }

variable (inbox : InboxReplay)

def queue : InboxReplayTarget → List Message
  | .followup => inbox.followups
  | .step => inbox.steps

def setQueue (target : InboxReplayTarget) (q : List Message) : InboxReplay :=
  match target with
  | .followup => { inbox with followups := q }
  | .step => { inbox with steps := q }

def position (id : MessageId) (q : List Message) : Option Nat :=
  q.findIdx? fun m => m.id == id

def find (id : MessageId) : Option (InboxReplayTarget × Nat) :=
  match position id inbox.followups with
  | some index => some (.followup, index)
  | none => (position id inbox.steps).map fun index => (.step, index)

/-- `VecDeque::remove` of the first message with an id, if there is one. -/
def dropId (id : MessageId) (q : List Message) : List Message :=
  match position id q with
  | some index => q.eraseIdx index
  | none => q

def remove (id : MessageId) : InboxReplay :=
  { followups := dropId id inbox.followups, steps := dropId id inbox.steps }

/-! ## Splices -/

def decodeInserted (S : Serde) (values : List Value) : Except SessionError (List Message) :=
  values.mapM fun v => decodeMessage S v (inboxEvent "splice inserted message is invalid")

/-- An inserted message may reuse an id only when the same splice removes
the pending message that holds it, and only once. -/
def insertedIdFree (target : InboxReplayTarget) (start removed : Nat) (earlier : List Message)
    (m : Message) : Bool :=
  let replacesRemoved :=
    match inbox.find m.id with
    | some (t, index) => t == target && start ≤ index && index < start + removed
    | none => false
  !(((inbox.find m.id).isSome && !replacesRemoved) || earlier.any fun c => c.id == m.id)

def checkInserted (inbox : InboxReplay) (target : InboxReplayTarget) (start removed : Nat) :
    List Message → List Message → Except SessionError Unit
  | _, [] => .ok ()
  | earlier, m :: rest => do
    failIf (!inbox.insertedIdFree target start removed earlier m)
      (inboxEvent "message id is already pending")
    checkInserted inbox target start removed (earlier ++ [m]) rest

/-- The positional splice of `agent/inbox/spliced`. -/
def applySplice (S : Serde) (inbox : InboxReplay) (e : SessionEvent) :
    Except SessionError InboxReplay := do
  let target ← inboxTarget e
  let start ← requireField ((e.data.get "start").bind Value.asU64) "splice start is missing"
  let removed := ((e.data.get "removedCount").bind Value.asU64).getD 0
  let values ← requireField ((e.data.get "inserted").bind Value.asArray)
    "splice inserted is missing"
  let inserted ← decodeInserted S values
  let q := inbox.queue target
  failIf (start > q.length ∨ removed > q.length - start)
    (inboxEvent "splice range is invalid")
  inbox.checkInserted target start removed [] inserted
  .ok (inbox.setQueue target (q.take start ++ inserted ++ q.drop (start + removed)))

/-- The `steer` action: a next-turn item becomes a next-step item. -/
def applySteer (current target : InboxReplayTarget) (index : Nat) (message : Message) :
    Except SessionError InboxReplay := do
  failIf (current ≠ .followup ∨ target ≠ .step)
    (inboxEvent "steer does not move a next-turn item to next-step")
  failIf (inbox.followups[index]? ≠ some message) (inboxEvent "steer changes its message")
  .ok { followups := inbox.followups.eraseIdx index, steps := inbox.steps ++ [message] }

/-- The item mutations of `agent/inbox/spliced`. -/
def applyItem (S : Serde) (inbox : InboxReplay) (e : SessionEvent) :
    Except SessionError InboxReplay := do
  let itemId ← inboxItemId e
  let target ← inboxTarget e
  let message ← inboxMessage S e
  failIf (message.id ≠ itemId) (inboxEvent "splice message id does not match itemId")
  let action ← requireField ((e.data.get "action").bind Value.asStr) "splice action is missing"
  match inbox.find itemId with
  | none => .error (.inboxMutationOutOfOrder itemId)
  | some (current, index) =>
    if action = "steer" then inbox.applySteer current target index message
    else if current ≠ target then
      .error (inboxEvent "splice target does not match the pending item")
    else if action = "edit" then
      .ok (inbox.setQueue target ((inbox.queue target).set index message))
    else if action = "remove" then do
      failIf ((inbox.queue target)[index]? ≠ some message)
        (inboxEvent "remove changes its message")
      .ok (inbox.setQueue target ((inbox.queue target).eraseIdx index))
    else .error (inboxEvent "unknown splice action")

def isPositional (e : SessionEvent) : Bool :=
  (e.data.get "action").isNone
    && ((e.data.get "start").isSome || (e.data.get "inserted").isSome)

/-- The `agent/inbox/enqueued` arm. -/
def applyEnqueued (S : Serde) (inbox : InboxReplay) (e : SessionEvent) :
    Except SessionError InboxReplay := do
  let target ← inboxTarget e
  let message ← inboxMessage S e
  failIf (inbox.find message.id).isSome (inboxEvent "message id is already pending")
  .ok (inbox.setQueue target (inbox.queue target ++ [message]))

def apply (S : Serde) (inbox : InboxReplay) (e : SessionEvent) :
    Except SessionError InboxReplay :=
  if e.eventType = inboxEnqueuedEvent then inbox.applyEnqueued S e
  else if e.eventType = inboxSplicedEvent then
    if isPositional e then inbox.applySplice S e else inbox.applyItem S e
  else if e.eventType = "user/message" then
    match (e.data.get "id").bind Value.asStr with
    | some id => .ok (inbox.remove ⟨id⟩)
    | none => .ok inbox
  else .ok inbox

end InboxReplay

def replayInbox (S : Serde) (events : List SessionEvent) : Except SessionError InboxReplay :=
  events.foldlM (InboxReplay.apply S) InboxReplay.empty

/-! ## The state of a session

`build_state` folds the log from the empty state: each event passes the checks
of `Tessivum.Session.State` against the state built so far, and the durable
inbox is replayed over the complete log at the end. -/

/-- One turn of the loop of `build_state`. -/
def replayEvent (S : Serde) (header : SessionHeader) (state : SessionState) (e : SessionEvent) :
    Except SessionError SessionState := do
  liftProtocol (e.validate S)
  checkSeq state.events e
  validateSeedBoundary header state e
  validateSources e state.events
  let projection ← decodeSurfaceEvent S e
  validateSurfaceOperation e projection state.surface
  .ok (state.record e projection)

def SessionState.empty (seedLength : Nat) : SessionState :=
  { events := [], surface := [], seedLength, endSeedSeen := false }

def buildState (S : Serde) (header : SessionHeader) (events : List SessionEvent) :
    Except SessionError SessionState := do
  validateHeader header
  let seedLength := header.seedLength.getD 0
  failIf (seedLength > events.length) (.invalidSeedLength seedLength events.length)
  let state ← events.foldlM (replayEvent S header) (SessionState.empty seedLength)
  let _ ← replayInbox S state.events
  .ok state

end Tessivum.Session
