/-
Tessivum.Api.EventStream — one client of a session's event stream
(`sse_events`, `sse_from_seq` and `sse_event` of `src/api.rs`, and
`relay_event` of `src/host.rs`).

The session, its projections and its relay are those of `Projection.Registry`.
The relay sends the event it is at, applies it, takes the snapshots and sends
the notice of each projection the event changed. A connection subscribes to the
notices, reads the committed suffix, and then writes frames: first the suffix,
then what it receives. A disconnect, at any point, drops the connection and the
frames under way, and the client connects again with the last id it got.

A receiver can fall behind at any point, since it shares the channel with all
sessions. Sequence numbers are natural numbers, so `saturating_add` is an
addition. How long the encoding of a notice is and what a projection shows of
its state are parameters.
-/
import Tessivum.Projection.Registry

namespace Tessivum.Api

open Protocol Projection

/-! ## Notices and frames -/

/-- `HostNotification`, as far as the stream of a session tells them
apart. -/
inductive Notice where
  | sessionEvent (event : SessionEvent)
  | sessionProjection (key : String) (value : Value) (seq : Nat)
  /-- the status of the session, or the start or the end of a subagent -/
  | lifecycle (type : String) (payload : Value)
  /-- a notice of another session, or of a kind that is not streamed -/
  | unrelated
  deriving DecidableEq

/-- What the client gets: an event with its id and its data, or an error
after which the stream ends. -/
inductive Frame where
  | notice (notice : Notice)
  | error (type code message : String)
  deriving DecidableEq

def Frame.id : Frame → Option Nat
  | .notice (.sessionEvent event) => some event.seq
  | .notice (.sessionProjection _ _ seq) => some seq
  | _ => none

/-- The event of a `session.event` frame. -/
def Frame.event : Frame → Option SessionEvent
  | .notice (.sessionEvent event) => some event
  | _ => none

/-- `sse_error_event` for a frame that is too large. -/
def oversizeFrame : Frame :=
  .error "oversize" "PAYLOAD_TOO_LARGE" "request frame exceeds the configured limit"

/-- `sse_error_event` for a receiver that fell behind. -/
def lagFrame (dropped : Nat) : Frame :=
  .error "lag" "NOTIFICATION_LAGGED"
    ((toString dropped) ++ " notifications were dropped; reconnect using Last-Event-ID")

/-- `MAX_SAFE_INTEGER`. -/
def maxSafeInteger : Nat := 2 ^ 53 - 1

/-- `sse_from_seq`: the query wins over the header. -/
def sseFromSeq (queryFrom lastEventId : Option Nat) : Option Nat :=
  match queryFrom with
  | some start => if start ≤ maxSafeInteger then some start else none
  | none =>
    match lastEventId with
    | none => some 0
    | some last => if last ≤ maxSafeInteger then some (last + 1) else none

/-! ## State -/

/-- Where the relay stands inside `relay_event`. -/
inductive Emission where
  | idle
  /-- the event's notice is sent -/
  | announced
  /-- the event is applied -/
  | applied (event : SessionEvent)
  /-- the projections' notices that are left to send -/
  | sending (notices : List Notice)
  deriving DecidableEq

/-- A connection: its receiver's notices, the suffix it has left to write
once it is read, and the frames under way. -/
structure Connection where
  nextSeq : Nat
  durable : Option (List SessionEvent)
  queue : List Notice
  dropped : Option Nat
  underWay : List Frame
  ended : Bool

structure StreamSystem where
  host : ProjectionSystem
  emission : Emission
  connection : Option Connection
  received : List Frame

/-- What is not decided by the stream. -/
structure StreamParams where
  /-- the encoding of the notice fits a frame -/
  fits : Notice → Bool
  /-- the view of the definition of this key -/
  view : String → Value → Except ProjectionError Value

/-! ## The stream -/

namespace Connection

def write (params : StreamParams) (c : Connection) (notice : Notice) : Connection :=
  if params.fits notice then { c with underWay := c.underWay ++ [.notice notice] }
  else { c with underWay := c.underWay ++ [oversizeFrame], ended := true }

def handle (params : StreamParams) (c : Connection) (notice : Notice) : Connection :=
  match notice with
  | .sessionEvent e =>
    if e.seq < c.nextSeq then c
    else write params { c with nextSeq := e.seq + 1 } notice
  | .sessionProjection _ _ _ | .lifecycle _ _ => c.write params notice
  | .unrelated => c

def turn (params : StreamParams) (c : Connection) : Connection :=
  if c.ended then c
  else
    match c.durable with
    | none => c
    | some (e :: rest) =>
      write params
        { c with nextSeq := max c.nextSeq (e.seq + 1), durable := some rest }
        (.sessionEvent e)
    | some [] =>
      match c.dropped with
      | some dropped => { c with underWay := c.underWay ++ [lagFrame dropped], ended := true }
      | none =>
        match c.queue with
        | [] => c
        | notice :: rest => handle params { c with queue := rest } notice

end Connection

namespace StreamSystem

def opened (header : SessionHeader) (log : List SessionEvent) : StreamSystem :=
  { host := .opened header log, emission := .idle, connection := none, received := [] }

variable (s : StreamSystem)

def lastEventId : Option Nat := s.received.findSome? Frame.id

/-- `notices.send`. -/
def send (notice : Notice) : StreamSystem :=
  { s with connection := s.connection.map fun c => { c with queue := c.queue ++ [notice] } }

/-! ## The relay -/

/-- `snapshot`: the last frame of a projection, seen through its view. -/
def snapshot (params : StreamParams) (ps : List AttachedProjection) (key : String) :
    Except ProjectionError (Option Nat × String × Value) :=
  match ps.find? (·.definition.key == key) with
  | none => .error (.callback key)
  | some p =>
    match p.state.frames.getLast? with
    | none => .error (.callback key)
    | some frame => do
      let value ← params.view key frame.state
      .ok (frame.asOfSeq, key, value)

/-- The notices of the projections that changed with the event; none when
a snapshot fails. -/
def projectionNotices (params : StreamParams) (host : ProjectionSystem) (e : SessionEvent) :
    List Notice :=
  match host.definitions.mapM fun d => snapshot params host.projections d.key with
  | .error _ => []
  | .ok snapshots =>
    (snapshots.filter (·.1 == some e.seq)).map fun snapshot =>
      .sessionProjection snapshot.2.1 snapshot.2.2 e.seq

/-- `relay_event`: the event's notice. -/
def relayAnnounce : StreamSystem :=
  match s.emission, s.host.relayNext with
  | .idle, some e => { s.send (.sessionEvent e) with emission := .announced }
  | _, _ => s

/-- `relay_event`: the event is applied. The relay also takes a turn here
that relays nothing. -/
def relayApply (s : StreamSystem) : StreamSystem :=
  match s.emission, s.host.relayNext with
  | .announced, some e =>
    { s with
      host := s.host.relayApply
      emission :=
        match applyEventLocked e s.host.projections with
        | (none, _) => .applied e
        | (some _, _) => .idle }
  | .idle, none => { s with host := s.host.relayApply }
  | _, _ => s

/-- `relay_event`: the snapshots are taken. -/
def relaySnapshots (params : StreamParams) (s : StreamSystem) : StreamSystem :=
  match s.emission with
  | .applied e => { s with emission := .sending (projectionNotices params s.host e) }
  | _ => s

/-- `relay_event`: one more notice of a projection. -/
def relaySend : StreamSystem :=
  match s.emission with
  | .sending (notice :: rest) => { s.send notice with emission := .sending rest }
  | .sending [] => { s with emission := .idle }
  | _ => s

/-- Any other step of the session, its observer and its relay; the relay
waits for the end of `relay_event`. -/
def hostStep (i : ProjectionStep) : StreamSystem :=
  match i with
  | .relayApply => s.relayApply
  | .relayScan | .relayReceive | .relayClose =>
    if s.emission = .idle then { s with host := s.host.step i } else s
  | _ => { s with host := s.host.step i }

/-! ## The connection -/

/-- The client connects and `sse_events` subscribes. -/
def connect (queryFrom : Option Nat) : StreamSystem :=
  match s.connection, sseFromSeq queryFrom s.lastEventId with
  | none, some fromSeq =>
    { s with
      connection := some
        { nextSeq := fromSeq, durable := none, queue := [], dropped := none, underWay := []
          ended := false } }
  | _, _ => s

/-- `host.events`. -/
def readSuffix : StreamSystem :=
  match s.connection with
  | none => s
  | some c =>
    if c.durable.isSome then s
    else
      let durable := s.host.log.filter fun e => c.nextSeq ≤ e.seq
      { s with connection := some { c with durable := some durable } }

def onConnection (f : Connection → Connection) : StreamSystem :=
  { s with connection := s.connection.map f }

def receive : StreamSystem :=
  match s.connection with
  | none => s
  | some c =>
    match c.underWay with
    | [] => s
    | frame :: rest =>
      { s with
        connection := some { c with underWay := rest }
        received := frame :: s.received }

end StreamSystem

/-! ## Runs -/

inductive StreamStep where
  | host (i : ProjectionStep)
  | relayAnnounce
  | relaySnapshots
  | relaySend
  /-- a notice that is not of an event or a projection of the session -/
  | lifecycle (type : String) (payload : Value)
  | unrelated
  | connect (queryFrom : Option Nat)
  | readSuffix
  | turn
  | receive
  /-- the receiver falls behind and notices are dropped -/
  | lag (dropped : Nat)
  /-- the server closes its streams -/
  | shutdown
  | disconnect

namespace StreamSystem

def step (params : StreamParams) (s : StreamSystem) : StreamStep → StreamSystem
  | .host i => s.hostStep i
  | .relayAnnounce => s.relayAnnounce
  | .relaySnapshots => s.relaySnapshots params
  | .relaySend => s.relaySend
  | .lifecycle type payload => s.send (.lifecycle type payload)
  | .unrelated => s.send .unrelated
  | .connect queryFrom => s.connect queryFrom
  | .readSuffix => s.readSuffix
  | .turn => s.onConnection (Connection.turn params)
  | .receive => s.receive
  | .lag dropped =>
    s.onConnection fun c => { c with queue := c.queue.drop dropped, dropped := some dropped }
  | .shutdown => s.onConnection fun c => { c with ended := true }
  | .disconnect => { s with connection := none }

def run (params : StreamParams) (s : StreamSystem) (steps : List StreamStep) : StreamSystem :=
  steps.foldl (step params) s

/-- The events of the `session.event` frames the client got, the oldest
first. -/
def receivedEvents (s : StreamSystem) : List SessionEvent :=
  (s.received.filterMap Frame.event).reverse

end StreamSystem

end Tessivum.Api
