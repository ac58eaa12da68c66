/-
Tessivum.Projection.Registry — projections over one session's log, and the two
tasks that feed them (`src/projection.rs`, and `ensure_relay` with
`relay_missing_events` of `src/host.rs`).

A session append pushes the event to the log and then broadcasts it, under one
write gate. `attach` looks for states of the session, and where there are none
it initialises them, subscribes, inserts them under a lock it takes again, and
replays the log; then an observer task takes events from its receiver. Several
calls may be on their way, that of `ensure_relay` among them. The host relay
reads its start point after its own `attach` has returned and subscribes on its
own; it applies what it receives and, where it sees a gap, what it finds in the
log. A receiver that falls more than the channel's capacity behind lags and
skips to the oldest event the channel still has.

One pass over the projections runs under the apply gate and is one step; the
first insertion finds no pass on its way. Callbacks are pure and may refuse an
event. Other sessions share only the gate; `restore`, the views and the notices
are left out. Sequence numbers are natural numbers, so the relay's
`saturating_add` is an addition.
-/
import Tessivum.Session.Log

namespace Tessivum.Projection

open Protocol

/-! ## Definitions and states -/

/-- `ProjectionError`, as far as registration, attachment and the
callbacks give it. -/
inductive ProjectionError where
  | emptyKey
  | alreadyRegistered (key : String)
  | callback (message : String)
  | shutdown
  deriving DecidableEq, Repr

/-- `ProjectionDefinition`, without the view. -/
structure ProjectionDefinition where
  key : String
  stateVersion : Nat
  init : SessionHeader → Except ProjectionError Value
  apply : Value → SessionEvent → Except ProjectionError Value

structure StateFrame where
  asOfSeq : Option Nat
  state : Value
  deriving DecidableEq, Repr

structure ProjectionState where
  stateVersion : Nat
  state : Value
  lastSeq : Option Nat
  frames : List StateFrame
  lastError : Option ProjectionError
  deriving DecidableEq, Repr

/-- An attached projection: a definition, which is never replaced, and the
session's state for it. -/
structure AttachedProjection where
  definition : ProjectionDefinition
  state : ProjectionState

/-- The initial state `attach` inserts for a definition. -/
def ProjectionDefinition.attach (d : ProjectionDefinition) (header : SessionHeader) :
    Except ProjectionError AttachedProjection := do
  let initial ← d.init header
  .ok
    { definition := d
      state :=
        { stateVersion := d.stateVersion, state := initial, lastSeq := none
          frames := [{ asOfSeq := none, state := initial }], lastError := none } }

/-! ## One pass -/

/-- `last_seq.is_none_or(|seq| event.seq > seq)`: the event is work for the
projection. -/
def AttachedProjection.lacks (p : AttachedProjection) (e : SessionEvent) : Bool :=
  p.state.lastSeq.all (· < e.seq)

/-- Commit the callback's result: a frame only where the state changes. -/
def ProjectionState.commit (st : ProjectionState) (e : SessionEvent) (next : Value) :
    ProjectionState :=
  if st.state = next then { st with lastSeq := some e.seq }
  else
    { st with
      lastSeq := some e.seq, state := next
      frames := st.frames ++ [{ asOfSeq := some e.seq, state := next }] }

/-- `apply_event_locked`: the projections that lack the event fold it in,
in key order; the first callback that fails ends the pass. -/
def applyEventLocked (e : SessionEvent) : List AttachedProjection →
    Option ProjectionError × List AttachedProjection
  | [] => (none, [])
  | p :: rest =>
    if p.lacks e then
      match p.definition.apply p.state.state e with
      | .error err => (some err, p :: rest)
      | .ok next =>
        let (failure, rest) := applyEventLocked e rest
        (failure, { p with state := p.state.commit e next } :: rest)
    else
      let (failure, rest) := applyEventLocked e rest
      (failure, p :: rest)

/-- `replay_locked`: every event of the log in turn, up to the first
failure. -/
def replayLocked (ps : List AttachedProjection) : List SessionEvent →
    Option ProjectionError × List AttachedProjection
  | [] => (none, ps)
  | e :: rest =>
    match applyEventLocked e ps with
    | (some err, ps) => (some err, ps)
    | (none, ps) => replayLocked ps rest

def recordError (ps : List AttachedProjection) (err : ProjectionError) : List AttachedProjection :=
  ps.map fun p => { p with state := { p.state with lastError := some err } }

/-- What the observer keeps of a pass: the new states, and the failure
recorded on all of them. -/
def recorded (outcome : Option ProjectionError × List AttachedProjection) : List AttachedProjection :=
  match outcome with
  | (none, ps) => ps
  | (some err, ps) => recordError ps err

/-! ## The tasks -/

/-- Where a call of `attach` stands that has found no states of the session.
The receiver is kept by its position. -/
inductive AttachPhase where
  | checked
  /-- the states are initialised and the receiver is taken -/
  | prepared (projections : List AttachedProjection) (cursor : Nat)
  /-- inserted, before the replay -/
  | inserted (cursor : Nat)

/-- A call of `attach` on its way, and whether `ensure_relay` made it. -/
structure AttachCall where
  relaying : Bool
  phase : AttachPhase

/-- `observe_session`. -/
inductive Observer where
  | stopped
  | waiting (cursor : Nat)
  /-- it holds an event it received -/
  | handed (cursor : Nat) (event : SessionEvent)
  /-- its receiver lagged, before the replay -/
  | behind (cursor : Nat)
  deriving DecidableEq

/-- Where the relay task of `ensure_relay` stands. -/
inductive RelayPhase where
  /-- about to read the log in `relay_missing_events` -/
  | scanning (held : Option SessionEvent) (closing : Bool)
  /-- the events found that are left to relay, then the event received -/
  | draining (found : List SessionEvent) (held : Option SessionEvent) (closing : Bool)
  | waiting
  | finished
  deriving DecidableEq

structure RelayTask where
  nextSeq : Nat
  cursor : Nat
  phase : RelayPhase
  deriving DecidableEq

inductive Relay where
  | absent
  /-- `starting_next_seq` is read, not yet subscribed -/
  | starting (nextSeq : Nat)
  | running (task : RelayTask)
  deriving DecidableEq

/-- One session with its projections. `sent` counts the events that are
broadcast or were there before anybody could subscribe, `attached` says that
the registry has states of the session, `relayed` that `ensure_relay` has been
called, and `relayAttached` that its `attach` has returned. -/
structure ProjectionSystem where
  header : SessionHeader
  log : List SessionEvent
  sent : Nat
  definitions : List ProjectionDefinition
  closed : Bool
  attached : Bool
  attaches : List AttachCall
  projections : List AttachedProjection
  observers : List Observer
  relayed : Bool
  relayAttached : Bool
  relay : Relay

def channelCapacity : Nat := 128

namespace ProjectionSystem

/-- A session with its log, before anything is registered or attached. -/
def opened (header : SessionHeader) (log : List SessionEvent) : ProjectionSystem :=
  { header, log, sent := log.length, definitions := [], closed := false, attached := false
    attaches := [], projections := [], observers := [], relayed := false, relayAttached := false
    relay := .absent }

/-! ## Registration and attachment -/

def insertDefinition (d : ProjectionDefinition) :
    List ProjectionDefinition → List ProjectionDefinition
  | [] => [d]
  | x :: rest => if d.key < x.key then d :: x :: rest else x :: insertDefinition d rest

variable (s : ProjectionSystem)

def register (d : ProjectionDefinition) : Except ProjectionError ProjectionSystem :=
  if isBlank d.key then .error .emptyKey
  else if s.definitions.any (·.key == d.key) then .error (.alreadyRegistered d.key)
  else .ok { s with definitions := insertDefinition d s.definitions }

/-- `ProjectionRegistry::attach` up to its look at the sessions. A session
that is attached already stays as it is. -/
def attach (relaying : Bool) : Except ProjectionError ProjectionSystem :=
  if s.closed then .error .shutdown
  else if s.attached then .ok { s with relayAttached := s.relayAttached || relaying }
  else .ok { s with attaches := s.attaches ++ [{ relaying, phase := .checked }] }

/-- `ensure_relay` up to the same look, once for a session. -/
def ensureRelay (s : ProjectionSystem) : ProjectionSystem :=
  if s.relayed then s
  else
    let s := { s with relayed := true }
    (s.attach true).toOption.getD s

/-- Every definition is initialised, and the receiver is taken. -/
def attachPrepare (i : Nat) : ProjectionSystem :=
  match s.attaches[i]? with
  | some { relaying, phase := .checked } =>
    match s.definitions.mapM (·.attach s.header) with
    | .ok projections =>
      { s with attaches := s.attaches.set i { relaying, phase := .prepared projections s.sent } }
    | .error _ => { s with attaches := s.attaches.eraseIdx i }
  | _ => s

/-- The states are inserted, also over those of another call. -/
def attachInsert (i : Nat) : ProjectionSystem :=
  match s.attaches[i]? with
  | some { relaying, phase := .prepared projections cursor } =>
    { s with
      projections, attached := true
      attaches := s.attaches.set i { relaying, phase := .inserted cursor } }
  | _ => s

/-- The rest of `attach`: the replay, and the observer. After a replay that
fails the states stay. -/
def attachReplay (i : Nat) : ProjectionSystem :=
  match s.attaches[i]? with
  | some { relaying, phase := .inserted cursor } =>
    match replayLocked s.projections s.log with
    | (none, projections) =>
      { s with
        projections, attaches := s.attaches.eraseIdx i
        observers := s.observers ++ [.waiting cursor]
        relayAttached := s.relayAttached || relaying }
    | (some _, projections) => { s with projections, attaches := s.attaches.eraseIdx i }
  | _ => s

/-! ## Appends -/

/-- `append_under_gate` up to the admission of the event. -/
def append (e : SessionEvent) : ProjectionSystem :=
  match Session.nextSeq s.log with
  | .ok n => if s.sent = s.log.length ∧ e.seq = n then { s with log := s.log ++ [e] } else s
  | .error _ => s

/-- The broadcast of the event, still under the write gate. -/
def publish : ProjectionSystem :=
  if s.sent < s.log.length then { s with sent := s.sent + 1 } else s

/-! ## The observers -/

/-- `receiver.recv()` in `observe_session`. -/
def observerReceive (j : Nat) : ProjectionSystem :=
  match s.observers[j]? with
  | some (.waiting cursor) =>
    if cursor + channelCapacity < s.sent then
      { s with observers := s.observers.set j (.behind (s.sent - channelCapacity)) }
    else if cursor < s.sent then
      match s.log[cursor]? with
      | some e => { s with observers := s.observers.set j (.handed (cursor + 1) e) }
      | none => s
    else s
  | _ => s

/-- The `apply` or the `replay` an observer answers with. -/
def observerApply (j : Nat) : ProjectionSystem :=
  match s.observers[j]? with
  | some (.handed cursor e) =>
    { s with
      projections := recorded (applyEventLocked e s.projections)
      observers := s.observers.set j (.waiting cursor) }
  | some (.behind cursor) =>
    { s with
      projections := recorded (replayLocked s.projections s.log)
      observers := s.observers.set j (.waiting cursor) }
  | _ => s

/-- An observer task ends, at a shutdown or when the session is gone. -/
def observerStop (j : Nat) : ProjectionSystem :=
  match s.observers[j]? with
  | some (.waiting _) => { s with observers := s.observers.set j .stopped }
  | _ => s

/-! ## The relay -/

/-- `ensure_relay` after its `attach`: the start point is read. -/
def relayStart : ProjectionSystem :=
  match s.relayAttached, s.relay with
  | true, .absent =>
    let nextSeq := match Session.nextSeq s.log with
      | .ok n => n
      | .error _ => u64Bound - 1
    { s with relay := .starting nextSeq }
  | _, _ => s

def relaySubscribe : ProjectionSystem :=
  match s.relay with
  | .starting nextSeq =>
    { s with relay := .running { nextSeq, cursor := s.sent, phase := .scanning none false } }
  | _ => s

/-- `relay_missing_events` reads the log. -/
def relayScan : ProjectionSystem :=
  match s.relay with
  | .running { nextSeq, cursor, phase := .scanning held closing } =>
    let found := s.log.filter (fun e => nextSeq ≤ e.seq)
    { s with relay := .running { nextSeq, cursor, phase := .draining found held closing } }
  | _ => s

/-- `receiver.recv()` in the relay. -/
def relayReceive : ProjectionSystem :=
  match s.relay with
  | .running { nextSeq, cursor, phase := .waiting } =>
    if cursor + channelCapacity < s.sent then
      { s with
        relay := .running
          { nextSeq, cursor := s.sent - channelCapacity, phase := .scanning none false } }
    else if cursor < s.sent then
      match s.log[cursor]? with
      | some e =>
        let phase : RelayPhase :=
          if nextSeq < e.seq then .scanning (some e) false else .draining [] (some e) false
        { s with relay := .running { nextSeq, cursor := cursor + 1, phase } }
      | none => s
    else s
  | _ => s

def relayNext : Option SessionEvent :=
  match s.relay with
  | .running { nextSeq := _, cursor := _, phase := .draining (e :: _) _ _ } => some e
  | .running { nextSeq, cursor := _, phase := .draining [] (some e) _ } =>
    if nextSeq ≤ e.seq then some e else none
  | _ => none

/-- `relay_event` for the next event: those found first, then the one
received unless it was among them. -/
def relayApply : ProjectionSystem :=
  match s.relay with
  | .running { nextSeq := _, cursor, phase := .draining (e :: found) held closing } =>
    { s with
      projections := (applyEventLocked e s.projections).2
      relay := .running
        { nextSeq := e.seq + 1, cursor, phase := .draining found held closing } }
  | .running { nextSeq, cursor, phase := .draining [] (some e) closing } =>
    if nextSeq ≤ e.seq then
      { s with
        projections := (applyEventLocked e s.projections).2
        relay := .running
          { nextSeq := e.seq + 1, cursor, phase := .draining [] none closing } }
    else
      { s with relay := .running { nextSeq, cursor, phase := .draining [] none closing } }
  | .running { nextSeq, cursor, phase := .draining [] none closing } =>
    { s with
      relay := .running { nextSeq, cursor, phase := if closing then .finished else .waiting } }
  | _ => s

def relayClose : ProjectionSystem :=
  match s.relay with
  | .running { nextSeq, cursor, phase := .waiting } =>
    { s with relay := .running { nextSeq, cursor, phase := .scanning none true } }
  | _ => s

end ProjectionSystem

/-! ## Runs -/

inductive ProjectionStep where
  | register (d : ProjectionDefinition)
  | append (e : SessionEvent)
  | publish
  | attach
  | ensureRelay
  | attachPrepare (i : Nat)
  | attachInsert (i : Nat)
  | attachReplay (i : Nat)
  | observerReceive (j : Nat)
  | observerApply (j : Nat)
  | observerStop (j : Nat)
  | relayStart
  | relaySubscribe
  | relayScan
  | relayReceive
  | relayApply
  | relayClose
  | shutdown

namespace ProjectionSystem

def step (s : ProjectionSystem) : ProjectionStep → ProjectionSystem
  | .register d => (s.register d).toOption.getD s
  | .append e => s.append e
  | .publish => s.publish
  | .attach => (s.attach false).toOption.getD s
  | .ensureRelay => s.ensureRelay
  | .attachPrepare i => s.attachPrepare i
  | .attachInsert i => s.attachInsert i
  | .attachReplay i => s.attachReplay i
  | .observerReceive j => s.observerReceive j
  | .observerApply j => s.observerApply j
  | .observerStop j => s.observerStop j
  | .relayStart => s.relayStart
  | .relaySubscribe => s.relaySubscribe
  | .relayScan => s.relayScan
  | .relayReceive => s.relayReceive
  | .relayApply => s.relayApply
  | .relayClose => s.relayClose
  | .shutdown => { s with closed := true }

def run (s : ProjectionSystem) (steps : List ProjectionStep) : ProjectionSystem :=
  steps.foldl step s

end ProjectionSystem

end Tessivum.Projection
