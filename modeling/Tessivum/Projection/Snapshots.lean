/-
Tessivum.Projection.Snapshots — projections at a point of the log, and their
checkpoints (`snapshot_as_of`, `checkpoint`, `restore` and `restore_floor` of
`src/projection.rs`).

The registry here is called from outside, one call after the other: the session
appends, somebody attaches, applies an event, asks for a snapshot, takes a
checkpoint or restores one. Passes and replays are those of
`Tessivum.Projection.Registry`.

A lookup in the frames that finds none panics, which is `none` here.
-/
import Tessivum.Projection.Registry

namespace Tessivum.Projection

open Protocol

/-- `ProjectionError`, with the failures of a lookup and of a restore. -/
inductive SnapshotError where
  | notRegistered (key : String)
  | notAttached (sessionId : SessionId) (key : String)
  | fullRereadRequired (sessionId : SessionId) (key : String) (baseSeq : Nat)
  | failed (error : ProjectionError)
  deriving DecidableEq, Repr

/-- `ProjectionDefinition` with its view. -/
structure ViewedDefinition extends ProjectionDefinition where
  view : Value → Except ProjectionError Value

structure ProjectionCheckpoint where
  sessionId : SessionId
  key : String
  stateVersion : Nat
  asOfSeq : Option Nat
  state : Value
  deriving DecidableEq, Repr

def ProjectionCheckpoint.next (c : ProjectionCheckpoint) : Nat := c.asOfSeq.elim 0 (· + 1)

structure ProjectionSnapshot where
  sessionId : SessionId
  key : String
  stateVersion : Nat
  asOfSeq : Option Nat
  state : Value
  view : Value
  deriving DecidableEq, Repr

/-- The registry and one session. `taken` lists the checkpoints taken. -/
structure SnapshotRegistry where
  header : SessionHeader
  log : List SessionEvent
  definitions : List ViewedDefinition
  closed : Bool
  attached : Bool
  projections : List AttachedProjection
  taken : List ProjectionCheckpoint

/-- Insert a state under its key, in key order; it replaces one that is
there. -/
def insertProjection (p : AttachedProjection) : List AttachedProjection → List AttachedProjection
  | [] => [p]
  | q :: rest =>
    if p.definition.key = q.definition.key then p :: rest
    else if p.definition.key < q.definition.key then p :: q :: rest
    else q :: insertProjection p rest

def insertViewed (d : ViewedDefinition) : List ViewedDefinition → List ViewedDefinition
  | [] => [d]
  | x :: rest => if d.key < x.key then d :: x :: rest else x :: insertViewed d rest

namespace SnapshotRegistry

def opened (header : SessionHeader) (log : List SessionEvent) : SnapshotRegistry :=
  { header, log, definitions := [], closed := false, attached := false, projections := []
    taken := [] }

variable (s : SnapshotRegistry)

def definition (key : String) : Except SnapshotError ViewedDefinition :=
  match s.definitions.find? (·.key == key) with
  | some d => .ok d
  | none => .error (.notRegistered key)

def projection (key : String) : Option AttachedProjection :=
  s.projections.find? (·.definition.key == key)

/-! ## Registration, attachment and events -/

def register (d : ViewedDefinition) : Except SnapshotError Unit × SnapshotRegistry :=
  if isBlank d.key then (.error (.failed .emptyKey), s)
  else if s.definitions.any (·.key == d.key) then
    (.error (.failed (.alreadyRegistered d.key)), s)
  else (.ok (), { s with definitions := insertViewed d s.definitions })

def passed (outcome : Option ProjectionError × List AttachedProjection) :
    Except SnapshotError Unit × SnapshotRegistry :=
  match outcome with
  | (none, projections) => (.ok (), { s with projections })
  | (some err, projections) => (.error (.failed err), { s with projections })

def replay : Except SnapshotError Unit × SnapshotRegistry :=
  s.passed (replayLocked s.projections s.log)

def attach (s : SnapshotRegistry) : Except SnapshotError Unit × SnapshotRegistry :=
  if s.closed then (.error (.failed .shutdown), s)
  else if s.attached then (.ok (), s)
  else
    match s.definitions.mapM (fun d => d.toProjectionDefinition.attach s.header) with
    | .error err => (.error (.failed err), s)
    | .ok projections => { s with projections, attached := true }.replay

def apply (e : SessionEvent) : Except SnapshotError Unit × SnapshotRegistry :=
  if s.attached then s.passed (applyEventLocked e s.projections)
  else (.error (.notAttached s.header.id "*"), s)

def append (e : SessionEvent) : SnapshotRegistry :=
  match Session.nextSeq s.log with
  | .ok n => if e.seq = n then { s with log := s.log ++ [e] } else s
  | .error _ => s

/-! ## Snapshots -/

def frameAsOf (frames : List StateFrame) : Option Nat → Option StateFrame
  | none => frames.getLast?
  | some seq => frames.reverse.find? fun frame => frame.asOfSeq.all (· ≤ seq)

def snapshotOf (key : String) (p : AttachedProjection) (frame : StateFrame) :
    Except SnapshotError ProjectionSnapshot := do
  let d ← s.definition key
  match d.view frame.state with
  | .error err => .error (.failed err)
  | .ok view =>
    .ok
      { sessionId := s.header.id, key, stateVersion := p.state.stateVersion
        asOfSeq := frame.asOfSeq, state := frame.state, view }

/-- `snapshot_as_of`; where no frame is found it panics. -/
def snapshotAsOf (key : String) (asOf : Option Nat) :
    Option (Except SnapshotError ProjectionSnapshot) :=
  if s.attached then
    match s.projection key with
    | none => some (.error (.notAttached s.header.id key))
    | some p =>
      match frameAsOf p.state.frames asOf with
      | none => none
      | some frame => some (s.snapshotOf key p frame)
  else some (.error (.notAttached s.header.id key))

def snapshot (key : String) : Option (Except SnapshotError ProjectionSnapshot) :=
  s.snapshotAsOf key none

def asOfSeq (key : String) (seq : Nat) : Option (Except SnapshotError ProjectionSnapshot) :=
  s.snapshotAsOf key (some seq)

/-! ## Checkpoints -/

def checkpoint (key : String) : Option (Except SnapshotError ProjectionCheckpoint) :=
  (s.snapshot key).map fun result => do
    let snapshot ← result
    .ok
      { sessionId := snapshot.sessionId, key := snapshot.key
        stateVersion := snapshot.stateVersion, asOfSeq := snapshot.asOfSeq
        state := snapshot.state }

def putState (d : ViewedDefinition) (lastSeq : Option Nat) (state : Value) : SnapshotRegistry :=
  { s with
    projections := insertProjection
      { definition := d.toProjectionDefinition
        state :=
          { stateVersion := d.stateVersion, state, lastSeq
            frames := [{ asOfSeq := lastSeq, state }], lastError := none } } s.projections }

def resetProjection (d : ViewedDefinition) : Except SnapshotError SnapshotRegistry :=
  match d.init s.header with
  | .error err => .error (.failed err)
  | .ok initial =>
    if s.attached then .ok (s.putState d none initial)
    else .error (.notAttached s.header.id d.key)

def restoreFloor (c : ProjectionCheckpoint) (floor : Nat) :
    Except SnapshotError Unit × SnapshotRegistry :=
  match s.definition c.key with
  | .error err => (.error err, s)
  | .ok d =>
    if c.sessionId ≠ s.header.id ∨ c.stateVersion ≠ d.stateVersion then
      if floor ≠ 0 then (.error (.fullRereadRequired s.header.id c.key floor), s)
      else
        match s.resetProjection d with
        | .error err => (.error err, s)
        | .ok s => s.replay
    else if c.next < floor then
      (.error (.fullRereadRequired s.header.id c.key floor), s)
    else if s.attached then (s.putState d c.asOfSeq c.state).replay
    else (.error (.notAttached s.header.id d.key), s)

def restore (c : ProjectionCheckpoint) : Except SnapshotError Unit × SnapshotRegistry :=
  s.restoreFloor c c.next

end SnapshotRegistry

/-! ## Runs -/

inductive SnapshotStep where
  | register (d : ViewedDefinition)
  | append (e : SessionEvent)
  | attach
  | apply (e : SessionEvent)
  | checkpoint (key : String)
  | restore (c : ProjectionCheckpoint)
  | restoreFloor (c : ProjectionCheckpoint) (floor : Nat)
  | shutdown
  /-- a new process -/
  | reopen

namespace SnapshotRegistry

def step (s : SnapshotRegistry) : SnapshotStep → SnapshotRegistry
  | .register d => (s.register d).2
  | .append e => s.append e
  | .attach => s.attach.2
  | .apply e => (s.apply e).2
  | .checkpoint key =>
    match s.checkpoint key with
    | some (.ok c) => { s with taken := s.taken ++ [c] }
    | _ => s
  | .restore c => (s.restore c).2
  | .restoreFloor c floor => (s.restoreFloor c floor).2
  | .shutdown => { s with closed := true }
  | .reopen => { s with closed := false, attached := false, projections := [] }

def run (s : SnapshotRegistry) (steps : List SnapshotStep) : SnapshotRegistry :=
  steps.foldl step s

end SnapshotRegistry

end Tessivum.Projection
