/-
Tessivum.Goal.Change — goals, their revisions and the durable `goal/change`
record (`src/goal.rs`).

A goal is kept as whole snapshots. A snapshot is named by its id and its
revision (`GoalRef`), and each change writes the complete next snapshot into
the session log, with the round counter and the times of the goal. A clear
writes only the reference it cleared.
-/
import Tessivum.Protocol.Wire
import Tessivum.Session.State

namespace Tessivum.Goal

open Library Protocol Session

/-- Failures of the goal ledger and of the goal service. -/
inductive GoalError where
  | invalid (reason : String)
  | alreadyExists
  | notFound (id : String)
  | stale
  | tombstoned
  | invalidTransition
  | inactive
  | invalidRound
  | roundCap
  | notLive
  | cancelled
  | session (error : SessionError)
  deriving DecidableEq, Repr

/-! ## References -/

/-- The optimistic-concurrency identity of one versioned goal. -/
structure GoalRef where
  id : String
  revision : Nat
  deriving DecidableEq, Repr

def GoalRef.validate (ref : GoalRef) : Except GoalError Unit := do
  failIf (isBlank ref.id ∨ ref.id.utf8ByteSize > 256)
    (.invalid "goal id must be 1 through 256 non-whitespace bytes")
  failIf (ref.revision = 0) (.invalid "goal revision must be positive")

/-- `next_ref`: the next revision, if a `u64` holds it. -/
def nextRef (ref : GoalRef) : Except GoalError GoalRef :=
  if ref.revision + 1 < u64Bound then .ok { ref with revision := ref.revision + 1 }
  else .error (.invalid "goal revision overflow")

/-! ## Snapshots -/

/-- The portable lifecycle of a goal. -/
inductive GoalPhase where
  | active | paused | blocked | complete
  deriving DecidableEq, Repr

/-- `GoalPhase::permits`: nothing leaves the complete phase. -/
def GoalPhase.permits (current next : GoalPhase) : Bool :=
  current != .complete || next == .complete

/-- A stable policy reason kept whenever a goal becomes blocked. -/
structure GoalBlockReason where
  code : String
  message : String
  deriving DecidableEq, Repr

def kebabPart (part : List Char) : Bool :=
  !part.isEmpty && part.all fun c => c.isLower || c.isDigit

def GoalBlockReason.validate (reason : GoalBlockReason) : Except GoalError Unit :=
  failIf (!(!reason.code.isEmpty && (reason.code.toList.splitOn '-').all kebabPart)
      ∨ isBlank reason.message)
    (.invalid "goal block reason requires a lower-kebab-case code and non-empty message")

def GoalBlockReason.normalized (reason : GoalBlockReason) : Except GoalError GoalBlockReason := do
  let trimmed := { reason with message := trim reason.message }
  trimmed.validate
  .ok trimmed

/-- A whole, revisioned goal snapshot. -/
structure GoalSnapshot where
  reference : GoalRef
  phase : GoalPhase
  title : String
  maxGoalRounds : Nat
  tombstone : Bool
  deriving DecidableEq, Repr

def defaultMaxGoalRounds : Nat := 256

def GoalSnapshot.validate (snapshot : GoalSnapshot) : Except GoalError Unit := do
  snapshot.reference.validate
  failIf (isBlank snapshot.title) (.invalid "goal title must be non-whitespace")
  failIf (snapshot.maxGoalRounds < 1 ∨ snapshot.maxGoalRounds > maxSafeInteger)
    (.invalid "goal round cap must be a positive safe integer")

/-- A goal that is neither tombstoned nor complete, the test of
`GoalService::create`. -/
def GoalSnapshot.isOpen (goal : GoalSnapshot) : Bool :=
  !goal.tombstone && goal.phase != .complete

/-- A blocked goal carries a reason and no other goal does. -/
def checkBlockedReason (phase : GoalPhase) (reason : Option GoalBlockReason) :
    Except GoalError Unit :=
  match phase, reason with
  | .blocked, some reason => reason.validate
  | .blocked, none => .error (.invalid "blocked goal lacks blockedReason")
  | _, some _ => .error (.invalid "non-blocked goal has blockedReason")
  | _, none => .ok ()

structure GoalSnapshotWire where
  id : String
  revision : Nat
  objective : String
  phase : GoalPhase
  blockedReason : Option GoalBlockReason
  maxGoalRounds : Nat
  deriving DecidableEq, Repr

def GoalSnapshotWire.fromSnapshot (snapshot : GoalSnapshot)
    (blockedReason : Option GoalBlockReason) : GoalSnapshotWire :=
  { id := snapshot.reference.id, revision := snapshot.reference.revision
    objective := snapshot.title, phase := snapshot.phase, blockedReason
    maxGoalRounds := snapshot.maxGoalRounds }

def GoalSnapshotWire.snapshot (wire : GoalSnapshotWire) :
    Except GoalError (GoalSnapshot × Option GoalBlockReason) := do
  checkBlockedReason wire.phase wire.blockedReason
  let snapshot : GoalSnapshot :=
    { reference := { id := wire.id, revision := wire.revision }, phase := wire.phase
      title := wire.objective, maxGoalRounds := wire.maxGoalRounds, tombstone := false }
  snapshot.validate
  .ok (snapshot, wire.blockedReason)

/-! ## Changes -/

inductive GoalOperation where
  | create | edit | pause | resume | complete | block | clear
  deriving DecidableEq, Repr

/-- The times of a goal and the number of rounds it has started. -/
structure GoalTimes where
  createdAt : Nat
  updatedAt : Nat
  roundsStarted : Nat
  deriving DecidableEq, Repr

/-- The durable, audit-visible whole change event. -/
structure GoalChange where
  kind : String
  version : Nat
  operation : GoalOperation
  goal : Option GoalSnapshotWire
  roundsStarted : Option Nat
  createdAt : Option Nat
  updatedAt : Option Nat
  cleared : Option GoalRef
  clearedAt : Option Nat
  deriving DecidableEq, Repr

def GoalChange.snapshot (operation : GoalOperation) (snapshot : GoalSnapshot) (times : GoalTimes)
    (blockedReason : Option GoalBlockReason) : GoalChange :=
  { kind := "goal/change", version := 1, operation
    goal := some (.fromSnapshot snapshot blockedReason)
    roundsStarted := some times.roundsStarted, createdAt := some times.createdAt
    updatedAt := some times.updatedAt, cleared := none, clearedAt := none }

def GoalChange.clear (cleared : GoalRef) (clearedAt : Nat) : GoalChange :=
  { kind := "goal/change", version := 1, operation := .clear, goal := none
    roundsStarted := none, createdAt := none, updatedAt := none, cleared := some cleared
    clearedAt := some clearedAt }

/-- The clear half of `GoalChange::validate_shape`. -/
def GoalChange.validateClearShape (change : GoalChange) : Except GoalError Unit :=
  match change.cleared with
  | none => .error (.invalid "durable goal clear lacks ref")
  | some cleared => do
    failIf (change.goal.isSome ∨ change.roundsStarted.isSome ∨ change.createdAt.isSome
        ∨ change.updatedAt.isSome ∨ change.clearedAt.isNone
        ∨ change.clearedAt.any fun time => time > maxSafeInteger)
      (.invalid "durable goal clear payload is invalid")
    cleared.validate

/-- The half of `GoalChange::validate_shape` for the other operations. -/
def GoalChange.validateSnapshotShape (change : GoalChange) : Except GoalError Unit :=
  match change.roundsStarted, change.createdAt, change.updatedAt with
  | some roundsStarted, some createdAt, some updatedAt => do
    failIf (change.goal.isNone ∨ change.cleared.isSome ∨ change.clearedAt.isSome
        ∨ roundsStarted > maxSafeInteger ∨ createdAt > maxSafeInteger
        ∨ updatedAt > maxSafeInteger ∨ updatedAt < createdAt)
      (.invalid "durable goal change payload is invalid")
    match change.goal with
    | some goal => checkBlockedReason goal.phase goal.blockedReason
    | none => .ok ()
  | _, _, _ => .error (.invalid "durable goal change lacks counters or timestamps")

def GoalChange.validateShape (change : GoalChange) : Except GoalError Unit := do
  failIf (change.kind ≠ "goal/change" ∨ change.version ≠ 1)
    (.invalid "durable goal/change payload is invalid")
  if change.operation = .clear then change.validateClearShape else change.validateSnapshotShape

/-! ## JSON form -/

namespace Wire

open Protocol.Wire

def phaseName : GoalPhase → String
  | .active => "active"
  | .paused => "paused"
  | .blocked => "blocked"
  | .complete => "complete"

def phaseFromValue : Value → Option GoalPhase
  | .string "active" => some .active
  | .string "paused" => some .paused
  | .string "blocked" => some .blocked
  | .string "complete" => some .complete
  | _ => none

def operationName : GoalOperation → String
  | .create => "create"
  | .edit => "edit"
  | .pause => "pause"
  | .resume => "resume"
  | .complete => "complete"
  | .block => "block"
  | .clear => "clear"

def operationFromValue : Value → Option GoalOperation
  | .string "create" => some .create
  | .string "edit" => some .edit
  | .string "pause" => some .pause
  | .string "resume" => some .resume
  | .string "complete" => some .complete
  | .string "block" => some .block
  | .string "clear" => some .clear
  | _ => none

/-- The version field is a `u8`. -/
def versionFromValue (v : Value) : Option Nat := v.asU64.filter (· < 256)

def refToValue (ref : GoalRef) : Value :=
  .object [("id", .string ref.id), ("revision", .ofNat ref.revision)]

def refFromValue : Value → Option GoalRef
  | .object fields => do
    onlyFields fields ["id", "revision"]
    return { id := ← field fields "id" Value.asStr
             revision := ← field fields "revision" Value.asU64 }
  | _ => none

def reasonToValue (reason : GoalBlockReason) : Value :=
  .object [("code", .string reason.code), ("message", .string reason.message)]

def reasonFromValue : Value → Option GoalBlockReason
  | .object fields => do
    onlyFields fields ["code", "message"]
    return { code := ← field fields "code" Value.asStr
             message := ← field fields "message" Value.asStr }
  | _ => none

def goalToValue (goal : GoalSnapshotWire) : Value :=
  .object (skipNone "blockedReason" reasonToValue goal.blockedReason
    ++ [("id", .string goal.id), ("maxGoalRounds", .ofNat goal.maxGoalRounds),
      ("objective", .string goal.objective), ("phase", .string (phaseName goal.phase)),
      ("revision", .ofNat goal.revision)])

def goalFromValue : Value → Option GoalSnapshotWire
  | .object fields => do
    onlyFields fields
      ["id", "revision", "objective", "phase", "blockedReason", "maxGoalRounds"]
    return { id := ← field fields "id" Value.asStr
             revision := ← field fields "revision" Value.asU64
             objective := ← field fields "objective" Value.asStr
             phase := ← field fields "phase" phaseFromValue
             blockedReason := ← optField fields "blockedReason" reasonFromValue
             maxGoalRounds := ← field fields "maxGoalRounds" Value.asU64 }
  | _ => none

def changeToValue (change : GoalChange) : Value :=
  .object (skipNone "cleared" refToValue change.cleared
    ++ skipNone "clearedAt" .ofNat change.clearedAt
    ++ skipNone "createdAt" .ofNat change.createdAt
    ++ skipNone "goal" goalToValue change.goal
    ++ [("kind", .string change.kind), ("operation", .string (operationName change.operation))]
    ++ skipNone "roundsStarted" .ofNat change.roundsStarted
    ++ skipNone "updatedAt" .ofNat change.updatedAt
    ++ [("version", .ofNat change.version)])

def changeFromValue : Value → Option GoalChange
  | .object fields => do
    onlyFields fields ["kind", "version", "operation", "goal", "roundsStarted", "createdAt",
      "updatedAt", "cleared", "clearedAt"]
    return { kind := ← field fields "kind" Value.asStr
             version := ← field fields "version" versionFromValue
             operation := ← field fields "operation" operationFromValue
             goal := ← optField fields "goal" goalFromValue
             roundsStarted := ← optField fields "roundsStarted" Value.asU64
             createdAt := ← optField fields "createdAt" Value.asU64
             updatedAt := ← optField fields "updatedAt" Value.asU64
             cleared := ← optField fields "cleared" refFromValue
             clearedAt := ← optField fields "clearedAt" Value.asU64 }
  | _ => none

/-! ### Round trip -/

theorem phaseFromValue_phaseName (phase : GoalPhase) :
    phaseFromValue (.string (phaseName phase)) = some phase := by
  cases phase <;> rfl

theorem operationFromValue_operationName (operation : GoalOperation) :
    operationFromValue (.string (operationName operation)) = some operation := by
  cases operation <;> rfl

theorem refFromValue_refToValue (ref : GoalRef) : refFromValue (refToValue ref) = some ref := by
  simp [refToValue, refFromValue, field, onlyFields, List.lookup]

theorem reasonFromValue_reasonToValue (reason : GoalBlockReason) :
    reasonFromValue (reasonToValue reason) = some reason := by
  simp [reasonToValue, reasonFromValue, field, onlyFields, List.lookup]

theorem goalFromValue_goalToValue (goal : GoalSnapshotWire) :
    goalFromValue (goalToValue goal) = some goal := by
  obtain ⟨_, _, _, _, blockedReason, _⟩ := goal
  cases blockedReason with
  | none =>
    simp [goalToValue, goalFromValue, field, optField, onlyFields, skipNone, List.lookup,
      phaseFromValue_phaseName]
  | some reason =>
    have hreason := reasonFromValue_reasonToValue reason
    simp only [reasonToValue] at hreason
    simp [goalToValue, goalFromValue, field, optField, onlyFields, skipNone, List.lookup,
      phaseFromValue_phaseName, reasonToValue, hreason]

theorem versionFromValue_one : versionFromValue (.number (.posInt 1)) = some 1 := rfl

theorem changeFromValue_snapshot (operation : GoalOperation) (snapshot : GoalSnapshot)
    (times : GoalTimes) (blockedReason : Option GoalBlockReason) :
    changeFromValue (changeToValue (.snapshot operation snapshot times blockedReason))
      = some (.snapshot operation snapshot times blockedReason) := by
  have hgoal := goalFromValue_goalToValue (.fromSnapshot snapshot blockedReason)
  obtain ⟨fields, hfields⟩ : ∃ fields,
      goalToValue (.fromSnapshot snapshot blockedReason) = .object fields := ⟨_, rfl⟩
  rw [hfields] at hgoal
  simp [GoalChange.snapshot, changeToValue, changeFromValue, field, optField, onlyFields,
    skipNone, List.lookup, operationFromValue_operationName, versionFromValue_one, hfields, hgoal,
    Value.ofNat, Value.asU64]

theorem changeFromValue_clear (cleared : GoalRef) (clearedAt : Nat) :
    changeFromValue (changeToValue (.clear cleared clearedAt))
      = some (.clear cleared clearedAt) := by
  have href := refFromValue_refToValue cleared
  obtain ⟨fields, hfields⟩ : ∃ fields, refToValue cleared = .object fields := ⟨_, rfl⟩
  rw [hfields] at href
  simp [GoalChange.clear, changeToValue, changeFromValue, field, optField, onlyFields,
    skipNone, List.lookup, operationFromValue_operationName, versionFromValue_one, hfields, href,
    Value.ofNat, Value.asU64]

end Wire

end Tessivum.Goal
