/-
Tessivum.Schedule.Owner — the schedule tools and the drive passes of one
session (`src/schedule.rs`).

Tools and drive passes run under one gate. A pass that got as far as a decision
holds the gate while it makes its writes. They are its own steps here, since
other writers append to the session in between and every write can fail.

`delivered` records the reminders the owner has put into the inbox, with the
place of the inbox event in the log and the clock reading the pass decided on.

The clock is read in milliseconds since 1970 and may be anything that can be
written as text. What `at` arguments mean is a parameter, see
`Tessivum.Schedule.Ledger`.
-/
import Tessivum.Agent.Inbox
import Tessivum.Schedule.Ledger
import Tessivum.Session.State

namespace Tessivum.Schedule

open Library Protocol Session Agent

/-! ## Arguments of `schedule_create` -/

/-- The selector of a creation. -/
inductive Selector where
  | after (seconds : Int)
  | every (seconds : Int)
  | at (value : Value)

def countSome (after every : Option Int) (atValue : Option Value) : Nat :=
  after.isSome.toNat + every.isSome.toNat + atValue.isSome.toNat

/-- The checks `Create::run` makes on its arguments before it takes the
gate. -/
def checkArguments (arguments : Value) : Except Value (String × Selector) := do
  let prompt := ((arguments.get "prompt").bind Value.asStr).getD ""
  let after := (arguments.get "after_seconds").bind safeInteger
  let every := (arguments.get "every_seconds").bind safeInteger
  let atValue := arguments.get "at"
  failIf (countSome after every atValue ≠ 1)
    (toolError "invalid_selector"
      "schedule_create accepts exactly one of after_seconds, at, or every_seconds.")
  failIf (isBlank prompt) (toolError "invalid_prompt" "prompt must be non-empty after trimming.")
  failIf ((arguments.get "after_seconds").isSome ∧ after.isNone)
    (toolError "invalid_rule" "after_seconds must be a positive safe integer.")
  failIf ((arguments.get "every_seconds").isSome ∧ every.isNone)
    (toolError "invalid_rule" "every_seconds must be a safe integer.")
  match after, every, atValue with
  | some seconds, _, _ => .ok (prompt, .after seconds)
  | none, some seconds, _ => .ok (prompt, .every seconds)
  | none, none, some value => .ok (prompt, .at value)
  | none, none, none => .error .null

def buildRecord (instantOf : Value → Except Value Int) (id prompt : String) (selector : Selector)
    (now : Int) : Except Value Record :=
  match selector with
  | .after seconds => do
    failIf (seconds ≤ 0 ∨ (maxSafeInteger : Int) < seconds)
      (toolError "invalid_rule" "after_seconds must be a positive safe integer.")
    Record.after id (trim prompt) seconds now
  | .every seconds => do
    failIf (seconds ≤ 0 ∨ (maxSafeInteger : Int) < seconds)
      (toolError "invalid_rule" "every_seconds must be a safe integer.")
    failIf (seconds < minEverySeconds)
      (toolError "frequency_too_high" "every_seconds must be at least 300.")
    Record.every id (trim prompt) seconds now
  | .at value => Record.at instantOf id (trim prompt) value now

/-- What `Create::run` decides: the change it will append. -/
def planCreate (instantOf : Value → Except Value Int) (seedLength : Nat) (log : List SessionEvent)
    (arguments : Value) (now : Int) : Except Value Value := do
  let (prompt, selector) ← checkArguments arguments
  let folded ← okOr (fold seedLength log)
    (toolError "corrupt_schedule_log" "The session schedule log is corrupt.")
  let record ← buildRecord instantOf folded.allocateId prompt selector now
  .ok (createChange record)

/-- What `Delete::run` decides. An unknown id needs no change. -/
def planDelete (seedLength : Nat) (log : List SessionEvent) (id : String) :
    Except Value (Option Value) := do
  failIf (!isTrimmed id)
    (toolError "invalid_rule"
      "schedule_delete id must be non-empty without surrounding whitespace.")
  let folded ← okOr (fold seedLength log)
    (toolError "corrupt_schedule_log" "The session schedule log is corrupt.")
  .ok (if folded.active.any (·.id == id) then some (deleteChange id) else none)

/-! ## Drive passes -/

/-- One reminder of a pass: the schedule and the occurrence it is for. -/
structure Reminder where
  id : String
  kind : Kind
  occurrence : Int
  deriving DecidableEq, Repr

/-- What a drive pass decides to do: the text it enqueues, the reminders in
it, and the changes that accept them. -/
structure DrivePlan where
  text : String
  reminders : List Reminder
  changes : List Value
  deriving DecidableEq, Repr

/-- The plan for a one-shot schedule (`dispatch`). -/
def oneShotPlan (r : Record) : DrivePlan :=
  { text := oneShotText r
    reminders := [{ id := r.id, kind := r.kind, occurrence := r.scheduledMs }]
    changes := [dispatchChange r.id] }

/-- A record of a batch with the occurrence its reminder is for. -/
def batchEntry (now : Int) (r : Record) : Option (Record × Int × String) := do
  let occurrence ← everyOccurrenceMs r now
  let text ← formatInstant occurrence
  some (r, occurrence, text)

/-- The plan for a batch of `every` schedules. -/
def batchPlan (now : Int) (records : List Record) : Option DrivePlan := do
  let acceptedAt ← formatInstant now
  let entries ← records.mapM (batchEntry now)
  some
    { text := batchText (entries.map fun entry => (entry.1, entry.2.2))
      reminders := entries.map fun entry =>
        { id := entry.1.id, kind := entry.1.kind, occurrence := entry.2.1 }
      changes := records.map fun r => acceptChange r.id acceptedAt }

/-- What a drive pass decides, after its flush. The source expects the
occurrences of a batch to be there. -/
def planDrive (seedLength : Nat) (log : List SessionEvent) (now : Int) : Option DrivePlan := do
  let folded ← fold seedLength log
  match folded.decide now with
  | .wait _ => none
  | .oneShot record => some (oneShotPlan record)
  | .every records => batchPlan now records

/-! ## The session -/

/-- What the holder of the gate still has to do. -/
inductive Pass where
  | change (data : Value)
  | enqueue (now : Int) (message : Message) (reminders : List Reminder) (changes : List Value)
  | accept (changes : List Value)
  | dispatch (changes : List Value)
  deriving DecidableEq, Repr

/-- A reminder in the inbox: where its event stands in the log, and when
the pass that enqueued it read the clock. -/
structure Delivery where
  reminder : Reminder
  now : Int
  position : Nat
  deriving DecidableEq, Repr

/-- A session with its schedule owner. -/
structure ScheduleSystem where
  seedLength : Nat
  log : List SessionEvent
  pass : Option Pass
  delivered : List Delivery
  deriving DecidableEq, Repr

/-- A session as it is created: a seed and nothing of its own. -/
def ScheduleSystem.start (seed : List SessionEvent) : ScheduleSystem :=
  { seedLength := seed.length, log := seed, pass := none, delivered := [] }

/-- One step of the session. `append` and `followup` are the next write of
the gate's holder and the delivery to the agent, with how they end. -/
inductive ScheduleStep where
  | create (arguments : Value) (now : Instant)
  | list
  | delete (id : String)
  | drive (now : Instant) (message : MessageId)
  | append (succeeds : Bool) (time : Nat)
  | followup (succeeds : Bool)
  | other (e : SessionEvent)
  | restart

/-- `append_next`: the log with one event more, unless the write fails. -/
def appendNext (log : List SessionEvent) (succeeds : Bool) (build : Nat → SessionEvent) :
    Option (List SessionEvent) :=
  match succeeds, nextSeq log with
  | true, .ok seq => some (log ++ [build seq])
  | _, _ => none

def changeEvent (data : Value) (time seq : Nat) : SessionEvent :=
  SessionEvent.plain scheduleChange seq time data

section

variable (S : Serde) (instantOf : Value → Except Value Int)

def ScheduleSystem.append (s : ScheduleSystem) (succeeds : Bool) (time : Nat) : ScheduleSystem :=
  match s.pass with
  | some (.change data) =>
    match appendNext s.log succeeds (changeEvent data time) with
    | some log => { s with log, pass := none }
    | none => { s with pass := none }
  | some (.enqueue now message reminders changes) =>
    match appendNext s.log succeeds (inboxEnqueued S .followup message time) with
    | some log =>
      { s with
        log, pass := some (.accept changes)
        delivered := s.delivered ++ reminders.map fun reminder =>
          { reminder, now, position := s.log.length } }
    | none => { s with pass := none }
  | some (.dispatch (data :: rest)) =>
    match appendNext s.log succeeds (changeEvent data time) with
    | some log => { s with log, pass := if rest.isEmpty then none else some (.dispatch rest) }
    | none => { s with pass := none }
  | some (.dispatch []) => { s with pass := none }
  | some (.accept _) => s
  | none => s

/-- One step of the session. The tools and the drive pass wait for the
gate. -/
def ScheduleSystem.step (s : ScheduleSystem) : ScheduleStep → ScheduleSystem
  | .create arguments now =>
    if s.pass.isSome then s
    else
      match planCreate instantOf s.seedLength s.log arguments now.1 with
      | .ok data => { s with pass := some (.change data) }
      | .error _ => s
  | .list => s
  | .delete id =>
    if s.pass.isSome then s
    else
      match planDelete s.seedLength s.log id with
      | .ok (some data) => { s with pass := some (.change data) }
      | .ok none => s
      | .error _ => s
  | .drive now message =>
    if s.pass.isSome then s
    else
      match planDrive s.seedLength s.log now.1 with
      | some plan =>
        { s with pass := some (.enqueue now.1 (reminderMessage message plan.text)
            plan.reminders plan.changes) }
      | none => s
  | .append succeeds time => s.append S succeeds time
  | .followup succeeds =>
    match s.pass with
    | some (.accept changes) =>
      { s with pass := if succeeds then some (.dispatch changes) else none }
    | _ => s
  | .other e => if e.eventType = scheduleChange then s else { s with log := s.log ++ [e] }
  | .restart => { s with pass := none }

def ScheduleSystem.run (s : ScheduleSystem) (steps : List ScheduleStep) : ScheduleSystem :=
  steps.foldl (ScheduleSystem.step S instantOf) s

end

end Tessivum.Schedule
