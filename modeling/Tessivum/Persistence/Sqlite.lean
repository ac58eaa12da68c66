/-
Tessivum.Persistence.Sqlite — the relational backend
(`src/persistence_sqlite.rs`).

The three tables are lists of rows with the columns, the primary keys
and the CHECK constraints of the schema; integer columns are signed, so
every number crosses `to_i64` and `from_i64`. A mutating operation is
one immediate transaction: it gives the next database or leaves the
database as it was. Deleting a session row cascades to its events and
its state. Opening a database, the migration of old schemas, `rollback`
and `list` are left out, and so are the texts SQLite itself reports.
-/
import Tessivum.Persistence.Codec

namespace Tessivum.Persistence

open Library Protocol Session

/-! ## Tables -/

structure SessionRow where
  id : String
  version : Int
  createdAt : Int
  cwd : Option String
  parentSessionId : Option String
  seedLength : Option Int
  originJson : Option String
  delegationDepth : Option Int
  agentMode : Option String
  deriving DecidableEq, Repr

structure EventRow where
  sessionId : String
  seq : Int
  eventType : String
  time : Int
  dataJson : String
  ignorable : Option Int
  sourceEventSeqsJson : Option String
  surfaceOpJson : Option String
  deriving DecidableEq, Repr

structure StateRow where
  sessionId : String
  version : Int
  revision : Int
  incarnation : Int
  nextSeq : Int
  deriving DecidableEq, Repr

structure Database where
  sessions : List SessionRow
  events : List EventRow
  states : List StateRow
  deriving DecidableEq, Repr

namespace Sqlite

def storageVersion : Int := 1

def empty : Database := { sessions := [], events := [], states := [] }

/-- `sqlite_error` for a broken constraint. -/
def constraintError (operation : String) : SessionError :=
  persistenceError operation "constraint failed"

/-! ## Numbers -/

/-- `to_i64`. -/
def toI64 (value : Nat) (field : String) : Except SessionError Int :=
  if value < 2 ^ 63 then .ok value
  else .error (corrupt "integer exceeds SQLite range"
    (.object [("field", .string field), ("value", .ofNat value)]))

/-- `from_i64`. -/
def fromI64 (value : Int) (field : String) : Except SessionError Nat :=
  if 0 ≤ value then .ok value.toNat
  else .error (corrupt "SQLite integer is negative"
    (.object [("field", .string field), ("value", .number (.negInt value))]))

/-- `from_i64` inside a row closure: the failure becomes a failed row
read. -/
def columnI64 (operation : String) (value : Int) (field : String) : Except SessionError Nat :=
  match fromI64 value field with
  | .ok n => .ok n
  | .error _ => .error (persistenceError operation
      "Conversion error from type Text at index: 0, SESSION_LOG_CORRUPT: SQLite integer is negative")

def toI64Opt (value : Option Nat) (field : String) : Except SessionError (Option Int) :=
  match value with
  | none => .ok none
  | some value => do
    let n ← toI64 value field
    .ok (some n)

def columnI64Opt (operation : String) (value : Option Int) (field : String) :
    Except SessionError (Option Nat) :=
  match value with
  | none => .ok none
  | some value => do
    let n ← columnI64 operation value field
    .ok (some n)

/-! ## Inserting -/

variable (C : Codec)

def insertHeader (db : Database) (header : SessionHeader) : Except SessionError Database := do
  let version ← toI64 header.version "header version"
  let createdAt ← toI64 header.createdAt "header creation time"
  let seedLength ← toI64Opt header.seedLength "header seed length"
  let delegationDepth ← toI64Opt header.delegationDepth "header delegation depth"
  failIf (∃ row ∈ db.sessions, row.id = header.id.asStr)
    (constraintError "insert session header")
  .ok { db with sessions := db.sessions ++
    [{ id := header.id.asStr, version, createdAt, cwd := header.cwd
       parentSessionId := header.parentSession.map SessionId.asStr, seedLength
       originJson := header.origin.map C.originToText, delegationDepth
       agentMode := header.agentMode.map AgentModeId.asStr }] }

def eventRowAllowed (row : EventRow) : Bool :=
  0 ≤ row.seq && 0 ≤ row.time && (row.ignorable == none || row.ignorable == some 1)

def insertEvent (db : Database) (id : SessionId) (e : SessionEvent) :
    Except SessionError Database := do
  let seq ← toI64 e.seq "event sequence"
  let time ← toI64 e.time "event time"
  let row : EventRow :=
    { sessionId := id.asStr, seq, eventType := e.eventType, time
      dataJson := C.valueToText e.data
      ignorable := e.ignorable.map fun value => if value then 1 else 0
      sourceEventSeqsJson := e.sourceEventSeqs.map C.seqsToText
      surfaceOpJson := e.surfaceOp.map C.surfaceOpToText }
  failIf (¬ (∃ row ∈ db.sessions, row.id = id.asStr) ∨ eventRowAllowed row = false
      ∨ ∃ old ∈ db.events, old.sessionId = row.sessionId ∧ old.seq = row.seq)
    (constraintError "insert event")
  .ok { db with events := db.events ++ [row] }

variable (db : Database)

/-- The initial `persistence_state` row of a session. -/
def insertState (id : SessionId) (nextSeq : Int) (operation : String) :
    Except SessionError Database := do
  failIf (¬ (∃ row ∈ db.sessions, row.id = id.asStr) ∨ nextSeq < 0
      ∨ ∃ old ∈ db.states, old.sessionId = id.asStr)
    (constraintError operation)
  .ok { db with states := db.states ++
    [{ sessionId := id.asStr, version := storageVersion, revision := nextSeq, incarnation := 1
       nextSeq }] }

def advanceState (id : SessionId) (nextSeq : Int) : Database :=
  { db with states := db.states.map fun row =>
    if row.sessionId = id.asStr then { row with nextSeq, revision := row.revision + 1 } else row }

/-! ## Reading -/

/-- `query_row` with a key. -/
def sessionRow (id : SessionId) : Option SessionRow :=
  (db.sessions.filter fun row => row.id = id.asStr).head?

def stateRow (id : SessionId) : Option StateRow :=
  (db.states.filter fun row => row.sessionId = id.asStr).head?

/-- `SELECT … FROM events WHERE session_id = ?1 ORDER BY seq`. -/
def eventRows (id : SessionId) : List EventRow :=
  (db.events.filter fun row => row.sessionId = id.asStr).mergeSort fun a b => a.seq ≤ b.seq

/-- A column that `serde_json` or a constructor has to read, with the
error a failed conversion of the row reports. -/
def textColumn {α β : Type} (decode : β → Except String α) (value : Option β)
    (err : String → SessionError) : Except SessionError (Option α) :=
  match value with
  | none => .ok none
  | some text =>
    match decode text with
    | .ok a => .ok (some a)
    | .error reason => .error (err reason)

/-- `decode_header`. A failed conversion is a failed row read. -/
def decodeHeader (row : SessionRow) : Except SessionError SessionHeader := do
  let operation := "read session header"
  let conversion (reason : String) := persistenceError operation
    ("Conversion error from type Text at index: 0, " ++ reason)
  let version ← columnI64 operation row.version "header version"
  let createdAt ← columnI64 operation row.createdAt "header creation time"
  let seedLength ← columnI64Opt operation row.seedLength "header seed length"
  let origin ← textColumn C.originFromText row.originJson conversion
  let delegationDepth ← columnI64Opt operation row.delegationDepth "header delegation depth"
  let agentMode ← textColumn (fun text => (AgentModeId.new text).mapError TessivumError.display)
    row.agentMode conversion
  .ok { version, id := ⟨row.id⟩, createdAt, cwd := row.cwd
        parentSession := row.parentSessionId.map SessionId.mk, seedLength, origin
        delegationDepth, agentMode }

def corruptColumn (message reason : String) : SessionError :=
  corrupt message (.object [("error", .string reason)])

def decodeEvent (row : EventRow) : Except SessionError SessionEvent := do
  let seq ← fromI64 row.seq "event sequence"
  let time ← fromI64 row.time "event time"
  let data ← (C.valueFromText row.dataJson).mapError (corruptColumn "decode event data")
  let sourceEventSeqs ← textColumn C.seqsFromText row.sourceEventSeqsJson
    (corruptColumn "decode event sources")
  let surfaceOp ← textColumn C.surfaceOpFromText row.surfaceOpJson
    (corruptColumn "decode event surface")
  liftProtocol (migrateLegacySelection C
    { eventType := row.eventType, seq, time, data
      ignorable := row.ignorable.map fun value => value != 0
      sourceEventSeqs, surfaceOp })

/-- The loop of `validate_committed`, giving the number after the last
event. -/
def validateContiguous (S : Serde) (id : SessionId) : Nat → List SessionEvent →
    Except SessionError Nat
  | expected, [] => .ok expected
  | expected, e :: rest => do
    liftProtocol (e.validate S)
    failIf (e.seq ≠ expected) (corrupt "committed event sequence is not contiguous"
      (.object [("actual", .ofNat e.seq), ("expected", .ofNat expected),
        ("id", .string id.asStr)]))
    failIf (¬ expected + 1 < u64Bound) .sequenceExhausted
    validateContiguous S id (expected + 1) rest

/-- `validate_committed`, with the state row's numbers already read. -/
def validateCommitted (S : Serde) (id : SessionId) (events : List SessionEvent)
    (version incarnation nextSeq : Nat) : Except SessionError Unit := do
  failIf (version ≠ 1 ∨ incarnation = 0)
    (corrupt "unsupported persistence state" (.object [("id", .string id.asStr)]))
  let expected ← validateContiguous S id 0 events
  failIf (nextSeq ≠ expected) (corrupt "persistence state does not match committed event sequence"
    (.object [("expected", .ofNat expected), ("id", .string id.asStr),
      ("nextSeq", .ofNat nextSeq)]))

/-- A stored session and the next sequence number of its state row. -/
structure StoredSession where
  header : SessionHeader
  events : List SessionEvent
  nextSeq : Nat
  deriving DecidableEq, Repr

def readSession (S : Serde) (db : Database) (id : SessionId) :
    Except SessionError (Option StoredSession) :=
  match sessionRow db id with
  | none => .ok none
  | some row => do
    let header ← decodeHeader C row
    failIf (header.id ≠ id) (corrupt "session header identity does not match its row"
      (.object [("id", .string id.asStr)]))
    validateHeader header
    match stateRow db id with
    | none => .error (corrupt "session has no persistence state"
        (.object [("id", .string id.asStr)]))
    | some state => do
      let operation := "read persistence state"
      let version ← columnI64 operation state.version "state version"
      let _ ← columnI64 operation state.revision "state revision"
      let incarnation ← columnI64 operation state.incarnation "state incarnation"
      let nextSeq ← columnI64 operation state.nextSeq "state next sequence"
      let events ← (eventRows db id).mapM (decodeEvent C)
      validateCommitted S id events version incarnation nextSeq
      .ok (some { header, events, nextSeq })

def requireSession (S : Serde) (db : Database) (id : SessionId) :
    Except SessionError StoredSession := do
  match ← readSession C S db id with
  | some session => .ok session
  | none => .error (.notFound id)

/-! ## Operations -/

def create (C : Codec) (db : Database) (header : SessionHeader) (token : Cancellation) :
    Except SessionError Database := do
  checkCancellation token 0
  validateHeader header
  failIf (sessionRow db header.id).isSome (.alreadyExists header.id)
  checkCancellation token 1
  let db ← insertHeader C db header
  insertState db header.id 0 "create persistence state"

def insertSeed (C : Codec) (id : SessionId) (token : Cancellation) : Nat → Database →
    List SessionEvent → Except SessionError Database
  | _, db, [] => .ok db
  | n, db, e :: rest => do
    checkCancellation token n
    let db ← insertEvent C db id e
    insertSeed C id token (n + 1) db rest

def createSeeded (S : Serde) (db : Database) (header : SessionHeader) (events : List SessionEvent)
    (token : Cancellation) : Except SessionError Database := do
  checkCancellation token 0
  validateHeader header
  Memory.checkSeed S 0 events
  failIf (sessionRow db header.id).isSome (.alreadyExists header.id)
  checkCancellation token 1
  let db ← insertHeader C db header
  let nextSeq ← toI64 events.length "seed length"
  let db ← insertState db header.id nextSeq "create seeded persistence state"
  let db ← insertSeed C header.id token 2 db events
  checkCancellation token (2 + events.length)
  .ok db

def append (S : Serde) (db : Database) (id : SessionId) (e : SessionEvent) (token : Cancellation) :
    Except SessionError Database := do
  checkCancellation token 0
  liftProtocol (e.validate S)
  let session ← requireSession C S db id
  failIf (e.seq ≠ session.nextSeq) (.sequenceGap session.nextSeq e.seq)
  failIf (¬ session.nextSeq + 1 < u64Bound) .sequenceExhausted
  checkCancellation token 1
  let db ← insertEvent C db id e
  let nextSeq ← toI64 (session.nextSeq + 1) "next sequence"
  .ok (advanceState db id nextSeq)

def load (S : Serde) (db : Database) (id : SessionId) (token : Cancellation) :
    Except SessionError (Option SessionHeader) := do
  checkCancellation token 0
  let session ← readSession C S db id
  .ok (session.map StoredSession.header)

/-- `SqliteSessionPersistence::inspect`: the next number is the stored
one. -/
def inspect (S : Serde) (db : Database) (id : SessionId) (token : Cancellation) :
    Except SessionError (Option SessionInspection) := do
  checkCancellation token 0
  let session ← readSession C S db id
  .ok (session.map fun session =>
    { header := session.header, eventCount := session.events.length, nextSeq := session.nextSeq })

def readFrom (S : Serde) (db : Database) (id : SessionId) (fromSeq : Nat) (token : Cancellation) :
    Except SessionError (List SessionEvent) := do
  checkCancellation token 0
  let session ← requireSession C S db id
  .ok (session.events.filter fun e => fromSeq ≤ e.seq)

/-- `SqliteSessionPersistence::delete`: the row goes, and the rows that
refer to it. -/
def delete (id : SessionId) (token : Cancellation) : Except SessionError Database := do
  checkCancellation token 0
  checkCancellation token 1
  failIf (¬ ∃ row ∈ db.sessions, row.id = id.asStr) (.notFound id)
  .ok { sessions := db.sessions.filter fun row => row.id ≠ id.asStr
        events := db.events.filter fun row => row.sessionId ≠ id.asStr
        states := db.states.filter fun row => row.sessionId ≠ id.asStr }

end Sqlite

/-- `SqliteSessionPersistence`. -/
def sqlitePersistence (C : Codec) (S : Serde) : Persistence Database where
  create db header token := orUnchanged db (Sqlite.create C db header token)
  createSeeded db header events token :=
    orUnchanged db (Sqlite.createSeeded C S db header events token)
  append db id e token := orUnchanged db (Sqlite.append C S db id e token)
  load := Sqlite.load C S
  inspect := Sqlite.inspect C S
  readFrom := Sqlite.readFrom C S
  delete db id token := orUnchanged db (Sqlite.delete db id token)

end Tessivum.Persistence
