/-
Tessivum.Persistence.Jsonl — the file backend (`src/persistence_jsonl.rs`), in
both of its encodings.

A session is one file under the root directory, named by the hexadecimal text
of its id. The raw encoding is one JSON text per line; the compressed one is a
sequence of frames, each the checksum and the length of a compressed line
followed by the compressed bytes. The first record is the header with a `type`
of `session`, every later one an event.

The directory is the partial map from file names to contents. The gates that
serialise the operations of one session are left out; the directory listing and
the flush counters it reports are in `Tessivum.Persistence.Listing`.
-/
import Tessivum.Persistence.Codec

namespace Tessivum.Persistence

open Library Protocol Session

/-- The on-disk encoding used for newly created session logs. -/
inductive JsonlStorageFormat where
  | raw
  | zstd
  deriving DecidableEq, Repr

abbrev Files : Type := String → Option Bytes

def newline : UInt8 := 10

/-- `FRAME_HEADER_LEN`: a checksum and a length. -/
def frameHeaderLen : Nat := 8

/-! ## Names -/

def fileSuffix : JsonlStorageFormat → String
  | .raw => ".jsonl"
  | .zstd => ".jsonl.zst"

/-- `raw_path` and `compressed_path`, relative to the root. -/
def logName (format : JsonlStorageFormat) (id : SessionId) : String :=
  String.ofList ("session-".toList ++ hexUtf8 id.asStr ++ (fileSuffix format).toList)

/-- `existing_path`: a raw log wins over a compressed one. -/
def existingFormat (files : Files) (id : SessionId) : Option JsonlStorageFormat :=
  if (files (logName .raw id)).isSome then some .raw
  else if (files (logName .zstd id)).isSome then some .zstd
  else none

/-! ## Records -/

/-- The bytes `{"type":"session",`. -/
def headerOpening : Bytes := utf8 "\x7b\"type\":\"session\","

variable (C : Codec)

/-- The JSON text of the header record, without its newline. -/
def headerLine (header : SessionHeader) : Bytes :=
  headerOpening ++ (C.headerToString header).drop 1

def headerRecord (header : SessionHeader) : Bytes := headerLine C header ++ [newline]

def eventRecord (e : SessionEvent) : Bytes := C.eventToString e ++ [newline]

def encodeFrame (record : Bytes) : Except SessionError Bytes :=
  let compressed := C.encodeAll record
  if compressed.length < 2 ^ 32 then
    .ok (be32 (C.crc32 compressed).toNat ++ be32 compressed.length ++ compressed)
  else .error (persistenceError "encode compressed frame" "frame exceeds u32 length")

def encodeRecord (format : JsonlStorageFormat) (record : Bytes) : Except SessionError Bytes :=
  match format with
  | .raw => .ok record
  | .zstd => encodeFrame C record

/-! ## Reading -/

inductive SessionParseError where
  | corrupt (message : String)
  | protocol (error : TessivumError)
  deriving DecidableEq, Repr

/-- The loop of `parse_raw_records`, with the bytes since the last
newline. The rest after the last newline is a record if it is a complete
JSON text, and is dropped otherwise. -/
def parseRawRecords (C : Codec) : Bytes → Bytes → Except String (List Bytes)
  | record, [] => if (C.valueFromSlice record).isSome ∧ record ≠ [] then .ok [record] else .ok []
  | record, b :: rest =>
    if b ≠ newline then parseRawRecords C (record ++ [b]) rest
    else do
      failIf (record = []) "empty JSONL record in committed prefix"
      failIf (C.valueFromSlice record).isNone "malformed JSONL record in committed prefix"
      let records ← parseRawRecords C [] rest
      .ok (record :: records)

def frameRecord (compressed : Bytes) (checksum : Nat) : Except String Bytes := do
  failIf ((C.crc32 compressed).toNat ≠ checksum) "compressed frame checksum mismatch"
  let record ← (C.decodeAll compressed).mapError ("invalid compressed frame: " ++ ·)
  failIf (record.getLast? ≠ some newline ∨ newline ∈ record.dropLast)
    "compressed frame does not contain exactly one JSONL record"
  failIf (record.dropLast = [] ∨ (C.valueFromSlice record.dropLast).isNone)
    "malformed JSONL record in compressed frame"
  .ok record.dropLast

/-- The loop of `parse_zstd_records`: an incomplete frame ends it. -/
def parseZstdRecords (C : Codec) (bytes : Bytes) : Except String (List Bytes) :=
  if bytes.length < frameHeaderLen then .ok []
  else
    let body := bytes.drop frameHeaderLen
    let compressedLen := beWord (bytes.drop 4)
    if body.length < compressedLen then .ok []
    else do
      let record ← frameRecord C (body.take compressedLen) (beWord bytes)
      let records ← parseZstdRecords C (body.drop compressedLen)
      .ok (record :: records)
  termination_by bytes.length
  decreasing_by simp only [List.length_drop, frameHeaderLen] at *; omega

def parseRecords (format : JsonlStorageFormat) (bytes : Bytes) : Except String (List Bytes) :=
  match format with
  | .raw => parseRawRecords C [] bytes
  | .zstd => parseZstdRecords C bytes

/-- `parse_header`. The last arm is not reached: every record has been
read as JSON before. -/
def parseHeader (record : Bytes) : Except SessionParseError SessionHeader :=
  match C.valueFromSlice record with
  | some (.object fields) =>
    match fields.lookup "type" with
    | some (.string kind) =>
      if kind = "session" then
        match headerFromJsonValue C (.object (fields.filter fun f => f.1 ≠ "type")) with
        | .ok header => .ok header
        | .error err =>
          if err.code = "MODE_MIGRATION_REQUIRED" then .error (.protocol err)
          else .error (.corrupt ("invalid session header: " ++ err.display))
      else .error (.corrupt "first JSONL record must have type=session")
    | _ => .error (.corrupt "first JSONL record must have type=session")
  | some _ => .error (.corrupt "session header must be a JSON object")
  | none => .error (.corrupt "invalid session header")

/-- The display text of the two errors `next_seq` and the loop report. -/
def gapText (expected actual : Nat) : String :=
  "session event sequence is not contiguous: expected " ++ toString expected ++ ", got "
    ++ toString actual

def parseEvent (S : Serde) (events : List SessionEvent) (record : Bytes) :
    Except SessionParseError (List SessionEvent) := do
  let e ← (C.eventFromSlice record).mapError fun reason =>
    .corrupt ("invalid session event: " ++ reason)
  let e ← (migrateLegacySelection C e).mapError .protocol
  (e.validate S).mapError fun err => .corrupt err.display
  let expected ← (nextSeq events).mapError fun _ =>
    .corrupt "session event sequence space is exhausted"
  failIf (e.seq ≠ expected) (.corrupt (gapText expected e.seq))
  .ok (events ++ [e])

def sessionOfRecords (S : Serde) (expectedId : SessionId) :
    List Bytes → Except SessionParseError MemorySession
  | [] => .error (.corrupt "session log has no header record")
  | headerRecord :: eventRecords => do
    let header ← parseHeader C headerRecord
    failIf header.id.asStr.isEmpty (.corrupt "session header ID is empty")
    header.validate.mapError fun err => .corrupt err.display
    failIf (header.id ≠ expectedId)
      (.corrupt "session header ID does not match its log path")
    let events ← eventRecords.foldlM (parseEvent C S) []
    .ok { header, events }

def parseSession (S : Serde) (bytes : Bytes) (format : JsonlStorageFormat) (expectedId : SessionId)
    : Except SessionParseError MemorySession := do
  let records ← (parseRecords C format bytes).mapError .corrupt
  sessionOfRecords C S expectedId records

namespace Jsonl

/-- The backend: its codecs, its root directory and the encoding of new
logs. -/
structure Config where
  codec : Codec
  serde : Serde
  root : String
  format : JsonlStorageFormat

variable (F : Config)

def sessionParseError (name : String) : SessionParseError → SessionError
  | .corrupt message => corrupt message (.object [("path", .string (F.root ++ "/" ++ name))])
  | .protocol err => .protocol err

def readSession (files : Files) (id : SessionId) : Except SessionError (Option MemorySession) :=
  match existingFormat files id with
  | none => .ok none
  | some format =>
    match parseSession F.codec F.serde ((files (logName format id)).getD []) format id with
    | .ok session => .ok (some session)
    | .error err => .error (sessionParseError F (logName format id) err)

def requireSession (files : Files) (id : SessionId) : Except SessionError MemorySession := do
  match ← readSession F files id with
  | some session => .ok session
  | none => .error (.notFound id)

def writeNew (files : Files) (name : String) (bytes : Bytes) : Files :=
  Function.update files name (some bytes)

def create (files : Files) (header : SessionHeader) (token : Cancellation) :
    Except SessionError Files := do
  checkCancellation token 0
  validateHeader header
  checkCancellation token 1
  failIf (existingFormat files header.id).isSome (.alreadyExists header.id)
  let record ← encodeRecord F.codec F.format (headerRecord F.codec header)
  .ok (writeNew files (logName F.format header.id) record)

def encodeSeed (F : Config) (token : Cancellation) : Nat → List SessionEvent →
    Except SessionError Bytes
  | _, [] => .ok []
  | n, e :: rest => do
    checkCancellation token n
    let record ← encodeRecord F.codec F.format (eventRecord F.codec e)
    let records ← encodeSeed F token (n + 1) rest
    .ok (record ++ records)

def createSeeded (files : Files) (header : SessionHeader) (events : List SessionEvent)
    (token : Cancellation) : Except SessionError Files := do
  checkCancellation token 0
  validateHeader header
  Memory.checkSeed F.serde 0 events
  checkCancellation token 1
  failIf (existingFormat files header.id).isSome (.alreadyExists header.id)
  let record ← encodeRecord F.codec F.format (headerRecord F.codec header)
  let records ← encodeSeed F token 2 events
  .ok (writeNew files (logName F.format header.id) (record ++ records))

/-- `JsonlSessionPersistence::append`. The record goes to the end of the
file as it stands, whatever its last bytes are. -/
def append (files : Files) (id : SessionId) (e : SessionEvent) (token : Cancellation) :
    Except SessionError Files := do
  checkCancellation token 0
  liftProtocol (e.validate F.serde)
  checkCancellation token 1
  let session ← requireSession F files id
  checkSeq session.events e
  let format := (existingFormat files id).getD .raw
  let record ← encodeRecord F.codec format (eventRecord F.codec e)
  .ok (Function.update files (logName format id)
    (some ((files (logName format id)).getD [] ++ record)))

def load (files : Files) (id : SessionId) (token : Cancellation) :
    Except SessionError (Option SessionHeader) := do
  checkCancellation token 0
  let session ← readSession F files id
  .ok (session.map MemorySession.header)

def inspect (files : Files) (id : SessionId) (token : Cancellation) :
    Except SessionError (Option SessionInspection) := do
  checkCancellation token 0
  match ← readSession F files id with
  | none => .ok none
  | some session => do
    let inspection ← Memory.inspectMemorySession session
    .ok (some inspection)

def readFrom (files : Files) (id : SessionId) (fromSeq : Nat) (token : Cancellation) :
    Except SessionError (List SessionEvent) := do
  checkCancellation token 0
  let session ← requireSession F files id
  .ok (session.events.filter fun e => fromSeq ≤ e.seq)

/-- `JsonlSessionPersistence::delete`: both encodings go. -/
def delete (files : Files) (id : SessionId) (token : Cancellation) :
    Except SessionError Files := do
  checkCancellation token 0
  checkCancellation token 1
  failIf (existingFormat files id).isNone (.notFound id)
  .ok (Function.update (Function.update files (logName .raw id) none) (logName .zstd id) none)

end Jsonl

/-- `JsonlSessionPersistence`. -/
def jsonlPersistence (F : Jsonl.Config) : Persistence Files where
  create files header token := orUnchanged files (Jsonl.create F files header token)
  createSeeded files header events token :=
    orUnchanged files (Jsonl.createSeeded F files header events token)
  append files id e token := orUnchanged files (Jsonl.append F files id e token)
  load := Jsonl.load F
  inspect := Jsonl.inspect F
  readFrom := Jsonl.readFrom F
  delete files id token := orUnchanged files (Jsonl.delete files id token)

end Tessivum.Persistence
