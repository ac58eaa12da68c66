/-
Tessivum.Persistence.Agreement — the storage backends answer alike.

Four implementations of one contract: cloned vectors, newline-separated
JSON, checksummed frames and relational rows. Each of the last three
simulates the first, so that over every sequence of calls all four give
the same results: the same successes, the same errors in the same order,
the same headers, events, counts and next numbers.
-/
import Tessivum.Library.Machine
import Tessivum.Persistence.SqliteAgreement
import Tessivum.Protocol.Wire

namespace Tessivum.Persistence

open Library Protocol Session

/-! ## Empty backends -/

def Jsonl.emptyRoot : Files := fun _ => none

theorem Jsonl.mirrors_empty (F : Config) : Mirrors F Memory.empty emptyRoot :=
  ⟨fun _ _ h => by simp [Memory.empty] at h, fun _ _ => by simp [emptyRoot, logOf, Memory.empty]⟩

theorem Sqlite.mirrors_empty (C : Codec) (S : Serde) : Mirrors C S Memory.empty empty :=
  ⟨fun _ _ h => by simp [Memory.empty] at h, fun _ => .none⟩

/-! ## Whole runs -/

def storeResults {σ : Type} (P : Persistence σ) (fresh : σ) (ops : List StoreOp) :
    List StoreResult :=
  runOutputs (storeStep P) fresh ops

variable {ops : List StoreOp}

theorem jsonl_results_eq (F : Jsonl.Config) (hC : F.codec.KeepsFrames)
    (hops : ∀ op ∈ ops, op.Storable F.codec) :
    storeResults (memoryPersistence F.serde) Memory.empty ops
      = storeResults (jsonlPersistence F) Jsonl.emptyRoot ops := by
  refine runOutputs_eq_of_simulation (Jsonl.Mirrors F) ?_ ops _ _ hops
    (Jsonl.mirrors_empty F)
  intro sessions files op hop h
  exact jsonl_step_agrees hC h op hop

theorem sqlite_results_eq (C : Codec) (S : Serde) (hops : ∀ op ∈ ops, op.Storable C) :
    storeResults (memoryPersistence S) Memory.empty ops
      = storeResults (sqlitePersistence C S) Sqlite.empty ops := by
  refine runOutputs_eq_of_simulation (Sqlite.Mirrors C S) ?_ ops _ _ hops
    (Sqlite.mirrors_empty C S)
  intro sessions db op hop h
  exact sqlite_step_agrees h op hop

/-- All four backends answer every sequence of calls alike. -/
theorem backends_agree (C : Codec) (S : Serde) (rawRoot zstdRoot : String)
    (hC : C.KeepsFrames) (ops : List StoreOp) (hops : ∀ op ∈ ops, op.Storable C) :
    let memory := storeResults (memoryPersistence S) Memory.empty ops
    storeResults (jsonlPersistence { codec := C, serde := S, root := rawRoot, format := .raw })
        Jsonl.emptyRoot ops = memory
      ∧ storeResults (jsonlPersistence { codec := C, serde := S, root := zstdRoot, format := .zstd })
        Jsonl.emptyRoot ops = memory
      ∧ storeResults (sqlitePersistence C S) Sqlite.empty ops = memory :=
  ⟨(jsonl_results_eq _ hC hops).symm, (jsonl_results_eq _ hC hops).symm,
    (sqlite_results_eq C S hops).symm⟩

/-! ## A small codec

The texts `serde_json` gives for one header and one event, frames with
one stored block, and the checksum of `crc32fast`. -/

namespace Sample

def header : SessionHeader := .plain ⟨"s"⟩ 0

/-- The text of `header`. -/
def headerText : Bytes := utf8 "\x7b\"version\":0,\"id\":\"s\",\"createdAt\":0\x7d"

def headerRecordText : Bytes :=
  utf8 "\x7b\"type\":\"session\",\"version\":0,\"id\":\"s\",\"createdAt\":0\x7d"

def headerFields : List (String × Value) :=
  [("createdAt", .ofNat 0), ("id", .string "s"), ("version", .ofNat 0)]

def headerRecordFields : List (String × Value) :=
  [("createdAt", .ofNat 0), ("id", .string "s"), ("type", .string "session"),
   ("version", .ofNat 0)]

def event : SessionEvent := .plain "turn/start" 0 0 .null

/-- The text of `event`. -/
def eventText : Bytes := utf8 "\x7b\"type\":\"turn/start\",\"seq\":0,\"time\":0,\"data\":null\x7d"

def eventFields : List (String × Value) :=
  [("data", .null), ("seq", .ofNat 0), ("time", .ofNat 0), ("type", .string "turn/start")]

/-- One bit of the reflected checksum with polynomial `EDB88320`. -/
def crcBit (crc : UInt32) : UInt32 :=
  if crc &&& 1 = 1 then (crc >>> 1) ^^^ 0xEDB88320 else crc >>> 1

def crcByte (crc : UInt32) (b : UInt8) : UInt32 := Nat.repeat crcBit 8 (crc ^^^ b.toUInt32)

/-- `crc32fast::hash`. -/
def crc32 (bytes : Bytes) : UInt32 := bytes.foldl crcByte 0xFFFFFFFF ^^^ 0xFFFFFFFF

/-- A compressed frame: the magic number, a header without a content
size, and one stored block. -/
def storedFrame (record : Bytes) : Bytes :=
  let block := record.length * 8 + 1
  [0x28, 0xB5, 0x2F, 0xFD, 0x00, 0x58, UInt8.ofNat block, UInt8.ofNat (block / 2 ^ 8),
    UInt8.ofNat (block / 2 ^ 16)] ++ record

def unknownText : String := "expected value at line 1 column 1"

def codec : Codec where
  headerToString h := if h = header then headerText else []
  eventToString e := if e = event then eventText else []
  valueFromSlice bytes :=
    if bytes = headerRecordText then some (.object headerRecordFields)
    else if bytes = eventText then some (.object eventFields)
    else none
  eventFromSlice bytes := if bytes = eventText then .ok event else .error unknownText
  headerWireFromValue v :=
    if v = .object headerFields then .ok { header, agentPreset := none } else .error unknownText
  valueToText v := if v = .null then "null" else ""
  valueFromText text := if text = "null" then .ok .null else .error unknownText
  seqsToText _ := ""
  seqsFromText _ := .error unknownText
  surfaceOpToText _ := ""
  surfaceOpFromText _ := .error unknownText
  originToText _ := ""
  originFromText _ := .error unknownText
  encodeAll := storedFrame
  decodeAll bytes := .ok (bytes.drop 9)
  crc32
  legacyModePath preset := preset
  debugForm text := "\"" ++ text ++ "\""

theorem codec_keepsFrames : codec.KeepsFrames := fun _ => rfl

theorem event_storable : Storable codec event where
  keeps :=
    { event := by decide
      value := by decide
      nonempty := by decide
      one_line := by decide
      data := by decide
      sources := nofun
      surface := fun _ h => nomatch h }
  fits := by unfold Codec.FrameFits; decide
  current := by decide

theorem header_storable : StorableHeader codec header where
  keeps :=
    { value := ⟨headerRecordFields, by decide, by decide, by decide⟩
      one_line := by decide
      origin := fun _ h => nomatch h }
  fits := by unfold Codec.FrameFits; decide

end Sample

/-- A session is created, grows by one event, is read and deleted. -/
def oneEventOps : List StoreOp :=
  [.create Sample.header, .append ⟨"s"⟩ Sample.event, .readFrom ⟨"s"⟩ 0, .inspect ⟨"s"⟩,
   .delete ⟨"s"⟩, .load ⟨"s"⟩]

theorem oneEventOps_storable : ∀ op ∈ oneEventOps, op.Storable Sample.codec := by
  simp only [oneEventOps, List.forall_mem_cons, List.not_mem_nil, false_implies, implies_true,
    and_true]
  exact ⟨Sample.header_storable, Sample.event_storable, trivial, trivial, trivial, trivial⟩

theorem backends_agree_oneEvent :
    storeResults (memoryPersistence wireSerde) Memory.empty oneEventOps
        = [.done (.ok ()), .done (.ok ()), .events (.ok [Sample.event]),
           .inspection (.ok (some { header := Sample.header, eventCount := 1, nextSeq := 1 })),
           .done (.ok ()), .header (.ok none)]
      ∧ storeResults (sqlitePersistence Sample.codec wireSerde) Sqlite.empty oneEventOps
        = storeResults (memoryPersistence wireSerde) Memory.empty oneEventOps :=
  ⟨rfl, (backends_agree Sample.codec wireSerde "raw" "zstd" Sample.codec_keepsFrames oneEventOps
    oneEventOps_storable).2.2⟩

end Tessivum.Persistence
