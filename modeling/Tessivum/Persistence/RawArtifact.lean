/-
Tessivum.Persistence.RawArtifact — the log of a session as a file to hand out
(`read_raw` of `src/persistence_jsonl.rs`).

The artifact is the log's records as JSON lines, whatever the log's own
encoding is. The bytes are not taken from the parsed session: a raw log is cut
after its last newline, a compressed one is decompressed frame by frame once
more.
-/
import Tessivum.Persistence.TornTheorems

namespace Tessivum.Persistence

open Library Protocol Session

structure SessionRawArtifact where
  filename : String
  bytes : Bytes
  deriving DecidableEq, Repr

/-- `rposition`: the last position with a property. -/
def rposition (p : UInt8 → Bool) (bytes : Bytes) : Option Nat :=
  (bytes.reverse.findIdx? p).map fun i => bytes.length - 1 - i

def lastLineStart (bytes : Bytes) : Nat :=
  match rposition (fun b => b == newline) bytes with
  | some index => index + 1
  | none => 0

/-- `committed_raw_bytes`: what is behind the last newline stays only if it is
JSON. -/
def committedRawBytes (C : Codec) (bytes : Bytes) : Bytes :=
  let start := lastLineStart bytes
  if start < bytes.length ∧ (C.valueFromSlice (bytes.drop start)).isNone then bytes.take start
  else bytes

/-- The bytes of one decompressed frame, with their newline. -/
def rawFrame (C : Codec) (compressed : Bytes) (checksum : Nat) : Except String Bytes := do
  failIf ((C.crc32 compressed).toNat ≠ checksum) "compressed frame checksum mismatch"
  let record ← (C.decodeAll compressed).mapError ("invalid compressed frame: " ++ ·)
  failIf (record.getLast? ≠ some newline ∨ newline ∈ record.dropLast)
    "compressed frame does not contain exactly one JSONL record"
  .ok record

/-- The loop of `decode_zstd_raw`: an incomplete frame ends it. -/
def decodeZstdRaw (C : Codec) (bytes : Bytes) : Except String Bytes :=
  if bytes.length < frameHeaderLen then .ok []
  else
    let body := bytes.drop frameHeaderLen
    let compressedLen := beWord (bytes.drop 4)
    if body.length < compressedLen then .ok []
    else do
      let record ← rawFrame C (body.take compressedLen) (beWord bytes)
      let raw ← decodeZstdRaw C (body.drop compressedLen)
      .ok (record ++ raw)
  termination_by bytes.length
  decreasing_by simp only [List.length_drop, frameHeaderLen] at *; omega

def artifactBytes (C : Codec) (format : JsonlStorageFormat) (stored : Bytes) :
    Except String Bytes :=
  match format with
  | .raw => .ok (committedRawBytes C stored)
  | .zstd => decodeZstdRaw C stored

def Jsonl.readRaw (F : Config) (files : Files) (id : SessionId) (token : Cancellation) :
    Except SessionError (Option SessionRawArtifact) := do
  checkCancellation token 0
  checkCancellation token 1
  match existingFormat files id with
  | none => .ok none
  | some format => do
    let name := logName format id
    let stored := (files name).getD []
    checkCancellation token 2
    let _ ← (parseSession F.codec F.serde stored format id).mapError (sessionParseError F name)
    let bytes ← (artifactBytes F.codec format stored).mapError fun message =>
      sessionParseError F name (.corrupt message)
    checkCancellation token 3
    .ok (some { filename := "session.jsonl", bytes })

end Tessivum.Persistence
