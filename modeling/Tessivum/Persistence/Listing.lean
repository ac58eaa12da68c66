/-
Tessivum.Persistence.Listing — the sessions under a root directory
(`JsonlSessionPersistence::list` of `src/persistence_jsonl.rs`).

A directory is enumerated in some order. Every name that decodes to a session id
is read, whatever other log that session has, and of the entries with one id the
first is kept. Flush counters are those of the running process, so here they are
an argument.
-/
import Tessivum.Library.FirstOfKeys
import Tessivum.Library.Keyed
import Tessivum.Persistence.TornTheorems

namespace Tessivum.Persistence.Jsonl

open Library Protocol Session

/-- The names of a directory and their contents, as they are enumerated. -/
abbrev Directory : Type := List (String × Bytes)

def filesOf (directory : Option Directory) : Files := fun name => (directory.getD []).lookup name

/-- `SessionInspection` with the flushes of this process. -/
structure FlushedInspection where
  inspection : SessionInspection
  flushCount : Nat
  deriving DecidableEq, Repr

def FlushedInspection.id (listed : FlushedInspection) : SessionId := listed.inspection.header.id

/-! ## Names -/

/-- `strip_prefix`. -/
def stripFront (front text : List Char) : Option (List Char) :=
  if front.isPrefixOf text then some (text.drop front.length) else none

/-- `strip_suffix`. -/
def stripEnd (ending text : List Char) : Option (List Char) :=
  if ending.isSuffixOf text then some (text.take (text.length - ending.length)) else none

/-- `hex_digit`. -/
def hexValue (byte : UInt8) : Option UInt8 :=
  if 48 ≤ byte ∧ byte ≤ 57 then some (byte - 48)
  else if 97 ≤ byte ∧ byte ≤ 102 then some (byte - 97 + 10)
  else if 65 ≤ byte ∧ byte ≤ 70 then some (byte - 65 + 10)
  else none

/-- The loop of `decode_id` over pairs of digits. -/
def decodePairs : Bytes → Option Bytes
  | high :: low :: rest => do
    let high ← hexValue high
    let low ← hexValue low
    let bytes ← decodePairs rest
    some ((high <<< 4 ||| low) :: bytes)
  | _ => some []

def decodeId (encoded : List Char) : Option String :=
  let digits := encoded.flatMap String.utf8EncodeChar
  if digits = [] ∨ digits.length % 2 ≠ 0 then none
  else (decodePairs digits).bind fun bytes => String.fromUTF8? bytes.toByteArray

/-- `id_from_path` of a file name. -/
def idFromPath (name : String) : Option (SessionId × JsonlStorageFormat) := do
  let name ← stripFront "session-".toList name.toList
  let (encoded, format) ← match stripEnd (fileSuffix .zstd).toList name with
    | some encoded => some (encoded, .zstd)
    | none => (stripEnd (fileSuffix .raw).toList name).map fun encoded => (encoded, .raw)
  let id ← decodeId encoded
  some (⟨id⟩, format)

/-! ## The listing -/

/-- One turn of the loop: a name that is no log is passed over. -/
def listEntry (F : Config) (counts : SessionId → Nat) (entry : String × Bytes) :
    Except SessionError (Option FlushedInspection) :=
  match idFromPath entry.1 with
  | none => .ok none
  | some (id, format) => do
    let session ← (parseSession F.codec F.serde entry.2 format id).mapError
      (sessionParseError F entry.1)
    let inspection ← Memory.inspectMemorySession session
    .ok (some { inspection, flushCount := counts id })

def listEntries (F : Config) (counts : SessionId → Nat) (token : Cancellation) :
    Nat → Directory → Except SessionError (List FlushedInspection)
  | _, [] => .ok []
  | n, entry :: rest => do
    checkCancellation token n
    let found ← listEntry F counts entry
    let listed ← listEntries F counts token (n + 1) rest
    .ok (found.toList ++ listed)

def list (F : Config) (directory : Option Directory) (counts : SessionId → Nat)
    (token : Cancellation) : Except SessionError (List FlushedInspection) := do
  checkCancellation token 0
  match directory with
  | none => .ok []
  | some directory => do
    let sessions ← listEntries F counts token 1 directory
    .ok (dedupByKey (·.id.asStr) (sortByKey (·.id.asStr) sessions))

/-- `JsonlSessionPersistence::inspect`, with the flushes. -/
def inspectFlushed (F : Config) (directory : Option Directory) (counts : SessionId → Nat)
    (id : SessionId) (token : Cancellation) : Except SessionError (Option FlushedInspection) := do
  let found ← inspect F (filesOf directory) id token
  .ok (found.map fun inspection => { inspection, flushCount := counts id })

end Tessivum.Persistence.Jsonl
