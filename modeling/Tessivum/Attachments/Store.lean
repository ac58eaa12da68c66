/-
Tessivum.Attachments.Store — the content-addressed store of attachments
(`AttachmentStore` of `src/attachments.rs`).

A file is named by the digest of its bytes. `persist` looks whether the file is
there and verifies it, or else writes a temporary and renames it. Every
filesystem operation is an await, so any number of calls go on in any order
here, and each operation may fail.

The write, the sync and the rename of a temporary are one operation. The
temporary of a call is known by the call, which has one at a time.
-/
import Tessivum.Attachments.Image
import Tessivum.Library.Keyed

namespace Tessivum.Attachments

open Library Protocol

structure AttachmentInput where
  data : Bytes
  name : Option String
  deriving DecidableEq, Repr

/-- An image that passed the checks, with its bytes. -/
structure SaveItem where
  data : Bytes
  image : AttachmentRef
  deriving DecidableEq, Repr

/-- Where a call of `save` or `save_batch` is: the filesystem operation on
its next image, its rollback, or its end. `cleaning` removes a temporary
that was not renamed. -/
inductive Phase where
  | probing
  | reading
  | opening
  | moving
  | cleaning
  | rolling (rest : List (List Char)) (error : AttachmentError)
  | returned (result : Except AttachmentError (List AttachmentRef))
  deriving DecidableEq

/-- A call: the bytes it was given, the images to come, those saved, and the
names of the files it has made. -/
structure SaveCall where
  batch : Bool
  inputs : List Bytes
  todo : List SaveItem
  saved : List SaveItem
  created : List (List Char)
  phase : Phase

/-- The store's directory and the calls. -/
structure AttachmentSystem where
  files : List (List Char × Bytes)
  temporaries : List Nat
  calls : List SaveCall

def AttachmentSystem.start (files : List (List Char × Bytes)) : AttachmentSystem :=
  { files, temporaries := [], calls := [] }

inductive AttachmentStep where
  | save (input : AttachmentInput)
  | saveBatch (inputs : List AttachmentInput)
  | advance (i : Nat) (succeeds : Bool)
  deriving DecidableEq, Repr

section

variable (sha256 : Bytes → Digest) (limits : AttachmentLimits)

def SaveItem.file (item : SaveItem) : List Char := fileName (sha256 item.data)

/-! ## Checks before any file -/

def validateInput (input : AttachmentInput) : Except AttachmentError SaveItem := do
  let image ← validateBytes sha256 limits input.data input.name
  .ok { data := input.data, image }

/-- The loop of `save_batch` over its inputs, with the bytes so far. -/
def validateBatch (total : Nat) : List AttachmentInput → Except AttachmentError (List SaveItem)
  | [] => .ok []
  | input :: rest => do
    let item ← validateInput sha256 limits input
    failIf (limits.maxMessageImageBytes < total + item.image.bytes) .batchByteLimit
    let items ← validateBatch (total + item.image.bytes) rest
    .ok (item :: items)

/-- A call that has begun, or has failed before it touched a file. -/
def beginCall (batch : Bool) (inputs : List AttachmentInput)
    (items : Except AttachmentError (List SaveItem)) : SaveCall :=
  let inputs := inputs.map (·.data)
  match items with
  | .ok items => { batch, inputs, todo := items, saved := [], created := [], phase := .probing }
  | .error e =>
    { batch, inputs, todo := [], saved := [], created := [], phase := .returned (.error e) }

/-- `save`. -/
def saveCall (input : AttachmentInput) : SaveCall :=
  beginCall false [input] ((validateInput sha256 limits input).map fun item => [item])

/-- `save_batch`. -/
def saveBatchCall (inputs : List AttachmentInput) : SaveCall :=
  beginCall true inputs
    (if limits.maxImagesPerMessage < inputs.length then .error .batchCountLimit
      else validateBatch sha256 limits 0 inputs)

/-! ## One operation of a call -/

/-- An image is persisted: its file was made now, or was there. -/
def SaveCall.keep (call : SaveCall) (item : SaveItem) (rest : List SaveItem) (made : Bool) :
    SaveCall :=
  { call with
    todo := rest
    saved := call.saved ++ [item]
    created := if made then call.created ++ [item.file sha256] else call.created
    phase := .probing }

def SaveCall.fail (call : SaveCall) (e : AttachmentError) : SaveCall :=
  { call with
    phase := if call.batch then .rolling call.created e else .returned (.error e) }

def verifyExisting (item : SaveItem) (existing : Bytes) : Except AttachmentError Unit := do
  let verified ← validateBytes sha256 limits existing item.image.name
  failIf (verified.attachmentId ≠ item.image.attachmentId) .digestMismatch

variable (s : AttachmentSystem)

def AttachmentSystem.setCall (i : Nat) (call : SaveCall) : AttachmentSystem :=
  { s with calls := s.calls.set i call }

/-- The next operation of the call `i`. -/
def AttachmentSystem.advance (i : Nat) (call : SaveCall) (succeeds : Bool) : AttachmentSystem :=
  match call.phase, call.todo with
  | .probing, [] => s.setCall i { call with phase := .returned (.ok (call.saved.map (·.image))) }
  | .probing, item :: _ =>
    if !succeeds then s.setCall i (call.fail (.storage "inspect attachment"))
    else if (s.files.lookup (item.file sha256)).isSome then
      s.setCall i { call with phase := .reading }
    else s.setCall i { call with phase := .opening }
  | .reading, item :: rest =>
    match succeeds, s.files.lookup (item.file sha256) with
    | true, some existing =>
      match verifyExisting sha256 limits item existing with
      | .ok () => s.setCall i (call.keep sha256 item rest false)
      | .error e => s.setCall i (call.fail e)
    | _, _ => s.setCall i (call.fail (.storage "read existing attachment"))
  | .opening, _ :: _ =>
    if !succeeds then s.setCall i (call.fail (.storage "create attachment temporary"))
    else { s with temporaries := i :: s.temporaries }.setCall i { call with phase := .moving }
  | .moving, item :: rest =>
    if !succeeds then s.setCall i { call with phase := .cleaning }
    else
      { s with
        files := Keyed.set (item.file sha256) item.data s.files
        temporaries := s.temporaries.erase i }.setCall i (call.keep sha256 item rest true)
  | .cleaning, _ =>
    { s with temporaries := if succeeds then s.temporaries.erase i else s.temporaries }.setCall i
      (call.fail (.storage "rename attachment temporary"))
  | .rolling (file :: rest) e, _ =>
    { s with files := if succeeds then Keyed.without file s.files else s.files }.setCall i
      { call with phase := .rolling rest e }
  | .rolling [] e, _ => s.setCall i { call with phase := .returned (.error e) }
  | .returned _, _ | .reading, [] | .opening, [] | .moving, [] => s

def AttachmentSystem.step : AttachmentStep → AttachmentSystem
  | .save input => { s with calls := s.calls ++ [saveCall sha256 limits input] }
  | .saveBatch inputs => { s with calls := s.calls ++ [saveBatchCall sha256 limits inputs] }
  | .advance i succeeds =>
    match s.calls[i]? with
    | some call => s.advance sha256 limits i call succeeds
    | none => s

def AttachmentSystem.run (steps : List AttachmentStep) : AttachmentSystem :=
  steps.foldl (AttachmentSystem.step sha256 limits) s

/-! ## Reading -/

/-- `read`, of a file with these characters for a name. -/
def AttachmentSystem.read (id : String) : Except AttachmentError (AttachmentRef × Bytes) := do
  let file ← digestHex id
  match s.files.lookup file with
  | none => .error (.storage "open attachment")
  | some data => do
    let image ← validateBytes sha256 limits data none
    failIf (image.attachmentId ≠ id) .digestMismatch
    .ok (image, data)

/-- The metadata of a reference against what the bytes say. -/
def checkMetadata (actual reference : AttachmentRef) : Except AttachmentError Unit :=
  failIf (actual.mediaType ≠ reference.mediaType ∨ actual.bytes ≠ reference.bytes
      ∨ actual.width ≠ reference.width ∨ actual.height ≠ reference.height) .metadataMismatch

def AttachmentSystem.readRef (reference : AttachmentRef) : Except AttachmentError Bytes := do
  let (image, data) ← s.read sha256 limits reference.attachmentId
  checkMetadata image reference
  .ok data

def AttachmentSystem.readRefBounded (reference : AttachmentRef) (maxBytes : Nat) :
    Except AttachmentError (AttachmentRef × Bytes) := do
  failIf (maxBytes < reference.bytes) .byteLimit
  let file ← digestHex reference.attachmentId
  match s.files.lookup file with
  | none => .error (.storage "open attachment")
  | some data => do
    failIf (maxBytes < data.length) .byteLimit
    let image ← validateBytes sha256 limits data none
    failIf (image.attachmentId ≠ reference.attachmentId) .digestMismatch
    checkMetadata image reference
    .ok (reference, data)

end

end Tessivum.Attachments
