/-
Tessivum.RemoteAccess.Store — the devices of the remote access store and
the document they are kept in (`src/remote_access.rs`).

Devices are a map by id, kept here as the list of its values in key order.
The document's JSON text is written out as `serde_json` prints it, since
loading bounds its size. Reading it back is a parameter, and so is
SHA-256. The checks on the file's owner and mode are left out: the store
creates its files with the mode they ask for.
-/
import Tessivum.Library.Bytes
import Tessivum.Protocol.Message

namespace Tessivum.RemoteAccess

open Library Protocol

/-! ## Errors -/

inductive RemoteAccessError where
  | disabled
  | tlsRequired
  | authRequired
  | sessionExpired
  | sessionRevoked
  | deviceNotFound
  | invalid (message : String)
  | persistence (message : String)
  | corrupt (message : String)
  deriving DecidableEq, Repr

def RemoteAccessError.display : RemoteAccessError → String
  | .disabled => "remote access is disabled"
  | .tlsRequired => "remote access requires a trusted TLS tunnel"
  | .authRequired => "remote authentication is required"
  | .sessionExpired => "remote device session expired"
  | .sessionRevoked => "remote device session was revoked"
  | .deviceNotFound => "remote device was not found"
  | .invalid message => "invalid remote access request: " ++ message
  | .persistence message => "remote access persistence failed: " ++ message
  | .corrupt message => "remote access state is corrupt: " ++ message

/-! ## Limits -/

def storeVersion : Nat := 1
def maxDevices : Nat := 256
def maxStoreBytes : Nat := 1024 * 1024
def activityPersistInterval : Nat := 60000

/-! ## Ids, secrets and hashes -/

def Uuid : Type := Fin (2 ^ 128)

instance : LinearOrder Uuid := inferInstanceAs (LinearOrder (Fin (2 ^ 128)))

instance : Repr Uuid := inferInstanceAs (Repr (Fin (2 ^ 128)))

def Uuid.simple (u : Uuid) : List Char := hexNat 32 (Fin.val u)

/-- The hyphenated form `serde` writes. -/
def Uuid.hyphenated (u : Uuid) : List Char :=
  let digits := Uuid.simple u
  digits.take 8 ++ '-' :: (digits.drop 8).take 4 ++ '-' :: (digits.drop 12).take 4
    ++ '-' :: (digits.drop 16).take 4 ++ '-' :: digits.drop 20

/-- `random_secret`, with the two ids it draws. -/
def randomSecret (pre : String) (first second : Uuid) : String :=
  String.ofList (pre.toList ++ '_' :: (Uuid.simple first ++ Uuid.simple second))

def hexHash (hash : Digest) : String := String.ofList (hash.1.flatMap hexDigits)

/-- `hex_digit`. -/
def hexDigitValue (c : Char) : Option Nat :=
  if '0' ≤ c ∧ c ≤ '9' then some (c.toNat - '0'.toNat)
  else if 'a' ≤ c ∧ c ≤ 'f' then some (c.toNat - 'a'.toNat + 10)
  else none

/-- The bytes of pairs of digits; a digit left over is not one. -/
def decodePairs : List Char → Option Bytes
  | [] => some []
  | [_] => none
  | high :: low :: rest => do
    let h ← hexDigitValue high
    let l ← hexDigitValue low
    let bytes ← decodePairs rest
    some (UInt8.ofNat (h * 16 + l) :: bytes)

def decodeHash (value : String) : Option Digest :=
  if (utf8 value).length ≠ 64 then none
  else do
    let bytes ← decodePairs value.toList
    if h : bytes.length = 32 then some ⟨bytes, h⟩ else none

/-! ## Devices -/

structure StoredDevice where
  deviceId : Uuid
  name : String
  secretHash : String
  createdAt : Nat
  lastActivityAt : Nat
  expiresAt : Nat
  revokedAt : Option Nat
  deriving DecidableEq, Repr

structure StoredPairing where
  tokenHash : Digest
  expiresAt : Nat
  deriving DecidableEq, Repr

/-- `RemoteState`: the devices are in order of their ids. -/
structure RemoteState where
  revision : Nat
  devices : List StoredDevice
  pairing : Option StoredPairing
  deriving DecidableEq, Repr

/-- `RemoteState::default`. -/
def RemoteState.empty : RemoteState := { revision := 0, devices := [], pairing := none }

/-- `BTreeMap::insert` by id. -/
def insertDevice (d : StoredDevice) : List StoredDevice → List StoredDevice
  | [] => [d]
  | x :: rest =>
    if d.deviceId < x.deviceId then d :: x :: rest
    else if d.deviceId = x.deviceId then d :: rest
    else x :: insertDevice d rest

/-- `BTreeMap::get_mut` and an assignment. -/
def updateDevice (id : Uuid) (f : StoredDevice → StoredDevice) (devices : List StoredDevice) :
    List StoredDevice :=
  devices.map fun d => if d.deviceId = id then f d else d

/-- `revision.saturating_add(1)`. -/
def RemoteState.bump (state : RemoteState) : RemoteState :=
  { state with revision := min (state.revision + 1) (u64Bound - 1) }

def isControl (c : Char) : Bool := c.toNat < 0x20 || (0x7F ≤ c.toNat && c.toNat < 0xA0)

def validateDeviceName (name : String) : Except RemoteAccessError Unit :=
  if trim name ≠ name ∨ name.isEmpty ∨ 128 < (utf8 name).length ∨ name.toList.any isControl then
    .error (.invalid
      "deviceName must be 1-128 printable characters without surrounding whitespace")
  else .ok ()

def validateSecret (secret : String) : Except RemoteAccessError Unit :=
  if (utf8 secret).length < 16 ∨ 256 < (utf8 secret).length ∨ secret.toList.any isControl then
    .error .authRequired
  else .ok ()

def StoredDevice.inactive (d : StoredDevice) (now : Nat) : Bool :=
  d.revokedAt.isSome || decide (d.expiresAt ≤ now)

/-- The order `prune_inactive_devices` sorts by: creation, then id. -/
def olderThan (a b : Nat × Uuid) : Prop := a.1 < b.1 ∨ (a.1 = b.1 ∧ a.2 ≤ b.2)

instance : DecidableRel olderThan := fun a b =>
  inferInstanceAs (Decidable (a.1 < b.1 ∨ (a.1 = b.1 ∧ a.2 ≤ b.2)))

/-- `prune_inactive_devices`: the oldest inactive devices go when there is
no room for one more. -/
def pruneInactiveDevices (state : RemoteState) (now : Nat) : RemoteState :=
  let removeCount := state.devices.length + 1 - maxDevices
  let inactive := (state.devices.filter (·.inactive now)).map fun d => (d.createdAt, d.deviceId)
  let removed := ((inactive.insertionSort olderThan).take removeCount).map Prod.snd
  { state with devices := state.devices.filter (·.deviceId ∉ removed) }

/-! ## The document -/

structure StoredDocument where
  version : Nat
  revision : Nat
  devices : List StoredDevice
  deriving DecidableEq, Repr

/-- The document `persist` writes. -/
def RemoteState.document (state : RemoteState) : StoredDocument :=
  { version := storeVersion, revision := state.revision, devices := state.devices }

def StoredDevice.text (d : StoredDevice) : List Char :=
  jsonField '\x7b' "deviceId" (jsonString (Uuid.hyphenated d.deviceId))
    ++ jsonField ',' "name" (jsonString d.name.toList)
    ++ jsonField ',' "secretHash" (jsonString d.secretHash.toList)
    ++ jsonField ',' "createdAt" (jsonNumber d.createdAt)
    ++ jsonField ',' "lastActivityAt" (jsonNumber d.lastActivityAt)
    ++ jsonField ',' "expiresAt" (jsonNumber d.expiresAt)
    ++ jsonField ',' "revokedAt" (jsonOption d.revokedAt) ++ ['\x7d']

def devicesText : List StoredDevice → List Char
  | [] => []
  | [d] => d.text
  | d :: rest => d.text ++ ',' :: devicesText rest

/-- `serde_json::to_vec` of the document. -/
def StoredDocument.encode (doc : StoredDocument) : Bytes :=
  (jsonField '\x7b' "version" (jsonNumber doc.version)
    ++ jsonField ',' "revision" (jsonNumber doc.revision)
    ++ jsonField ',' "devices" ('[' :: devicesText doc.devices) ++ [']', '\x7d']).flatMap
    String.utf8EncodeChar

/-! ## Loading -/

/-- The loop of `load_state` over the records. -/
def loadDevices (devices : List StoredDevice) :
    List StoredDevice → Except RemoteAccessError (List StoredDevice)
  | [] => .ok devices
  | d :: rest => do
    (validateDeviceName d.name).mapError fun error =>
      .corrupt ("invalid remote device name: " ++ error.display)
    if (decodeHash d.secretHash).isNone ∨ d.lastActivityAt < d.createdAt
        ∨ d.expiresAt < d.lastActivityAt ∨ devices.any (·.deviceId == d.deviceId) then
      .error (.corrupt "invalid or duplicate remote device record")
    else loadDevices (insertDevice d devices) rest

/-- `load_state` on the file's contents. -/
def loadState (decode : Bytes → Except String StoredDocument) :
    Option Bytes → Except RemoteAccessError RemoteState
  | none => .ok .empty
  | some bytes => do
    if maxStoreBytes < bytes.length then
      .error (.corrupt "remote access store must be a bounded regular file")
    else
      let document ← (decode bytes).mapError fun error => .corrupt ("decode store: " ++ error)
      if document.version ≠ storeVersion ∨ maxDevices < document.devices.length then
        .error (.corrupt "unsupported store version or device count")
      else
        let devices ← loadDevices [] document.devices
        .ok { revision := document.revision, devices, pairing := none }

end Tessivum.RemoteAccess
