/-
Tessivum.RemoteAccess.Access — the remote access store, the calls on it and its
restarts (`RemoteAccess` of `src/remote_access.rs`).

A call reads the clock when it is made and then waits for the state; what it
does under the state's lock, the persist included, is one step. Any number of
calls wait at the same time and get the lock in any order. A persist writes a
temporary file, replaces the store with it and then syncs the directory. It can
fail before the replacement, or after it, and the process can end after it.

`history` and `written` are not part of the source: the first lists what was
committed, the newest first, the second is the document last written to the
store.
-/
import Tessivum.RemoteAccess.Store

namespace Tessivum.RemoteAccess

open Library Protocol

/-! ## State -/

/-- `RemoteAccessConfig`, the durations in nanoseconds. -/
structure RemoteAccessConfig where
  enabled : Bool
  trustedTunnel : Bool
  pairingTtl : Nat
  sessionTtl : Nat
  deriving DecidableEq, Repr

inductive Request where
  | issuePairing
  | exchangePairing (token deviceName : String)
  | authenticate (sessionSecret : String)
  | checkDevice (deviceId : Uuid)
  | revoke (deviceId : Uuid)
  | revokeAll
  deriving DecidableEq

/-- A call that has read the clock and waits for the state. -/
structure PendingCall where
  request : Request
  now : Nat
  deriving DecidableEq

/-- What was committed. -/
inductive Record where
  | paired (token : String) (expiresAt : Nat)
  | exchanged (token : String) (deviceId : Uuid) (sessionSecret : String) (now expiresAt : Nat)
  | authenticated (sessionSecret : String) (deviceId : Uuid) (now : Nat)
  | checked (deviceId : Uuid) (now : Nat)
  | revoked (deviceId : Uuid)
  | revokedAll
  | restarted
  deriving DecidableEq

/-- A running process. -/
structure Process where
  config : RemoteAccessConfig
  state : RemoteState
  deriving DecidableEq

/-- The store and the process that has it open, if there is one. -/
structure AccessSystem where
  clock : Nat
  file : Option Bytes
  written : Option StoredDocument
  process : Option Process
  call : Nat → Option PendingCall
  history : List Record

/-- How a persist ends. -/
inductive PersistOutcome where
  | persisted
  /-- an error before the store is replaced -/
  | failed
  /-- the store is replaced and the directory cannot be opened or synced -/
  | failedAfterReplace
  /-- the store is replaced and the process ends -/
  | crashed
  deriving DecidableEq

/-- The ids a call draws: two for a secret, one for a device. -/
structure Draw where
  first : Uuid
  second : Uuid
  device : Uuid
  deriving DecidableEq

def StoredDevice.revokeAt (d : StoredDevice) (now : Nat) : StoredDevice :=
  if d.revokedAt.isSome then d else { d with revokedAt := some now }

/-- What a call does under the lock. -/
inductive Effect where
  /-- a new state in memory, and what was committed with it -/
  | done (state : RemoteState) (record : Option Record)
  /-- a candidate to persist, and what is committed with it -/
  | persist (candidate : RemoteState) (record : Record)
  deriving DecidableEq

def addDuration (now duration : Nat) : Except RemoteAccessError Nat :=
  let total := now + min (duration / 1000000) (u64Bound - 1)
  if total < u64Bound then .ok total
  else .error (.invalid "TTL exceeds the supported clock range")

section
variable (sha256 : Bytes → Digest) (decode : Bytes → Except String StoredDocument)

def hashSecret (secret : String) : Digest := sha256 (utf8 secret)

/-! ## Calls under the lock -/

def issuePairing (config : RemoteAccessConfig) (state : RemoteState) (now : Nat) (draw : Draw) :
    Effect :=
  match addDuration now config.pairingTtl with
  | .error _ => .done state none
  | .ok expiresAt =>
    let token := randomSecret "tvp" draw.first draw.second
    .done { state with pairing := some { tokenHash := hashSecret sha256 token, expiresAt } }
      (some (.paired token expiresAt))

/-- The device `exchange_pairing` adds. -/
def newDevice (deviceName sessionSecret : String) (now expiresAt : Nat) (id : Uuid) :
    StoredDevice :=
  { deviceId := id, name := deviceName, secretHash := hexHash (hashSecret sha256 sessionSecret)
    createdAt := now, lastActivityAt := now, expiresAt, revokedAt := none }

def exchangePairing (config : RemoteAccessConfig) (state : RemoteState)
    (token deviceName : String) (now : Nat) (draw : Draw) : Effect :=
  match state.pairing with
  | none => .done state none
  | some pairing =>
    if pairing.expiresAt ≤ now then .done { state with pairing := none } none
    else if pairing.tokenHash ≠ hashSecret sha256 token then .done state none
    else
      let candidate := pruneInactiveDevices state now
      if maxDevices ≤ candidate.devices.length then .done state none
      else
        match addDuration now config.sessionTtl with
        | .error _ => .done state none
        | .ok expiresAt =>
          let sessionSecret := randomSecret "tvs" draw.first draw.second
          let stored := newDevice sha256 deviceName sessionSecret now expiresAt draw.device
          let candidate := { candidate with pairing := none }.bump
          .persist { candidate with devices := insertDevice stored candidate.devices }
            (.exchanged token draw.device sessionSecret now expiresAt)

variable (state : RemoteState)

/-- The device `authenticate` selects. -/
def findSecret (supplied : Digest) : Option StoredDevice :=
  state.devices.find? fun d => decodeHash d.secretHash == some supplied

def authenticate (sessionSecret : String) (now : Nat) : Effect :=
  match findSecret state (hashSecret sha256 sessionSecret) with
  | none => .done state none
  | some device =>
    if device.revokedAt.isSome then .done state none
    else if device.expiresAt ≤ now then .done state none
    else
      let record : Record := .authenticated sessionSecret device.deviceId now
      if activityPersistInterval ≤ now - device.lastActivityAt then
        let devices := updateDevice device.deviceId (fun d => { d with lastActivityAt := now })
          state.devices
        .persist { state.bump with devices } record
      else .done state (some record)

/-- `BTreeMap::get`. -/
def findDevice (id : Uuid) : Option StoredDevice :=
  state.devices.find? (·.deviceId == id)

def checkDevice (id : Uuid) (now : Nat) : Effect :=
  match findDevice state id with
  | none => .done state none
  | some device =>
    if device.revokedAt.isSome then .done state none
    else if device.expiresAt ≤ now then .done state none
    else .done state (some (.checked id now))

def revoke (id : Uuid) (now : Nat) : Effect :=
  match findDevice state id with
  | none => .done state none
  | some device =>
    if device.revokedAt.isSome then .done state (some (.revoked id))
    else
      let devices := updateDevice id (fun d => { d with revokedAt := some now }) state.devices
      .persist { state.bump with devices } (.revoked id)

def revokeAll (now : Nat) : Effect :=
  if state.devices.all (·.revokedAt.isSome) then .done state (some .revokedAll)
  else
    let devices := state.devices.map (StoredDevice.revokeAt · now)
    .persist { state.bump with devices } .revokedAll

def effect (process : Process) (pending : PendingCall) (draw : Draw) : Effect :=
  match pending.request with
  | .issuePairing => issuePairing sha256 process.config process.state pending.now draw
  | .exchangePairing token deviceName =>
    exchangePairing sha256 process.config process.state token deviceName pending.now draw
  | .authenticate sessionSecret => authenticate sha256 process.state sessionSecret pending.now
  | .checkDevice id => checkDevice process.state id pending.now
  | .revoke id => revoke process.state id pending.now
  | .revokeAll => revokeAll process.state pending.now

namespace AccessSystem

def fresh : AccessSystem :=
  { clock := 0, file := none, written := none, process := none, call := fun _ => none
    history := [] }

variable (s : AccessSystem)

def nowMillis : Nat := min s.clock (u64Bound - 1)

/-- `RemoteAccess::open`. -/
def openState (config : RemoteAccessConfig) (file : Option Bytes) :
    Except RemoteAccessError RemoteState :=
  if config.enabled && !config.trustedTunnel then .error .tlsRequired
  else if config.pairingTtl = 0 ∨ config.sessionTtl = 0 then
    .error (.invalid "pairing and session TTLs must be positive")
  else loadState decode file

/-- The process ends, with the calls it was at, and another opens the
store. -/
def restart (config : RemoteAccessConfig) : AccessSystem :=
  { s with
    process := (openState decode config s.file).toOption.map fun state => { config, state }
    call := fun _ => none
    history := .restarted :: s.history }

def admitRequest : Request → Except RemoteAccessError Unit
  | .exchangePairing token deviceName => do
    validateSecret token
    validateDeviceName deviceName
  | .authenticate sessionSecret => validateSecret sessionSecret
  | _ => .ok ()

def begin (c : Nat) (request : Request) : AccessSystem :=
  match s.process, s.call c with
  | some process, none =>
    if process.config.enabled && (admitRequest request).toOption.isSome then
      { s with call := Function.update s.call c (some { request, now := s.nowMillis }) }
    else s
  | _, _ => s

def replaceStore (candidate : RemoteState) : AccessSystem :=
  { s with file := some candidate.document.encode, written := some candidate.document }

/-- The effect takes place; a candidate is assigned once it is persisted. -/
def perform (process : Process) (outcome : PersistOutcome) : Effect → AccessSystem
  | .done state record =>
    { s with process := some { process with state }, history := record.toList ++ s.history }
  | .persist candidate record =>
    match outcome with
    | .failed => s
    | .failedAfterReplace => s.replaceStore candidate
    | .persisted =>
      { s.replaceStore candidate with
        process := some { process with state := candidate }
        history := record :: s.history }
    | .crashed =>
      restart decode { s.replaceStore candidate with history := record :: s.history }
        process.config

def finish (c : Nat) (draw : Draw) (outcome : PersistOutcome) : AccessSystem :=
  match s.process, s.call c with
  | some process, some pending =>
    perform decode { s with call := Function.update s.call c none } process outcome
      (effect sha256 process pending draw)
  | _, _ => s

end AccessSystem

/-! ## Runs -/

inductive AccessStep where
  | advance (millis : Nat)
  | begin (c : Nat) (request : Request)
  | finish (c : Nat) (draw : Draw) (outcome : PersistOutcome)
  | restart (config : RemoteAccessConfig)

namespace AccessSystem

def step (s : AccessSystem) : AccessStep → AccessSystem
  | .advance millis => { s with clock := s.clock + millis }
  | .begin c request => s.begin c request
  | .finish c draw outcome => s.finish sha256 decode c draw outcome
  | .restart config => s.restart decode config

def run (steps : List AccessStep) : AccessSystem :=
  steps.foldl (step sha256 decode) fresh

end AccessSystem

end

end Tessivum.RemoteAccess
