/-
Tessivum.Settings.Service — the settings service, the calls on it and what it
shows (`Settings` of `src/settings.rs`).

Three kinds of lock are taken. Registrations are serialised by the registration
gate. Every registered namespace has a state of its own with a gate, and
`commit`, `reload` and `unregister` look their state up first and then wait for
its gate. The provider replaces one section atomically or fails without effect,
whatever gate it uses for that.

What a call does between two awaits under a lock only depends on what the lock
guards and is taken in one step; `unregister` has no await under its gate. A
new registration gets a new state, so the states are kept by number and
`namespaces` holds the number of the current one. The broadcast of events has
no effect on the service and is left out, and so are the wait of `shutdown` for
the gates and the readers.
-/
import Tessivum.Settings.Document

namespace Tessivum.Settings

open Library Protocol

/-! ## State -/

inductive SettingsApplies where
  | live
  | restart
  deriving DecidableEq, Repr

/-- `SettingsRegistration`. Only descriptors show the schema and the applies
flag. -/
structure SettingsRegistration where
  ns : String
  schema : Value
  defaults : Value
  base : Value
  applies : SettingsApplies
  secretPaths : List SettingPath
  validator : Option (Value → Except TessivumError Unit)

/-- A namespace's state: what was registered, its data, and the call that
holds its gate. -/
structure NamespaceState where
  registration : SettingsRegistration
  user : Value
  userPresent : Bool
  resolved : Value
  revision : Nat
  gate : Option Nat

structure SettingsSnapshot where
  ns : String
  revision : Nat
  value : Value
  deriving DecidableEq

/-- `resolve` for a registration. -/
def SettingsRegistration.resolve (r : SettingsRegistration) (user : Value) : Value :=
  Settings.resolve r.defaults r.base user

def SettingsRegistration.validateResolved (r : SettingsRegistration) (resolved : Value) :
    Except SettingsError Unit := do
  validateDocument resolved
  match r.validator with
  | none => .ok ()
  | some validator => (validator resolved).mapError .validation

def NamespaceState.snapshot (state : NamespaceState) (ns : String) : SettingsSnapshot :=
  { ns, revision := state.revision, value := state.resolved }

/-- A call and its arguments. -/
inductive Request where
  | register (registration : SettingsRegistration)
  | unregister (ns : String)
  | reload (ns : String)
  | commit (ns : String) (expectedRevision : Option Nat) (change : Change)

/-- What a call returns: `register` and `unregister` no snapshot. -/
abbrev Outcome : Type := Except SettingsError (Option SettingsSnapshot)

/-- Where a call stands. -/
inductive Phase where
  /-- `register` waits for the registration gate -/
  | registering
  /-- it holds the gate and the namespace is free -/
  | loading
  /-- the section is loaded and passes -/
  | loaded (user : Value) (userPresent : Bool) (resolved : Value)
  /-- the state is looked up, waiting for its gate -/
  | waiting (id : Nat)
  /-- `reload` holds the gate -/
  | reloading (id : Nat)
  | reloaded (id : Nat) (user : Value) (userPresent : Bool) (resolved : Value)
  /-- `commit` holds the gate and its candidate passes -/
  | persisting (id : Nat) (candidate resolved : Value) (nextRevision : Nat)
  /-- the provider has it -/
  | persisted (id : Nat) (candidate resolved : Value) (nextRevision : Nat)
  | returned (outcome : Outcome)
  deriving DecidableEq

structure SettingsCall where
  request : Request
  phase : Phase

/-- `Settings` over its provider's sections, and the calls made so far. -/
structure SettingsService where
  sections : String → Option Value
  writable : Bool
  namespaces : String → Option Nat
  states : Nat → NamespaceState
  count : Nat
  registrationGate : Option Nat
  closed : Bool
  calls : Nat
  call : Nat → SettingsCall

namespace SettingsService

variable (s : SettingsService)

def setPhase (c : Nat) (phase : Phase) : SettingsService :=
  { s with call := Function.update s.call c { s.call c with phase } }

def returns (c : Nat) (outcome : Outcome) : SettingsService :=
  s.setPhase c (.returned outcome)

def setState (id : Nat) (state : NamespaceState) : SettingsService :=
  { s with states := Function.update s.states id state }

def setGate (id : Nat) (holder : Option Nat) : SettingsService :=
  s.setState id { s.states id with gate := holder }

/-! ## Starting a call -/

/-- What `register` checks before it waits. -/
def startRegister (r : SettingsRegistration) : Except SettingsError Phase := do
  ensureNamespace r.ns
  validateDocument r.defaults
  validateDocument r.base
  validateSecretPaths r.secretPaths
  failIf (s.closed = true) .closed
  .ok .registering

/-- `state`. -/
def lookup (ns : String) : Except SettingsError Nat :=
  match s.namespaces ns with
  | some id => .ok id
  | none => .error (.notRegistered ns)

/-- What `unregister` and `reload` check before they wait. -/
def startLookup (ns : String) : Except SettingsError Phase := do
  failIf (s.closed = true) .closed
  let id ← s.lookup ns
  .ok (.waiting id)

/-- What an editing method and `commit` check before they wait. -/
def startCommit (ns : String) (change : Change) : Except SettingsError Phase := do
  change.validate
  failIf (s.closed = true) .closed
  failIf (s.writable = false) .readOnly
  let id ← s.lookup ns
  .ok (.waiting id)

def start : Request → Except SettingsError Phase
  | .register r => s.startRegister r
  | .unregister ns => s.startLookup ns
  | .reload ns => s.startLookup ns
  | .commit ns _ change => s.startCommit ns change

def begin (request : Request) : SettingsService :=
  let phase := match s.start request with
    | .ok phase => phase
    | .error err => .returned (.error err)
  { s with calls := s.calls + 1, call := Function.update s.call s.calls { request, phase } }

/-! ## Under a lock -/

/-- The candidate of a commit and its revision, or the outcome without
one. -/
inductive Candidate where
  | done (outcome : Outcome)
  | persist (candidate resolved : Value) (nextRevision : Nat)

/-- `commit` between the gate and the provider. -/
def prepare (id : Nat) (ns : String) (expectedRevision : Option Nat) (change : Change) :
    Candidate :=
  let state := s.states id
  let candidate := change.apply state.user
  let resolved := state.registration.resolve candidate
  let checks := do
    failIf (s.closed = true) SettingsError.closed
    match expectedRevision with
    | none => .ok ()
    | some expected => failIf (expected ≠ state.revision) (.conflict expected state.revision)
    validateDocument candidate
    state.registration.validateResolved resolved
  match checks with
  | .error err => .done (.error err)
  | .ok () =>
    if candidate = state.user then .done (.ok (some (state.snapshot ns)))
    else if state.revision + 1 < u64Bound then
      .persist candidate resolved (state.revision + 1)
    else .done (.error .revisionExhausted)

def enter (c : Nat) : SettingsService :=
  match (s.call c).phase, (s.call c).request with
  | .registering, .register r =>
    if s.registrationGate.isSome then s
    else if (s.namespaces r.ns).isSome then s.returns c (.error (.duplicateNamespace r.ns))
    else { s.setPhase c .loading with registrationGate := some c }
  | .waiting id, .unregister ns =>
    if (s.states id).gate.isSome then s
    else if (s.namespaces ns).isNone then s.returns c (.error (.notRegistered ns))
    else { s.returns c (.ok none) with namespaces := Function.update s.namespaces ns none }
  | .waiting id, .reload _ =>
    if (s.states id).gate.isSome then s
    else if s.closed then s.returns c (.error .closed)
    else (s.setPhase c (.reloading id)).setGate id (some c)
  | .waiting id, .commit ns expectedRevision change =>
    if (s.states id).gate.isSome then s
    else
      match s.prepare id ns expectedRevision change with
      | .done outcome => s.returns c outcome
      | .persist candidate resolved nextRevision =>
        (s.setPhase c (.persisting id candidate resolved nextRevision)).setGate id (some c)
  | _, _ => s

def admitSection (r : SettingsRegistration) (section_ : Option Value) :
    Except SettingsError (Value × Bool × Value) := do
  let user := section_.getD emptyDocument
  validateDocument user
  r.validateResolved (r.resolve user)
  .ok (user, section_.isSome, r.resolve user)

/-- `provider.load`, which gives the section or fails, and the checks of
what it gives. -/
def load (c : Nat) (failure : Option SettingsError) : SettingsService :=
  match (s.call c).phase, (s.call c).request with
  | .loading, .register r =>
    match failure.elim (admitSection r (s.sections r.ns)) .error with
    | .error err => { s.returns c (.error err) with registrationGate := none }
    | .ok (user, userPresent, resolved) => s.setPhase c (.loaded user userPresent resolved)
  | .reloading id, .reload ns =>
    match failure.elim (admitSection (s.states id).registration (s.sections ns)) .error with
    | .error err => (s.returns c (.error err)).setGate id none
    | .ok (user, userPresent, resolved) =>
      s.setPhase c (.reloaded id user userPresent resolved)
  | _, _ => s

/-- `provider.persist`. -/
def persist (c : Nat) (failure : Option SettingsError) : SettingsService :=
  match (s.call c).phase, (s.call c).request with
  | .persisting id candidate resolved nextRevision, .commit ns _ _ =>
    match failure with
    | some err => (s.returns c (.error err)).setGate id none
    | none =>
      { s.setPhase c (.persisted id candidate resolved nextRevision) with
        sections := Function.update s.sections ns (some candidate) }
  | _, _ => s

def newState (r : SettingsRegistration) (user : Value) (userPresent : Bool) (resolved : Value) :
    NamespaceState :=
  { registration := r, user, userPresent, resolved, revision := 0, gate := none }

/-- The last step of a call: the state is inserted, or its data written,
and the gate released. -/
def finish (c : Nat) : SettingsService :=
  match (s.call c).phase, (s.call c).request with
  | .loaded user userPresent resolved, .register r =>
    if s.closed then { s.returns c (.error .closed) with registrationGate := none }
    else if (s.namespaces r.ns).isSome then
      { s.returns c (.error (.duplicateNamespace r.ns)) with registrationGate := none }
    else
      { (s.returns c (.ok none)).setState s.count (newState r user userPresent resolved) with
        namespaces := Function.update s.namespaces r.ns (some s.count)
        count := s.count + 1, registrationGate := none }
  | .reloaded id user userPresent resolved, .reload ns =>
    let state := s.states id
    if state.user = user ∧ state.userPresent = userPresent then
      (s.returns c (.ok (some (state.snapshot ns)))).setGate id none
    else if state.revision + 1 < u64Bound then
      let state := { state with
        user, userPresent, resolved, revision := state.revision + 1, gate := none }
      (s.returns c (.ok (some (state.snapshot ns)))).setState id state
    else (s.returns c (.error .revisionExhausted)).setGate id none
  | .persisted id candidate resolved nextRevision, .commit ns _ _ =>
    let state := { s.states id with
      user := candidate, resolved, revision := nextRevision, userPresent := true, gate := none }
    (s.returns c (.ok (some (state.snapshot ns)))).setState id state
  | _, _ => s

end SettingsService

/-! ## Runs -/

/-- One step of anyone. -/
inductive SettingsStep where
  | begin (request : Request)
  | enter (c : Nat)
  | load (c : Nat) (failure : Option SettingsError)
  | persist (c : Nat) (failure : Option SettingsError)
  | finish (c : Nat)
  | shutdown
  | setWritable (writable : Bool)

namespace SettingsService

def step (s : SettingsService) : SettingsStep → SettingsService
  | .begin request => s.begin request
  | .enter c => s.enter c
  | .load c failure => s.load c failure
  | .persist c failure => s.persist c failure
  | .finish c => s.finish c
  | .shutdown => { s with closed := true }
  | .setWritable writable => { s with writable }

/-- The service over a provider's sections, before any call. -/
def fresh (sections : String → Option Value) (writable : Bool) : SettingsService :=
  { sections, writable, namespaces := fun _ => none
    states := fun _ => newState ⟨"", .null, .null, .null, .live, [], none⟩ .null false .null
    count := 0, registrationGate := none, closed := false, calls := 0
    call := fun _ => ⟨.unregister "", .returned (.error .closed)⟩ }

def runFrom (s : SettingsService) (steps : List SettingsStep) : SettingsService := steps.foldl step s

end SettingsService

/-! ## What is shown of a namespace

A descriptor (`Settings::describe`) holds the documents of a namespace with the
values at its secret paths removed (`redact`), and says of each secret path
whether the resolved document has a value there. -/

/-- One step of `has_path`. -/
def child (value : Value) (member : String) : Option Value :=
  match value with
  | .object fields => fields.lookup member
  | .array items => (arrayIndex member).bind fun index => items[index]?
  | _ => none

def hasPath (value : Value) : SettingPath → Bool
  | [] => true
  | member :: rest =>
    match child value member with
    | some current => hasPath current rest
    | none => false

def redact (value : Value) (paths : List SettingPath) : Value :=
  paths.foldl removeAtPath value

structure SettingsDescriptor where
  ns : String
  revision : Nat
  schema : Value
  defaults : Value
  base : Value
  user : Value
  applies : SettingsApplies
  resolved : Value
  secretPaths : List SettingPath
  secretSet : List Bool
  userPresent : Bool
  deriving DecidableEq

def SettingsService.describe (s : SettingsService) (ns : String) :
    Except SettingsError SettingsDescriptor := do
  let id ← s.lookup ns
  let state := s.states id
  let secretPaths := state.registration.secretPaths
  return {
    ns := ns
    revision := state.revision
    schema := state.registration.schema
    defaults := redact state.registration.defaults secretPaths
    base := redact state.registration.base secretPaths
    user := redact state.user secretPaths
    applies := state.registration.applies
    resolved := redact state.resolved secretPaths
    secretPaths := secretPaths
    secretSet := secretPaths.map (hasPath state.resolved)
    userPresent := state.userPresent }

end Tessivum.Settings
