/-
Tessivum.Storage.Registry — the registry of key/value domains
(`src/storage.rs`).

A domain is one document of a backend. The registry opens a domain once under
the name its backend is registered by, and everybody who opens it gets the same
`KvDomain`, which holds the document in memory.

Backends are objects. One may be registered under several names, and `disk` has
the documents of each by its number. A backend loads and persists atomically,
or fails without effect, with an error of its own.

The maps of a document are lists of pairs that are written in place, so a
change that writes what is there already gives the same list. A number of JSON
is always finite, so every value passes `validate_value`. Updates sent to
subscribers decide nothing and are left out.

`log` is no field of the source: the writes that were persisted.
-/
import Tessivum.Library.Keyed
import Tessivum.Library.Result
import Tessivum.Protocol.Value

namespace Tessivum.Storage

open Library Protocol

inductive StorageError where
  | unsafeName (name : String)
  | duplicateBackend (name : String)
  | backendNotFound (name : String)
  | versionConflict (expected actual : Nat)
  | closed
  | persistence (reason : String)
  | invalidValue
  deriving DecidableEq, Repr

/-- The greatest `u64`. -/
def u64Max : Nat := 2 ^ 64 - 1

/-! ## Documents -/

abbrev Units := List (String × Value)

structure StorageDocument where
  version : Nat
  tables : List (String × Units)
  deriving DecidableEq, Repr

def StorageDocument.empty (version : Nat) : StorageDocument := { version, tables := [] }

def isLower (c : Char) : Bool := 'a' ≤ c && c ≤ 'z'

def isDigit (c : Char) : Bool := '0' ≤ c && c ≤ '9'

/-- The loop of `ensure_name` after the first byte. `separator` says that
the last byte was a hyphen. -/
def safeRest : Bool → List Char → Bool
  | separator, [] => !separator
  | separator, c :: rest =>
    if isLower c || isDigit c then safeRest false rest
    else if c == '-' && !separator then safeRest true rest
    else false

/-- The test of `ensure_name`. -/
def safeName (name : String) : Bool :=
  match name.toList with
  | [] => false
  | c :: rest => isLower c && safeRest false rest

def ensureName (name : String) : Except StorageError Unit :=
  failIf (!safeName name) (.unsafeName name)

variable (document : StorageDocument)

def validateDocument : Except StorageError Unit := do
  failIf (document.version = 0) .invalidValue
  forAllOk (fun table : String × Units => do
    ensureName table.1
    forAllOk (fun unit : String × Value => ensureName unit.1) table.2) document.tables

/-- `KvDomain::get`, of the document. -/
def StorageDocument.get (table unit : String) : Option Value :=
  (document.tables.lookup table).bind fun units => units.lookup unit

/-- One change: the value a `put` writes, or none for a `remove`. -/
structure WriteOp where
  table : String
  unit : String
  value : Option Value
  deriving DecidableEq, Repr

/-- The units of a table in a document, none if there is no such table. -/
def StorageDocument.units (table : String) : Units :=
  (document.tables.lookup table).getD []

/-- The change of `put` or `remove` on a document. A table whose last unit
goes is removed. -/
def WriteOp.change (op : WriteOp) (document : StorageDocument) : StorageDocument :=
  match op.value with
  | some value =>
    { document with
      tables := Keyed.set op.table (Keyed.set op.unit value (document.units op.table))
        document.tables }
  | none =>
    if (document.tables.lookup op.table).isNone then document
    else
      let units := Keyed.without op.unit (document.units op.table)
      { document with
        tables := if units.isEmpty then Keyed.without op.table document.tables
          else Keyed.set op.table units document.tables }

/-! ## The registry -/

/-- A write past its checks, which holds the gate: what it persists, and
whether that is done. -/
structure Commit where
  op : WriteOp
  document : StorageDocument
  revision : Nat
  persisted : Bool
  deriving DecidableEq, Repr

structure KvDomain where
  backend : Nat
  name : String
  document : StorageDocument
  revision : Nat
  accepting : Bool
  writer : Option Commit
  deriving DecidableEq, Repr

/-- An `open` that holds the gate, with what the backend has loaded. -/
structure OpenCall where
  backendName : String
  domain : String
  version : Nat
  backend : Nat
  loaded : Option StorageDocument
  deriving DecidableEq, Repr

/-- A call of `shutdown`: before it copies the map of domains, or closing
one after the other. -/
inductive Shutdown where
  | copying
  | closing (rest : List Nat)
  | waiting (k : Nat) (rest : List Nat)
  deriving DecidableEq, Repr

/-- A persisted write. -/
structure Write where
  domain : Nat
  backend : Nat
  name : String
  op : WriteOp
  deriving DecidableEq, Repr

/-- The registry, its domains and the backends. `stopped` says that a
`shutdown` has returned. -/
structure StorageSystem where
  disk : Nat → String → Option StorageDocument
  backends : List (String × Nat)
  opened : List ((String × String) × Nat)
  domains : List KvDomain
  opening : Option OpenCall
  closed : Bool
  shutdowns : List Shutdown
  stopped : Bool
  log : List Write

/-- A new registry over backends that hold documents already. -/
def StorageSystem.start (disk : Nat → String → Option StorageDocument) : StorageSystem :=
  { disk, backends := [], opened := [], domains := [], opening := none, closed := false
    shutdowns := [], stopped := false, log := [] }

inductive StorageStep where
  | registerBackend (name : String) (backend : Nat)
  | openBegin (backendName domain : String) (version : Nat)
  | openLoad (loads : Except StorageError Unit)
  | openFinish
  | write (k : Nat) (op : WriteOp)
  | persist (k : Nat) (persists : Except StorageError Unit)
  | finish (k : Nat)
  | close (k : Nat)
  | shutdown
  | shutdownStep (i : Nat)
  deriving DecidableEq

inductive StorageCall where
  | registerBackend
  | open
  | write (k : Nat) (op : WriteOp)
  | shutdown
  deriving DecidableEq

/-- What a caller gets at the step its call returns at. -/
structure Answer where
  call : StorageCall
  result : Except StorageError Unit
  deriving DecidableEq

variable (s : StorageSystem)

def StorageSystem.registerBackend (name : String) (backend : Nat) :
    Except StorageError StorageSystem := do
  ensureName name
  failIf s.closed .closed
  failIf ((s.backends.lookup name).isSome) (.duplicateBackend name)
  .ok { s with backends := s.backends ++ [(name, backend)] }

/-- `open` under its gate, up to the load: the domain that is there, or the
call that goes on. -/
def StorageSystem.openBegin (backendName domain : String) (version : Nat) :
    Except StorageError (Nat ⊕ OpenCall) := do
  ensureName backendName
  ensureName domain
  failIf (version = 0) (.versionConflict 1 0)
  failIf s.closed .closed
  match s.opened.lookup (backendName, domain) with
  | some k =>
    let actual := (s.domains[k]?.map (·.document.version)).getD version
    failIf (actual ≠ version) (.versionConflict version actual)
    .ok (.inl k)
  | none =>
    match s.backends.lookup backendName with
    | none => .error (.backendNotFound backendName)
    | some backend => .ok (.inr { backendName, domain, version, backend, loaded := none })

/-- The checks of `open` on what was loaded. -/
def OpenCall.check (call : OpenCall) (document : StorageDocument) :
    Except StorageError KvDomain := do
  validateDocument document
  failIf (document.version ≠ call.version) (.versionConflict call.version document.version)
  .ok { backend := call.backend, name := call.domain, document, revision := 0
        accepting := true, writer := none }

/-- What the backend answers to the load of an `open`. -/
def StorageSystem.openLoad (loads : Except StorageError Unit) : Option Answer × StorageSystem :=
  match s.opening with
  | none => (none, s)
  | some call =>
    if call.loaded.isSome then (none, s)
    else
      match loads with
      | .error err => (some ⟨.open, .error err⟩, { s with opening := none })
      | .ok () =>
        (none, { s with
          opening := some { call with
            loaded := some ((s.disk call.backend call.domain).getD (.empty call.version)) } })

/-- What `open` does with what was loaded. -/
def StorageSystem.openFinish : Option Answer × StorageSystem :=
  match s.opening with
  | none => (none, s)
  | some call =>
    match call.loaded with
    | none => (none, s)
    | some document =>
      match call.check document with
      | .error err => (some ⟨.open, .error err⟩, { s with opening := none })
      | .ok domain =>
        (some ⟨.open, .ok ()⟩, { s with
          opening := none
          opened := s.opened ++ [((call.backendName, call.domain), s.domains.length)]
          domains := s.domains ++ [domain] })

/-- The checks of `put` and `remove` under the write gate: nothing to do,
or the write that goes on. -/
def KvDomain.beginWrite (d : KvDomain) (op : WriteOp) : Except StorageError (Option Commit) := do
  ensureName op.table
  ensureName op.unit
  failIf (!d.accepting) .closed
  let document := op.change d.document
  validateDocument document
  if document.tables = d.document.tables then .ok none
  else do
    failIf (u64Max < d.revision + 1) (.persistence "revision exhausted")
    .ok (some { op, document, revision := d.revision + 1, persisted := false })

def StorageSystem.setDomain (k : Nat) (f : KvDomain → KvDomain) : StorageSystem :=
  { s with domains := s.domains.modify k f }

/-- `put` or `remove` at the write gate, up to the backend. -/
def StorageSystem.write (k : Nat) (op : WriteOp) : Option Answer × StorageSystem :=
  match s.domains[k]? with
  | none => (none, s)
  | some d =>
    if d.writer.isSome then (none, s)
    else
      match d.beginWrite op with
      | .error err => (some ⟨.write k op, .error err⟩, s)
      | .ok none => (some ⟨.write k op, .ok ()⟩, s)
      | .ok (some commit) => (none, s.setDomain k fun d => { d with writer := some commit })

/-- What the backend answers to a write. -/
def StorageSystem.persist (k : Nat) (persists : Except StorageError Unit) :
    Option Answer × StorageSystem :=
  match s.domains[k]? with
  | none => (none, s)
  | some d =>
    match d.writer with
    | none => (none, s)
    | some commit =>
      if commit.persisted then (none, s)
      else
        match persists with
        | .error err =>
          (some ⟨.write k commit.op, .error err⟩, s.setDomain k fun d => { d with writer := none })
        | .ok () =>
          (none, { s.setDomain k fun d =>
              { d with writer := some { commit with persisted := true } } with
            disk := fun backend name =>
              if backend = d.backend ∧ name = d.name then some commit.document
              else s.disk backend name
            log := s.log
              ++ [{ domain := k, backend := d.backend, name := d.name, op := commit.op }] })

/-- A write that is persisted gets into memory, and its call returns. -/
def StorageSystem.finish (k : Nat) : Option Answer × StorageSystem :=
  match s.domains[k]?.bind (·.writer) with
  | some commit =>
    if commit.persisted then
      (some ⟨.write k commit.op, .ok ()⟩, s.setDomain k fun d =>
        { d with document := commit.document, revision := commit.revision, writer := none })
    else (none, s)
  | none => (none, s)

/-- A `shutdown` goes on. It waits for the write gate of each domain it has
closed. -/
def StorageSystem.shutdownStep (i : Nat) : Option Answer × StorageSystem :=
  match s.shutdowns[i]? with
  | none => (none, s)
  | some .copying =>
    (none, { s with shutdowns := s.shutdowns.set i (.closing (s.opened.map (·.2))) })
  | some (.closing (k :: rest)) =>
    (none, { s.setDomain k fun d => { d with accepting := false } with
      shutdowns := s.shutdowns.set i (.waiting k rest) })
  | some (.closing []) =>
    (some ⟨.shutdown, .ok ()⟩, { s with shutdowns := s.shutdowns.eraseIdx i, stopped := true })
  | some (.waiting k rest) =>
    if (s.domains[k]?.bind (·.writer)).isNone then
      (none, { s with shutdowns := s.shutdowns.set i (.closing rest) })
    else (none, s)

/-- One step, with the answer of the call that returns at it, if one does.
`open` holds its gate from the checks to its end, and a write that of its
domain. -/
def StorageSystem.advance : StorageStep → Option Answer × StorageSystem
  | .registerBackend name backend =>
    match s.registerBackend name backend with
    | .ok s => (some ⟨.registerBackend, .ok ()⟩, s)
    | .error err => (some ⟨.registerBackend, .error err⟩, s)
  | .openBegin backendName domain version =>
    if s.opening.isSome then (none, s)
    else
      match s.openBegin backendName domain version with
      | .ok (.inr call) => (none, { s with opening := some call })
      | .ok (.inl _) => (some ⟨.open, .ok ()⟩, s)
      | .error err => (some ⟨.open, .error err⟩, s)
  | .openLoad loads => s.openLoad loads
  | .openFinish => s.openFinish
  | .write k op => s.write k op
  | .persist k persists => s.persist k persists
  | .finish k => s.finish k
  | .close k => (none, s.setDomain k fun d => { d with accepting := false })
  | .shutdown => (none, { s with closed := true, shutdowns := s.shutdowns ++ [.copying] })
  | .shutdownStep i => s.shutdownStep i

def StorageSystem.step (i : StorageStep) : StorageSystem := (s.advance i).2

def StorageSystem.answer (i : StorageStep) : Option Answer := (s.advance i).1

def StorageSystem.run (steps : List StorageStep) : StorageSystem :=
  steps.foldl StorageSystem.step s

end Tessivum.Storage
