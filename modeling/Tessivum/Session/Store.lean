/-
Tessivum.Session.Store — live sessions: admission of one event, and the
store that creates sessions (`Session` and `SessionStore` of
`src/session.rs`).

A live session holds its header and the state derived so far. Writers
are serialised by an async gate, so a call runs against one state of the
session: the checks of `append_under_gate` read it, the persistence
append is the commit point, and the same state is then extended. The
broadcast to subscribers has no effect on the session and is left out.

`append_under_gate` has its own order of checks, which is not the order
of `build_state`: the surface comparison comes first, and the inbox is
replayed only when the event is an inbox event.
-/
import Tessivum.Session.Persistence

namespace Tessivum.Session

open Library Protocol

/-- A live session over its backend's state. -/
structure Live (σ : Type) where
  header : SessionHeader
  state : SessionState
  disk : σ

/-! ## Admission -/

def surfaceSeqs (surface : List SurfaceMessage) : List Nat :=
  surface.map SurfaceMessage.eventSeq

def SessionState.deriveMessages (state : SessionState) : List Message :=
  state.surface.map SurfaceMessage.message

def checkSurface (surface : List SurfaceMessage) : Option (List Nat) → Except SessionError Unit
  | none => .ok ()
  | some expected =>
    failIf (surfaceSeqs surface ≠ expected) (.staleSurface expected (surfaceSeqs surface))

/-- The inbox half of admission: an inbox event must apply to the inbox
of the whole log before it. -/
def checkInbox (S : Serde) (events : List SessionEvent) (e : SessionEvent) :
    Except SessionError Unit :=
  if isInboxEvent e then do
    let inbox ← replayInbox S events
    let _ ← inbox.apply S e
    .ok ()
  else .ok ()

/-- The checks of `append_under_gate` before the commit point, giving the
event's projection. -/
def checkAppend (S : Serde) (header : SessionHeader) (state : SessionState) (e : SessionEvent)
    (expectedSurface : Option (List Nat)) : Except SessionError (Option SurfaceMessage) := do
  checkSurface state.surface expectedSurface
  liftProtocol (e.validate S)
  checkSeq state.events e
  validateSeedBoundary header state e
  validateSources e state.events
  let projection ← decodeSurfaceEvent S e
  validateSurfaceOperation e projection state.surface
  checkInbox S state.events e
  .ok projection

section Calls

variable {σ : Type} (S : Serde) (P : Persistence σ)

variable (live : Live σ)

def Live.appendUnderGate (e : SessionEvent) (expectedSurface : Option (List Nat))
    (token : Cancellation) : Except SessionError Unit × Live σ :=
  let checks := do
    checkCancellation token 0
    checkAppend S live.header live.state e expectedSurface
  match checks with
  | .error err => (.error err, live)
  | .ok projection =>
    match P.append live.disk live.header.id e (token.after 1) with
    | (.error err, disk) => (.error err, { live with disk })
    | (.ok (), disk) => (.ok (), { live with disk, state := live.state.record e projection })

def Live.appendInner (e : SessionEvent) (expectedSurface : Option (List Nat)) (token : Cancellation)
    : Except SessionError Unit × Live σ :=
  match checkCancellation token 0 with
  | .error err => (.error err, live)
  | .ok () => live.appendUnderGate S P e expectedSurface (token.after 1)

def Live.append (e : SessionEvent) (token : Cancellation) : Except SessionError Unit × Live σ :=
  live.appendInner S P e none token

def Live.appendIfSurface (e : SessionEvent) (expectedSurface : List Nat) (token : Cancellation) :
    Except SessionError Unit × Live σ :=
  live.appendInner S P e (some expectedSurface) token

/-- `Session::append_next_if_surface`. The event is built from the
sequence number read under the gate; the call returns that number. -/
def Live.appendNextIfSurface (build : Nat → SessionEvent) (expectedSurface : Option (List Nat))
    (token : Cancellation) : Except SessionError Nat × Live σ :=
  let checks := do
    checkCancellation token 0
    checkCancellation token 1
    nextSeq live.state.events
  match checks with
  | .error err => (.error err, live)
  | .ok seq =>
    match live.appendUnderGate S P (build seq) expectedSurface (token.after 2) with
    | (.error err, live') => (.error err, live')
    | (.ok (), live') => (.ok seq, live')

def Live.appendNext (build : Nat → SessionEvent) (token : Cancellation) :
    Except SessionError Nat × Live σ :=
  live.appendNextIfSurface S P build none token

/-! ## Calls -/

/-- One call on a live session. -/
inductive Call where
  | append (e : SessionEvent) (token : Cancellation)
  | appendNext (build : Nat → SessionEvent) (token : Cancellation)
  | appendIfSurface (e : SessionEvent) (expectedSurface : List Nat) (token : Cancellation)
  | appendNextIfSurface (build : Nat → SessionEvent) (expectedSurface : Option (List Nat))
      (token : Cancellation)

/-- The event a call hands to admission: the caller's, or the one built
from the next sequence number. -/
def Call.event : Call → SessionEvent
  | .append e _ => e
  | .appendIfSurface e _ _ => e
  | .appendNext build _ => build ((nextSeq live.state.events).toOption.getD 0)
  | .appendNextIfSurface build _ _ => build ((nextSeq live.state.events).toOption.getD 0)

/-- Run one call, with the sequence number a successful call settles on
dropped. -/
def Live.call : Call → Except SessionError Unit × Live σ
  | .append e token => live.append S P e token
  | .appendNext build token =>
    let (result, live') := live.appendNext S P build token
    (result.map fun _ => (), live')
  | .appendIfSurface e expected token => live.appendIfSurface S P e expected token
  | .appendNextIfSurface build expected token =>
    let (result, live') := live.appendNextIfSurface S P build expected token
    (result.map fun _ => (), live')

end Calls

/-! ## The store -/

/-- The service-owned collection of live sessions: which ids are live,
and the state of the backend the sessions share. -/
structure Store (σ : Type) where
  isLive : SessionId → Bool
  disk : σ

section StoreCalls

variable {σ : Type} (S : Serde) (P : Persistence σ)

def Store.ensureNotLive (store : Store σ) (id : SessionId) : Except SessionError Unit :=
  failIf (store.isLive id = true) (.duplicateLive id)

/-- `SessionStore::insert_live`, over the backend state the session was
built on. -/
def Store.insertLive (store : Store σ) (live : Live σ) :
    Except SessionError (Live σ) × Store σ :=
  match store.ensureNotLive live.header.id with
  | .error err => (.error err, { store with disk := live.disk })
  | .ok () => (.ok live, { isLive := Function.update store.isLive live.header.id true
                           disk := live.disk })

/-- `SessionStore::create`. The session is built from the empty log after
the backend has committed it. -/
def Store.create (store : Store σ) (header : SessionHeader) (token : Cancellation) :
    Except SessionError (Live σ) × Store σ :=
  let checks := do
    checkCancellation token 0
    validateHeader header
    failIf (header.seedLength.getD 0 ≠ 0) .seedRequiresEvents
    store.ensureNotLive header.id
  match checks with
  | .error err => (.error err, store)
  | .ok () =>
    match P.create store.disk header (token.after 1) with
    | (.error err, disk) => (.error err, { store with disk })
    | (.ok (), disk) =>
      match buildState S header [] with
      | .error err => (.error err, { store with disk })
      | .ok state => store.insertLive { header, state, disk }

/-- `SessionStore::create_seeded`. The state is built from the seed
before anything is committed. -/
def Store.createSeeded (store : Store σ) (header : SessionHeader)
    (seedEvents : List SessionEvent) (token : Cancellation) :
    Except SessionError (Live σ) × Store σ :=
  let checks := do
    checkCancellation token 0
    validateHeader header
    failIf (header.seedLength ≠ some seedEvents.length)
      (.invalidSeedLength (header.seedLength.getD 0) seedEvents.length)
    let state ← buildState S header seedEvents
    store.ensureNotLive header.id
    .ok state
  match checks with
  | .error err => (.error err, store)
  | .ok state =>
    match P.createSeeded store.disk header seedEvents (token.after 1) with
    | (.error err, disk) => (.error err, { store with disk })
    | (.ok (), disk) => store.insertLive { header, state, disk }

end StoreCalls

end Tessivum.Session
