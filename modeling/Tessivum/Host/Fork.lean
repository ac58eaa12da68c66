/-
Tessivum.Host.Fork — forking a session at a completed turn
(`fork_session_inner` and `fork_seed` of `src/host.rs`).

The fork takes a prefix of the source's log that ends with the events after a
`turn/end`, leaves out the seed boundaries and numbers the rest anew.

What the host reads and looks up is given: the source as the query returns it,
the workspace and the mode of the child, the new id and the time. What it does
with the child once the store has made it is left out. `usize` is 64 bits wide,
so `fork_seed` never runs out of numbers.
-/
import Tessivum.Library.Keyed
import Tessivum.Library.Positions
import Tessivum.Session.ReplayTheorems

namespace Tessivum.Host

open Library Protocol Session

/-- `HostError`, as far as a fork gives it. -/
inductive ForkError where
  | invalid (code message : String)
  | session (error : SessionError)
  deriving DecidableEq, Repr

/-! ## The prefix -/

def isTurnEnd (e : SessionEvent) : Bool := e.eventType == "turn/end"

def rposition {α : Type} (p : α → Bool) (xs : List α) : Option Nat :=
  (xs.reverse.findIdx? p).map fun i => xs.length - 1 - i

/-- `at_seq > last_seq`, on optional numbers. -/
def seqAfter : Option Nat → Option Nat → Bool
  | some seq, some last => last < seq
  | some _, none => true
  | none, _ => false

variable (events : List SessionEvent)

/-- The end of turn a fork stops at: the first one from the requested
event on, or the last one if the request is open or beyond the log. -/
def forkBoundary (atSeq : Option Nat) : Except ForkError Nat :=
  let lastSeq := events.getLast?.map SessionEvent.seq
  let requested := atSeq.bind fun seq => events.findIdx? fun e => isTurnEnd e && seq ≤ e.seq
  let latest := if atSeq.isNone || seqAfter atSeq lastSeq then rposition isTurnEnd events else none
  match requested.or latest with
  | some boundary => .ok boundary
  | none =>
    .error (.invalid "FORK_UNAVAILABLE"
      (if atSeq.isSome && !seqAfter atSeq lastSeq then
        "session has not completed the requested turn"
      else "session has no completed turn to fork from"))

/-- The end of the prefix: what follows the end of turn up to the next
turn goes with it. -/
def forkEnd (boundary : Nat) : Nat :=
  boundary + 1
    + ((events.drop (boundary + 1)).takeWhile fun e => e.eventType != "turn/start").length

/-! ## The seed -/

def seedKeeps (e : SessionEvent) : Bool := e.eventType != "session/end-seed"

def forkSequences : List (Nat × Nat) :=
  events.foldl
    (fun sequences e =>
      if seedKeeps e then Keyed.set e.seq sequences.length sequences else sequences) []

def mapSources (sequences : List (Nat × Nat)) : Option (List Nat) → Option (List Nat)
  | none => none
  | some sources =>
    let mapped := sources.filterMap fun source => sequences.lookup source
    if !mapped.isEmpty || sources.isEmpty then some mapped else none

def forkEvent (sequences : List (Nat × Nat)) (e : SessionEvent) : Option SessionEvent :=
  (sequences.lookup e.seq).map fun sequence =>
    { e with seq := sequence, sourceEventSeqs := mapSources sequences e.sourceEventSeqs }

def forkSeed : List SessionEvent :=
  events.filterMap (forkEvent (forkSequences events))

/-! ## The fork -/

def forkHeader (source : SessionHeader) (childId : SessionId) (createdAt : Nat)
    (agentMode : AgentModeId) (seed : List SessionEvent) : SessionHeader :=
  { version := sessionFormatVersion
    id := childId
    createdAt
    cwd := source.cwd
    parentSession := some source.id
    seedLength := some seed.length
    origin := none
    delegationDepth := source.delegationDepth
    agentMode := some agentMode }

/-- `fork_session_inner`, from the source it has read to the child the
store makes. -/
def forkSession {σ : Type} (S : Serde) (P : Persistence σ) (store : Store σ)
    (source : SessionHeader) (events : List SessionEvent) (atSeq : Option Nat)
    (workspace : Except ForkError Unit) (childId : SessionId) (createdAt : Nat)
    (agentMode : Except ForkError AgentModeId) (token : Cancellation) :
    Except ForkError (Live σ) × Store σ :=
  let checks := do
    let boundary ← forkBoundary events atSeq
    let seed := forkSeed (events.take (forkEnd events boundary))
    workspace
    let agentMode ← agentMode
    .ok (forkHeader source childId createdAt agentMode seed, seed)
  match checks with
  | .error err => (.error err, store)
  | .ok (header, seed) =>
    match store.createSeeded S P header seed token with
    | (.error err, store) => (.error (.session err), store)
    | (.ok child, store) => (.ok child, store)

end Tessivum.Host
