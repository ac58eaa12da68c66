/-
Tessivum.Code.Execute — a run of the code runtime and the pipes of its worker
(`ProcessCodeRuntime::execute`, `Reply::write_to` and `write` of
`src/code_runtime.rs`, where the host is not Windows).

The loop sees a cancellation, a disposal and the deadline between its arms. The
boot write, a reply inside its arm and the drains behind the loop wait for the
pipes alone.
-/
import Tessivum.Library.Machine

namespace Tessivum.Code

open Library

inductive Stream
  | output
  | errors
  deriving DecidableEq

inductive Pipe
  | stdin
  | stream (stream : Stream)
  deriving DecidableEq

/-- `CodeRunFailureKind`. -/
inductive FailureKind
  | exception
  | invalidOutput
  | outputLimit
  | timeout
  | abort
  | workerExit
  deriving DecidableEq

inductive Outcome
  | success
  | failure (kind : FailureKind)
  deriving DecidableEq

/-- What `frame` reads of a line; of a log the size of its JSON text. -/
inductive Frame
  | log (bytes : Nat)
  | call
  | done (outcome : Outcome)
  | malformed

/-- A line as `next_line` gives it: with the size of its JSON text, or not UTF-8. -/
inductive Line
  | text (bytes : Nat) (frame : Frame)
  | unreadable

/-- A byte on its way to the host: the line it makes so far, and whether it ends it. -/
structure Piece where
  line : Line
  ends : Bool

/-- The host's end of a stream: what the pipe and the buffer hold, and a line without its
newline. -/
structure Reader where
  unread : List Piece
  rest : Option Line
  isOpen : Bool

/-- The worker, and the processes it has started. -/
inductive Party
  | worker
  | descendants
  deriving DecidableEq

/-- The sizes of `Ledger`. -/
structure Ledger where
  max : Nat
  bytes : Nat
  entries : Nat
  overflow : Bool

def Ledger.log (l : Ledger) (bytes : Nat) : Bool × Ledger :=
  let separator := if 0 < l.entries then 1 else 0
  if l.overflow = true ∨ l.max - (l.bytes + separator) < bytes then
    (false, { l with overflow := true })
  else (true, { l with bytes := l.bytes + (bytes + separator), entries := l.entries + 1 })

/-- Where `execute` is. A reply is written as the boot message is, and both lead to the loop. -/
inductive Phase
  | spawned
  | writing (left : Nat)
  | looping
  | draining (stream : Stream)
  | returned
  deriving DecidableEq

structure CodeRun where
  phase : Phase
  outcome : Option Outcome
  ledger : Ledger
  /-- The bytes in the worker's standard input. -/
  stdin : Nat
  readers : Stream → Reader
  /-- The ends of the pipes that a process holds. -/
  ends : Party → Pipe → Bool
  running : Bool
  exited : Bool
  pending : Nat
  /-- The deadline is set behind the boot write. -/
  booted : Bool
  cancelled : Bool
  disposed : Bool
  expired : Bool

inductive HostStep
  | boot (length : Nat)
  | write (bytes : Nat)
  | writeFails
  | written
  | next (stream : Stream)
  | reply (length : Nat)
  | waited
  | deadline
  | cancelled
  | disposed
  | leave
  | drained (stream : Stream)

inductive ProcessStep
  | read (bytes : Nat)
  | emit (stream : Stream) (piece : Piece)
  | close (pipe : Pipe)

inductive CodeStep
  | host (step : HostStep)
  | process (party : Party) (step : ProcessStep)
  | fork
  | exit
  | cancel
  | dispose
  | expire

-- `capacity` is what fits into a pipe, with the buffer of its reader
variable (capacity : Pipe → Nat) (s : CodeRun)

/-- Some process holds the end. -/
def CodeRun.holds (pipe : Pipe) : Bool := s.ends .worker pipe || s.ends .descendants pipe

def CodeRun.fail (kind : FailureKind) : CodeRun := { s with outcome := some (.failure kind) }

def CodeRun.setReader (stream : Stream) (r : Reader) : CodeRun :=
  { s with readers := Function.update s.readers stream r }

def CodeRun.log (bytes : Nat) : CodeRun :=
  let (fits, ledger) := s.ledger.log bytes
  let s := { s with ledger }
  if fits then s else s.fail .outputLimit

/-- A line in the loop. -/
def CodeRun.accept (stream : Stream) : Line → CodeRun
  | .unreadable => s.fail .workerExit
  | .text bytes frame =>
    match stream, frame with
    | .errors, _ => s.log bytes
    | .output, .log bytes => s.log bytes
    | .output, .call => { s with pending := s.pending + 1 }
    | .output, .done outcome => { s with outcome := some outcome }
    | .output, .malformed => s.fail .invalidOutput

/-- A line in a drain. -/
def CodeRun.keep (stream : Stream) : Line → CodeRun
  | .unreadable => s.setReader stream { s.readers stream with isOpen := false }
  | .text bytes _ => { s with ledger := (s.ledger.log bytes).2 }

/-- The condition of the `while`. -/
def CodeRun.goesOn : Bool :=
  s.phase = .looping && s.outcome = none
    && !(s.exited && !(s.readers .output).isOpen && !(s.readers .errors).isOpen)

/-- The host waits for a line of the stream. -/
def CodeRun.reads (stream : Stream) : Bool :=
  (s.readers stream).isOpen && (s.goesOn || s.phase = .draining stream)

def CodeRun.took (stream : Stream) (r : Reader) (line : Line) : CodeRun :=
  let s := s.setReader stream r
  if s.phase = .draining stream then s.keep stream line else s.accept stream line

/-- `next_line` goes on by a byte, or sees the end of the stream. -/
def CodeRun.next (stream : Stream) : Option CodeRun :=
  let r := s.readers stream
  match r.unread with
  | piece :: unread =>
    if piece.ends then some (s.took stream { r with unread, rest := none } piece.line)
    else some (s.setReader stream { r with unread, rest := some piece.line })
  | [] =>
    if s.holds (.stream stream) then none
    else
      match r.rest with
      | none => some (s.setReader stream { r with isOpen := false })
      | some line => some (s.took stream { r with rest := none } line)

/-- The worker is dead, and its ends are closed. -/
def CodeRun.exit : CodeRun :=
  { s with running := false, ends := Function.update s.ends .worker fun _ => false }

/-- A step of the host, where it is enabled. -/
def CodeRun.host : HostStep → Option CodeRun
  | .boot length => if s.phase = .spawned then some { s with phase := .writing length } else none
  | .write bytes =>
    match s.phase with
    | .writing left =>
      if s.holds .stdin = true ∧ 0 < bytes ∧ bytes ≤ left
          ∧ s.stdin + bytes ≤ capacity .stdin then
        some { s with phase := .writing (left - bytes), stdin := s.stdin + bytes }
      else none
    | _ => none
  | .writeFails =>
    match s.phase with
    | .writing (_ + 1) =>
      if s.holds .stdin then none
      else some { s.fail .workerExit with phase := .looping, booted := true }
    | _ => none
  | .written =>
    if s.phase = .writing 0 then some { s with phase := .looping, booted := true } else none
  | .next stream => if s.reads stream then s.next stream else none
  | .reply length =>
    if s.goesOn = true ∧ 0 < s.pending then
      some { s with phase := .writing length, pending := s.pending - 1 }
    else none
  | .waited =>
    if s.goesOn = true ∧ s.exited = false ∧ s.running = false then
      some { s with exited := true }
    else none
  | .deadline => if s.goesOn && s.expired then some (s.fail .timeout) else none
  | .cancelled => if s.goesOn && s.cancelled then some (s.fail .abort) else none
  | .disposed => if s.goesOn && s.disposed then some (s.fail .abort) else none
  | .leave =>
    -- the worker is killed where it has not exited, and the pending calls are dropped
    if s.phase = .looping ∧ s.goesOn = false then
      some { s.exit with phase := .draining .output, pending := 0
                         outcome := some (s.outcome.getD (.failure .workerExit)) }
    else none
  | .drained stream =>
    if s.phase = .draining stream ∧ (s.readers stream).isOpen = false then
      some { s with phase := if stream = .output then .draining .errors else .returned }
    else none

/-- A step of a process, which reads and writes what its ends let it. -/
def CodeRun.process (party : Party) : ProcessStep → Option CodeRun
  | .read bytes =>
    if s.ends party .stdin then some { s with stdin := s.stdin - bytes } else none
  | .emit stream piece =>
    let r := s.readers stream
    if s.ends party (.stream stream) = true ∧ r.unread.length < capacity (.stream stream) then
      some (s.setReader stream { r with unread := r.unread ++ [piece] })
    else none
  | .close pipe =>
    some { s with ends := Function.update s.ends party
                    (Function.update (s.ends party) pipe false) }

def CodeRun.apply : CodeStep → Option CodeRun
  | .host step => s.host capacity step
  | .process party step => s.process capacity party step
  | .fork => some { s with ends := Function.update s.ends .descendants s.holds }
  | .exit => some s.exit
  | .cancel => some { s with cancelled := true }
  | .dispose => some { s with disposed := true }
  | .expire => if s.booted then some { s with expired := true } else none

def CodeRun.step (step : CodeStep) : CodeRun := (s.apply capacity step).getD s

/-- A run in front of its boot write, with a worker that holds its three pipes. -/
def CodeRun.spawn (max : Nat) : CodeRun :=
  { phase := .spawned, outcome := none
    ledger := { max, bytes := 2, entries := 0, overflow := false }
    stdin := 0, readers := fun _ => { unread := [], rest := none, isOpen := true }
    ends := fun party _ => party = .worker
    running := true, exited := false, pending := 0, booted := false
    cancelled := false, disposed := false, expired := false }

def CodeRun.stopped : Bool := s.cancelled || s.disposed || s.expired

/-- Where the run is to stop, some step of the host is enabled. -/
def CodeRun.Leavable : Prop :=
  s.stopped = true → s.phase ≠ .returned → ∃ step, (s.host capacity step).isSome = true

end Tessivum.Code
