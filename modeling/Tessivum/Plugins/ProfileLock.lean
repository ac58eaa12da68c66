/-
Tessivum.Plugins.ProfileLock — the lock of a plugin profile directory
(`ProfileLock` of `src/plugin_manager.rs`).

The lock is a directory whose `owner.json` names the process and the nonce of
its holder. Each filesystem call is one step, and so is the test of an owner's
process. A process may crash at any time, and is then reported inactive.

The `n`-th call of `acquire` is known by `n`, which stands for its nonce. A
lock directory that is taken over is renamed to a name derived from the nonce
of its owner; the directories under such names are `stale` here.
-/
import Tessivum.Library.Keyed
import Tessivum.Library.Machine

namespace Tessivum.Plugins

open Library

/-! ## The directory -/

/-- What `owner.json` holds. -/
structure ProfileLockOwner where
  pid : Nat
  nonce : Nat
  deriving DecidableEq, Repr

/-- A lock directory, with its `owner.json` once that is written. -/
structure LockDir where
  creator : Nat
  owner : Option ProfileLockOwner
  deriving DecidableEq, Repr

/-! ## Calls of `acquire` -/

/-- Where a call of `acquire` is, and the lock it gave: the filesystem call
that comes next. -/
inductive Stage where
  | creating
  | writing
  | cleaning
  | sweeping
  | reading
  | testing (owner : ProfileLockOwner)
  | takingOver (owner : ProfileLockOwner)
  | held
  | releasing
  | removing
  | done
  deriving DecidableEq, Repr

/-- One call, with the stale locks it has renamed. -/
structure Attempt where
  pid : Nat
  stage : Stage
  staleLocks : List Nat
  deriving DecidableEq, Repr

/-- The profile directory and the processes that use it. -/
structure LockSystem where
  lock : Option LockDir
  stale : List (Nat × LockDir)
  attempts : List Attempt
  crashed : List Nat
  deriving DecidableEq, Repr

def LockSystem.start : LockSystem :=
  { lock := none, stale := [], attempts := [], crashed := [] }

/-- One step: a new call, the next filesystem call of one, a drop of its
lock, or a crash of a process. -/
inductive LockStep where
  | acquire (pid : Nat)
  | advance (n : Nat) (fails : Bool)
  | drop (n : Nat)
  | crash (pid : Nat)
  deriving DecidableEq, Repr

variable (s : LockSystem)

/-- `profile_lock_owner_is_active`. -/
def LockSystem.isActive (pid : Nat) : Bool := !s.crashed.contains pid

def LockSystem.setStage (n : Nat) (stage : Stage) : LockSystem :=
  { s with attempts := s.attempts.modify n fun a => { a with stage } }

/-- A directory may be renamed onto a name that is free, or names an empty
directory. -/
def LockSystem.targetFree (nonce : Nat) : Bool :=
  match s.stale.lookup nonce with
  | none => true
  | some dir => dir.owner.isNone

def LockSystem.rename (n : Nat) (nonce : Nat) : LockSystem :=
  match s.lock with
  | none => s.setStage n .creating
  | some dir =>
    if s.targetFree nonce then
      { s with
        lock := none
        stale := (nonce, dir) :: Keyed.without nonce s.stale
        attempts := s.attempts.modify n fun a =>
          { a with stage := .creating, staleLocks := a.staleLocks ++ [nonce] } }
    else s.setStage n .creating

/-- The stage after the lock is written, or one stale lock is removed. -/
def sweepStage (staleLocks : List Nat) : Stage :=
  if staleLocks.isEmpty then .held else .sweeping

/-- The next filesystem call of a call that is `a` now. A lock that is not
returned because of an error is dropped. -/
def LockSystem.advance (n : Nat) (a : Attempt) (fails : Bool) : LockSystem :=
  match a.stage with
  | .creating =>
    if fails then s.setStage n .done
    else
      match s.lock with
      | none => { s with lock := some { creator := n, owner := none } }.setStage n .writing
      | some _ => s.setStage n .reading
  | .writing =>
    match fails, s.lock with
    | false, some dir =>
      { s with
        lock := some { dir with owner := some { pid := a.pid, nonce := n } } }.setStage n
          (sweepStage a.staleLocks)
    | _, _ => s.setStage n .cleaning
  | .cleaning =>
    { s with lock := if fails then s.lock else none }.setStage n .done
  | .sweeping =>
    match fails, a.staleLocks with
    | false, nonce :: rest =>
      { s with
        stale := Keyed.without nonce s.stale
        attempts := s.attempts.modify n fun a =>
          { a with stage := sweepStage rest, staleLocks := rest } }
    | false, [] => s.setStage n .held
    | true, _ => s.setStage n .releasing
  | .reading =>
    match fails, s.lock.bind (·.owner) with
    | false, some owner => s.setStage n (.testing owner)
    | _, _ => s.setStage n .done
  | .testing owner =>
    s.setStage n (if s.isActive owner.pid then .done else .takingOver owner)
  | .takingOver owner => if fails then s.setStage n .done else s.rename n owner.nonce
  | .releasing =>
    match fails, s.lock.bind (·.owner) with
    | false, some owner => s.setStage n (if owner.nonce = n then .removing else .done)
    | _, _ => s.setStage n .done
  | .removing =>
    { s with lock := if fails then s.lock else none }.setStage n .done
  | .held | .done => s

def LockSystem.step : LockStep → LockSystem
  | .acquire pid =>
    if s.isActive pid then
      { s with attempts := s.attempts ++ [{ pid, stage := .creating, staleLocks := [] }] }
    else s
  | .advance n fails =>
    match s.attempts[n]? with
    | some a => if s.isActive a.pid then s.advance n a fails else s
    | none => s
  | .drop n =>
    match s.attempts[n]? with
    | some a =>
      if s.isActive a.pid ∧ a.stage = .held then s.setStage n .releasing else s
    | none => s
  | .crash pid => { s with crashed := pid :: s.crashed }

def LockSystem.run (steps : List LockStep) : LockSystem :=
  steps.foldl LockSystem.step s

end Tessivum.Plugins
