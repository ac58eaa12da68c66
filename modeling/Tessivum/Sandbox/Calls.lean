/-
Tessivum.Sandbox.Calls — calls of `bash`, `write` and `edit` and their
persistent shells (`src/builtin_tools.rs`, `src/builtin_tools/model_tools.rs`)
in the host composition: sandbox, resolver and approval are there.

A call folds the mode of its session when it begins, may ask for approval, and
then starts its command or changes its file.

What a call meets outside comes with its steps: the lease, the answer of the
approval, a cancellation, and whether the process starts or the file is
written.
-/
import Tessivum.Library.Keyed
import Tessivum.Sandbox.Policy

namespace Tessivum.Sandbox

open Library Protocol

/-! ## Checks of the arguments -/

def toolError (code message : String) (details : Value) : TessivumError :=
  { code, message, phase := "tools", details }

def invalidArguments (message path : String) : TessivumError :=
  toolError "INVALID_TOOL_ARGUMENTS" message (.object [("path", .string path)])

def cancelledError : TessivumError := toolError "CANCELLED" "tool call was cancelled" .null

def checkCancelled (cancelled : Bool) : Except TessivumError Unit :=
  failIf (cancelled = true) cancelledError

variable (arguments : Value)

def requiredString (name : String) : Except TessivumError String :=
  match (arguments.get name).bind Value.asStr with
  | some text => .ok text
  | none => .error (invalidArguments (name ++ " must be a string") ("$." ++ name))

def requiredNonblank (name : String) : Except TessivumError String := do
  let text ← requiredString arguments name
  failIf (isBlank text) (invalidArguments (name ++ " must not be blank") ("$." ++ name))
  .ok text

def optionalString (name : String) : Except TessivumError (Option String) :=
  match arguments.get name with
  | none => .ok none
  | some value =>
    match value.asStr with
    | some text => .ok (some text)
    | none => .error (invalidArguments (name ++ " must be a string") ("$." ++ name))

def requestedMode : Except TessivumError (Option SandboxMode) :=
  match arguments.get "sandbox_permissions" with
  | none => .ok none
  | some value =>
    match SandboxMode.fromValue value with
    | some mode => .ok (some mode)
    | none => .error (invalidArguments "sandbox_permissions is invalid" "$.sandbox_permissions")

inductive ToolKind where
  | bash
  | write
  | edit
  deriving DecidableEq, Repr

def ToolKind.name : ToolKind → String
  | .bash => "bash"
  | .write => "write"
  | .edit => "edit"

/-- The mode a call is to run in, and whether it has to be approved. -/
structure Admission where
  mode : SandboxMode
  asks : Bool
  deriving DecidableEq, Repr

/-- `Bash::run` up to the approval. -/
def admitBash (current : SandboxMode) (arguments : Value) : Except TessivumError Admission := do
  let requested ← requestedMode arguments
  .ok { mode := requested.getD current, asks := decide (current < requested.getD current) }

/-- `allow_write` up to the approval, after its first look at the
cancellation. -/
def allowWrite (name : String) (current : SandboxMode) (arguments : Value) :
    Except TessivumError Admission := do
  let requested ← requestedMode arguments
  let justification ← optionalString arguments "justification"
  failIf (requested.isSome ≠ justification.isSome ∨ justification.any isBlank)
    (invalidArguments "sandbox_permissions and a non-blank justification must be provided together"
      "$.sandbox_permissions")
  failIf (requested = some .dangerFullAccess) (toolError "SANDBOX_MODE_UNSUPPORTED"
    "filesystem tools never permit danger-full-access; use a workspace-confined write" .null)
  if current = .workspaceWrite then do
    failIf (requested.isSome = true) (invalidArguments
      "sandbox_permissions must request a strictly wider mode" "$.sandbox_permissions")
    .ok { mode := .workspaceWrite, asks := false }
  else do
    failIf (requested ≠ some .workspaceWrite) (toolError "SANDBOX_WRITE_DENIED"
      "workspace is read-only; request workspace-write with a justification"
      (.object [("name", .string name)]))
    .ok { mode := .workspaceWrite, asks := true }

def bashCommand : Except TessivumError String := do
  let command ← requiredString arguments "command"
  failIf (isBlank command) (invalidArguments "command must not be blank" "$.command")
  .ok command

/-- The other arguments of `edit`. -/
def checkEdit : Except TessivumError Unit := do
  let _path ← requiredNonblank arguments "file_path"
  let old ← requiredString arguments "old_string"
  let new ← requiredString arguments "new_string"
  failIf (old = "") (invalidArguments "old_string must not be empty" "$.old_string")
  failIf (old = new) (invalidArguments "old_string and new_string must differ" "$.new_string")

/-- The other arguments of `write`. -/
def checkWrite : Except TessivumError Unit := do
  let _path ← requiredNonblank arguments "file_path"
  let _content ← requiredString arguments "content"
  .ok ()

/-- A call up to the approval, in a session of the mode `current`. -/
def checkCall (kind : ToolKind) (current : SandboxMode) (lease : Except TessivumError Unit)
    (cancelled : Bool) (arguments : Value) : Except TessivumError Admission :=
  match kind with
  | .bash => do
    let _command ← bashCommand arguments
    lease
    admitBash current arguments
  | .write => do
    checkWrite arguments
    checkCancelled cancelled
    allowWrite kind.name current arguments
  | .edit => do
    checkEdit arguments
    checkCancelled cancelled
    allowWrite kind.name current arguments

/-! ## Calls -/

/-- What `ToolApproval::approve` returns. -/
abbrev ApprovalAnswer : Type := Except TessivumError (Option Bool)

/-- A live persistent shell: the mode it was started in and the plan of its
process. -/
structure Shell where
  mode : SandboxMode
  plan : SandboxPlan
  deriving DecidableEq, Repr

/-- Where a call is. `job` is a background job that is to run the command;
`opening` waits for the shell of an entry, `opened` holds it. -/
inductive CallPhase where
  | asking
  | ready
  | job
  | opening (entry : Nat)
  | opened (entry : Nat) (shell : Shell)
  | running (shell : Shell)
  | finished
  | refused (error : TessivumError)

/-- A call, with the log of its session when it began and what its approval
has answered. -/
structure ToolCall where
  kind : ToolKind
  session : String
  arguments : Value
  persistent : Bool
  log : Option (List SessionEvent)
  mode : SandboxMode
  answer : Option ApprovalAnswer
  phase : CallPhase

/-- A command was started, or a file changed. -/
structure Effect where
  kind : ToolKind
  authority : SandboxMode
  plan : Option SandboxPlan
  log : Option (List SessionEvent)
  answer : Option ApprovalAnswer

/-- `PersistentShellSession`. -/
structure ShellEntry where
  enabled : Bool
  shell : Option Shell
  lock : Option Nat
  deriving DecidableEq, Repr

structure ToolSystem where
  logs : List (String × List SessionEvent)
  shells : List (String × Nat)
  entries : List ShellEntry
  calls : List ToolCall
  effects : List Effect

def ToolSystem.start : ToolSystem :=
  { logs := [], shells := [], entries := [], calls := [], effects := [] }

/-- What a step of a call meets outside: the workspace of its lease, and
whether what it does succeeds. -/
structure Outside where
  workspace : Except TessivumError Path
  outcome : Except TessivumError Unit

inductive ToolStep where
  | openSession (session : String) (events : List SessionEvent)
  | closeSession (session : String)
  | append (session : String) (event : SessionEvent)
  | enable (session : String)
  | disable (session : String)
  | dispose (entry : Nat)
  | call (kind : ToolKind) (session : String) (arguments : Value)
      (lease : Except TessivumError Unit) (cancelled : Bool)
  | answer (i : Nat) (answer : ApprovalAnswer) (cancelled : Bool)
  | advance (i : Nat) (outside : Outside)

/-! ## Admission -/

def beginCall (kind : ToolKind) (session : String) (arguments : Value) (persistent : Bool)
    (log : Option (List SessionEvent)) (lease : Except TessivumError Unit) (cancelled : Bool) :
    ToolCall :=
  match checkCall kind (sessionSandboxMode log) lease cancelled arguments with
  | .error e =>
    { kind, session, arguments, persistent, log, mode := .readOnly, answer := none
      phase := .refused e }
  | .ok admission =>
    { kind, session, arguments, persistent, log, mode := admission.mode, answer := none
      phase := if admission.asks then .asking else .ready }

/-- The answer of the approval. `write` and `edit` look at the cancellation
again. -/
def ToolCall.decide (call : ToolCall) (answer : ApprovalAnswer) (cancelled : Bool) : ToolCall :=
  { call with
    answer := some answer
    phase :=
      match answer with
      | .error e => .refused e
      | .ok approved =>
        if call.kind ≠ .bash ∧ cancelled = true then .refused cancelledError
        else if approved.getD false = true then .ready
        else .refused (toolError "TOOL_APPROVAL_DENIED" "sandbox escalation was not approved"
          (.object [("name", .string call.kind.name)])) }

/-- Where a command of `bash` is run. -/
inductive BashTarget where
  | foreground
  | background
  | persistent
  deriving DecidableEq, Repr

def persistentBashError (code message session : String) : TessivumError :=
  toolError code message (.object [("sessionId", .string session)])

def ToolCall.target (call : ToolCall) : Except TessivumError BashTarget := do
  let background ←
    match call.arguments.get "run_in_background" with
    | none => .ok false
    | some (.bool value) => .ok value
    | some _ =>
      .error (invalidArguments "run_in_background must be a boolean" "$.run_in_background")
  failIf (background = true ∧ call.persistent = true) (persistentBashError
    "PERSISTENT_SHELL_BACKGROUND_UNSUPPORTED"
    "persistent shell sessions do not support background Bash execution" call.session)
  .ok (if background then .background else if call.persistent then .persistent else .foreground)

/-! ## One step of a call -/

def shellArgv : List String :=
  ["/bin/sh", "-lc", "--", ((arguments.get "command").bind Value.asStr).getD ""]

def disabledError (session : String) : TessivumError :=
  persistentBashError "PERSISTENT_SHELL_DISABLED"
    "persistent shell is not enabled for this session" session

def mismatchError : TessivumError :=
  toolError "PERSISTENT_SHELL_SANDBOX_POLICY_MISMATCH"
    "persistent shell cannot change its fixed sandbox policy" .null

section

variable (canonicalDirectory : Path → String → Except TessivumError Path)
  (provider : Option SandboxProvider)

variable (s : ToolSystem)

def ToolSystem.setPhase (i : Nat) (call : ToolCall) (phase : CallPhase) : ToolSystem :=
  { s with calls := s.calls.set i { call with phase } }

def ToolSystem.setEntry (e : Nat) (entry : ShellEntry) : ToolSystem :=
  { s with entries := s.entries.set e entry }

def ToolSystem.perform (i : Nat) (call : ToolCall) (authority : SandboxMode)
    (plan : Option SandboxPlan) : ToolSystem :=
  let effect : Effect :=
    { kind := call.kind, authority, plan, log := call.log, answer := call.answer }
  { s.setPhase i call .finished with effects := s.effects ++ [effect] }

/-- `run_bash`, up to the start of its process. -/
def ToolSystem.runBash (i : Nat) (call : ToolCall) (outside : Outside) : ToolSystem :=
  match prepareBash canonicalDirectory provider outside.workspace call.mode
      (shellArgv call.arguments), outside.outcome with
  | .ok plan, .ok () => s.perform i call call.mode (some plan)
  | .error e, _ | .ok _, .error e => s.setPhase i call (.refused e)

/-- The shell of an entry, whose lock is free: the one that is there, if it
has the mode of the call, or a new one. -/
def ToolSystem.openShell (i : Nat) (call : ToolCall) (e : Nat) (entry : ShellEntry)
    (outside : Outside) : ToolSystem :=
  if entry.enabled = false then s.setPhase i call (.refused (disabledError call.session))
  else
    match entry.shell with
    | some shell =>
      if shell.mode = call.mode then
        (s.setEntry e { entry with lock := some i }).setPhase i call (.opened e shell)
      else s.setPhase i call (.refused mismatchError)
    | none =>
      match prepareBash canonicalDirectory provider outside.workspace call.mode ["/bin/sh", "-s"],
          outside.outcome with
      | .ok plan, .ok () =>
        (s.setEntry e
          { entry with
            shell := some { mode := call.mode, plan }
            lock := some i }).setPhase i call (.opened e { mode := call.mode, plan })
      | .error err, _ | .ok _, .error err => s.setPhase i call (.refused err)

/-- The next step of the call `i`. -/
def ToolSystem.advance (i : Nat) (call : ToolCall) (outside : Outside) : ToolSystem :=
  match call.phase with
  | .ready =>
    match call.kind with
    | .bash =>
      match call.target with
      | .error e => s.setPhase i call (.refused e)
      | .ok .foreground => s.runBash canonicalDirectory provider i call outside
      | .ok .background =>
        match outside.outcome with
        | .ok () => s.setPhase i call .job
        | .error e => s.setPhase i call (.refused e)
      | .ok .persistent =>
        match s.shells.lookup call.session with
        | some e =>
          if (s.entries[e]?.map (·.enabled)).getD false then s.setPhase i call (.opening e)
          else s.setPhase i call (.refused (disabledError call.session))
        | none => s.setPhase i call (.refused (disabledError call.session))
    | .write | .edit =>
      match outside.outcome with
      | .ok () => s.perform i call call.mode none
      | .error e => s.setPhase i call (.refused e)
  | .job => s.runBash canonicalDirectory provider i call outside
  | .opening e =>
    match s.entries[e]? with
    | none => s
    | some entry =>
      if entry.lock = none then s.openShell canonicalDirectory provider i call e entry outside
      else s
  | .opened e shell =>
    match s.entries[e]? with
    | none => s
    | some entry =>
      if entry.enabled then
        (s.setEntry e { entry with lock := none }).setPhase i call (.running shell)
      else
        (s.setEntry e { entry with shell := none, lock := none }).setPhase i call
          (.refused (disabledError call.session))
  | .running shell =>
    match outside.outcome with
    | .ok () => s.perform i call shell.mode (some shell.plan)
    | .error e => s.setPhase i call (.refused e)
  | .asking | .finished | .refused _ => s

def ToolSystem.enable (session : String) : ToolSystem :=
  match s.shells.lookup session with
  | some e => { s with entries := s.entries.modify e fun entry => { entry with enabled := true } }
  | none =>
    { s with
      shells := (session, s.entries.length) :: s.shells
      entries := s.entries ++ [{ enabled := true, shell := none, lock := none }] }

/-- `PersistentShellSessions::disable`, before it disposes the entry. -/
def ToolSystem.disable (session : String) : ToolSystem :=
  match s.shells.lookup session with
  | some e =>
    { s with
      shells := Keyed.without session s.shells
      entries := s.entries.modify e fun entry => { entry with enabled := false } }
  | none => s

/-- The shell of an entry is taken and disposed, once its lock is free. -/
def ToolSystem.dispose (e : Nat) : ToolSystem :=
  { s with
    entries := s.entries.modify e fun entry =>
      if entry.lock = none then { entry with shell := none } else entry }

def ToolSystem.step : ToolStep → ToolSystem
  | .openSession session events => { s with logs := Keyed.set session events s.logs }
  | .closeSession session => { s with logs := Keyed.without session s.logs }
  | .append session event =>
    match s.logs.lookup session with
    | some events => { s with logs := Keyed.set session (events ++ [event]) s.logs }
    | none => s
  | .enable session => s.enable session
  | .disable session => s.disable session
  | .dispose e => s.dispose e
  | .call kind session arguments lease cancelled =>
    let persistent :=
      ((s.shells.lookup session).bind fun e => s.entries[e]?.map (·.enabled)).getD false
    { s with
      calls := s.calls ++
        [beginCall kind session arguments persistent (s.logs.lookup session) lease cancelled] }
  | .answer i answer cancelled =>
    match s.calls[i]? with
    | some call =>
      match call.phase with
      | .asking => { s with calls := s.calls.set i (call.decide answer cancelled) }
      | _ => s
    | none => s
  | .advance i outside =>
    match s.calls[i]? with
    | some call => s.advance canonicalDirectory provider i call outside
    | none => s

def ToolSystem.run (steps : List ToolStep) : ToolSystem :=
  steps.foldl (ToolSystem.step canonicalDirectory provider) s

end

end Tessivum.Sandbox
