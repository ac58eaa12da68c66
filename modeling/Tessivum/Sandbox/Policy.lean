/-
Tessivum.Sandbox.Policy — sandbox modes and the preparation of a confined
command (`src/sandbox.rs`, with `session_sandbox_mode` and `prepare_bash_argv`
of `src/builtin_tools.rs`).

A mode is the most a command may do to files. A request is checked, and every
mode but `danger-full-access` goes through the provider, whose plan must claim
full enforcement.

The filesystem and the provider are parameters: what a path resolves to, and
what the provider answers. Paths are lists of components.
-/
import Tessivum.Protocol.Event

namespace Tessivum.Sandbox

open Library Protocol

/-! ## Modes -/

/-- The maximum file-effect authority requested for one command. -/
inductive SandboxMode where
  | readOnly
  | workspaceWrite
  | dangerFullAccess
  deriving DecidableEq, Repr

/-- The place of a mode in the order of the source's `Ord`. -/
def SandboxMode.rank : SandboxMode → Nat
  | .readOnly => 0
  | .workspaceWrite => 1
  | .dangerFullAccess => 2

theorem SandboxMode.rank_injective : Function.Injective SandboxMode.rank := by
  intro a b h
  cases a <;> cases b <;> first | rfl | cases h

instance : LinearOrder SandboxMode := LinearOrder.lift' SandboxMode.rank SandboxMode.rank_injective

def SandboxMode.ofName : String → Option SandboxMode
  | "read-only" => some .readOnly
  | "workspace-write" => some .workspaceWrite
  | "danger-full-access" => some .dangerFullAccess
  | _ => none

/-- What `serde` reads a mode from: its name, or an object with the name as
its only field. -/
def SandboxMode.fromValue : Value → Option SandboxMode
  | .string name => SandboxMode.ofName name
  | .object [(name, .null)] => SandboxMode.ofName name
  | _ => none

def eventMode (event : SessionEvent) : Option SandboxMode :=
  if event.eventType = "sandbox/mode" then
    (event.data.get "mode").bind SandboxMode.fromValue
  else none

/-- `session_sandbox_mode`: the last mode in the log of a live session. -/
def sessionSandboxMode (log : Option (List SessionEvent)) : SandboxMode :=
  (log.bind fun events => events.reverse.findSome? eventMode).getD .workspaceWrite

/-! ## Requests -/

abbrev Path : Type := List String

def pathText (path : Path) : String := "/" ++ "/".intercalate path

/-- Whether explicitly approved supplemental read roots may be used. -/
inductive SandboxReadPolicy where
  | deny
  | allow
  deriving DecidableEq, Repr

/-- One explicit approval. Missing fields never broaden the request. -/
structure SandboxApproval where
  mode : Option SandboxMode
  readPolicy : Option SandboxReadPolicy
  deriving DecidableEq, Repr

/-- Untrusted sandbox intent. -/
structure SandboxRequest where
  mode : SandboxMode
  workspace : Path
  readPolicy : SandboxReadPolicy
  readRoots : List Path
  writeRoots : List Path
  approval : Option SandboxApproval
  deriving DecidableEq, Repr

inductive SandboxEnforcement where
  | full
  | partly
  deriving DecidableEq, Repr

structure SandboxDenial where
  code : String
  message : String
  deriving DecidableEq, Repr

/-- A provider's decision. The rules that recognize a refusal after the run
are left out. -/
structure SandboxPlan where
  argv : List String
  enforcement : SandboxEnforcement
  denial : Option SandboxDenial
  deriving DecidableEq, Repr

/-- A validated effective request passed to sandbox providers. -/
structure EffectiveSandboxRequest where
  mode : SandboxMode
  workspace : Path
  readRoots : List Path
  writeRoots : List Path
  deriving DecidableEq, Repr

abbrev SandboxProvider : Type :=
  EffectiveSandboxRequest → List String → Except TessivumError SandboxPlan

def sandboxError (code message : String) (details : Value) : TessivumError :=
  { code, message, phase := "sandbox", details }

def sandboxUnavailable : TessivumError :=
  sandboxError "SANDBOX_UNAVAILABLE" "requested sandbox confinement is unavailable" (.object [])

def providerFailure (e : TessivumError) : TessivumError :=
  if e.code = "SANDBOX_DENIED" then e else sandboxUnavailable

/-- `argv.first()` is a program, and no argument has a NUL. -/
def isArgv (argv : List String) : Bool :=
  (argv.head?.any fun program => program ≠ "") && argv.all fun arg => !arg.toList.contains '\x00'

def validateArgv (argv : List String) : Except TessivumError Unit :=
  failIf (isArgv argv = false) (sandboxError "SANDBOX_INVALID_ARGV"
    "sandbox argv must contain a non-empty NUL-free program" (.object []))

def validatePlan (plan : SandboxPlan) : Except TessivumError Unit := do
  failIf (isArgv plan.argv = false) sandboxUnavailable
  failIf (plan.denial.any fun denial => isBlank denial.code || isBlank denial.message)
    sandboxUnavailable

section

variable (canonicalDirectory : Path → String → Except TessivumError Path)

/-- `canonical_roots`, without the ones that are there already. -/
def canonicalRoots (label : String) : List Path → List Path → Except TessivumError (List Path)
  | canonical, [] => .ok canonical
  | canonical, root :: rest => do
    let root ← canonicalDirectory root label
    canonicalRoots label (if root ∈ canonical then canonical else canonical ++ [root]) rest

variable (request : SandboxRequest)

/-- The mode of a request: without an approval of that very mode, nothing may
be written. -/
def effectiveMode : Except TessivumError SandboxMode :=
  let approved := request.approval.bind (·.mode)
  match request.mode with
  | .dangerFullAccess =>
    if approved = some .dangerFullAccess then .ok .dangerFullAccess
    else .error (sandboxError "SANDBOX_DENIED" "danger-full-access requires explicit approval"
      (.object [("mode", .string "danger-full-access")]))
  | .readOnly => .ok .readOnly
  | .workspaceWrite =>
    .ok (if approved = some .workspaceWrite then .workspaceWrite else .readOnly)

/-- Supplemental roots to read, which need a policy and its approval. -/
def effectiveReadRoots : Except TessivumError (List Path) :=
  if request.readPolicy = .allow ∧ request.approval.bind (·.readPolicy) = some .allow then
    canonicalRoots canonicalDirectory "read root" [] request.readRoots
  else .ok []

def effectiveWriteRoots (mode : SandboxMode) (workspace : Path) :
    Except TessivumError (List Path) :=
  if mode = .workspaceWrite then do
    let roots ← canonicalRoots canonicalDirectory "write root" [] request.writeRoots
    forAllOk (fun root => failIf (workspace.isPrefixOf root = false)
      (sandboxError "SANDBOX_INVALID_PATH" "workspace-write root must be inside the workspace"
        (.object [("root", .string (pathText root)),
          ("workspace", .string (pathText workspace))]))) roots
    .ok roots
  else .ok []

def effectiveRequest : Except TessivumError EffectiveSandboxRequest := do
  let workspace ← canonicalDirectory request.workspace "workspace"
  let mode ← effectiveMode request
  let readRoots ← effectiveReadRoots canonicalDirectory request
  let writeRoots ← effectiveWriteRoots canonicalDirectory request mode workspace
  .ok {
    mode
    workspace
    readRoots := if workspace ∈ readRoots then readRoots else workspace :: readRoots
    writeRoots }

def prepare (provider : Option SandboxProvider) (request : SandboxRequest) (argv : List String) :
    Except TessivumError SandboxPlan := do
  validateArgv argv
  let effective ← effectiveRequest canonicalDirectory request
  if effective.mode = .dangerFullAccess then
    .ok { argv, enforcement := .full, denial := none }
  else
    match provider with
    | none => .error sandboxUnavailable
    | some confine => do
      let plan ← (confine effective argv).mapError providerFailure
      validatePlan plan
      failIf (plan.enforcement ≠ .full) sandboxUnavailable
      .ok plan

/-- `prepare_bash_argv` of a composition with a sandbox and a lease, up to
its plan: the mode is copied into the approval. -/
def prepareBash (provider : Option SandboxProvider) (workspace : Except TessivumError Path)
    (mode : SandboxMode) (argv : List String) : Except TessivumError SandboxPlan := do
  let workspace ← workspace
  prepare canonicalDirectory provider
    { mode
      workspace
      readPolicy := .deny
      readRoots := []
      writeRoots := [workspace]
      approval := if mode ≠ .readOnly then some { mode := some mode, readPolicy := none }
        else none } argv

end

/-! ## What is prepared -/

section

variable {canonicalDirectory : Path → String → Except TessivumError Path}
  {provider : Option SandboxProvider} {workspace : Except TessivumError Path}
  {mode : SandboxMode} {argv : List String} {plan : SandboxPlan}

/-- The plan is for the mode: it is the command itself under
`danger-full-access`, and else the provider's, with full enforcement. -/
def PreparedFor (provider : Option SandboxProvider) (mode : SandboxMode) (plan : SandboxPlan) :
    Prop :=
  plan.enforcement = .full ∧ (mode ≠ .dangerFullAccess →
    ∃ (confine : SandboxProvider) (effective : EffectiveSandboxRequest) (argv : List String),
      provider = some confine ∧ effective.mode = mode ∧ confine effective argv = .ok plan)

variable {request : SandboxRequest}

theorem effectiveRequest_mode {effective : EffectiveSandboxRequest}
    (h : effectiveRequest canonicalDirectory request = .ok effective) :
    effectiveMode request = .ok effective.mode := by
  obtain ⟨_, _, h⟩ := bind_eq_ok.mp h
  obtain ⟨_, hmode, h⟩ := bind_eq_ok.mp h
  obtain ⟨_, _, h⟩ := bind_eq_ok.mp h
  obtain ⟨_, _, h⟩ := bind_eq_ok.mp h
  cases h
  exact hmode

theorem prepare_ok {mode : SandboxMode} (hmode : effectiveMode request = .ok mode)
    (h : prepare canonicalDirectory provider request argv = .ok plan) :
    PreparedFor provider mode plan := by
  replace h := after_check h
  obtain ⟨effective, heffective, h⟩ := bind_eq_ok.mp h
  have hsame : effective.mode = mode := by
    rw [effectiveRequest_mode heffective] at hmode
    cases hmode
    rfl
  split at h
  · rename_i hdanger
    cases h
    exact ⟨rfl, fun hne => absurd (hsame.symm.trans hdanger) hne⟩
  · cases provider with
    | none => cases h
    | some confine =>
      obtain ⟨_, hconfine, h⟩ := bind_eq_ok.mp h
      replace h := after_check h
      obtain ⟨hfull, h⟩ := check_bind_eq_ok.mp h
      cases h
      exact ⟨not_not.mp (failIf_eq_ok.mp hfull), fun _ =>
        ⟨confine, effective, argv, rfl, hsame, mapError_eq_ok.mp hconfine⟩⟩

theorem prepareBash_ok (h : prepareBash canonicalDirectory provider workspace mode argv = .ok plan) :
    PreparedFor provider mode plan := by
  obtain ⟨_, _, h⟩ := bind_eq_ok.mp h
  refine prepare_ok ?_ h
  cases mode <;> rfl

end

end Tessivum.Sandbox
