/-
Tessivum.Tools.Runtime — the tool registry, its scopes and the execution of one
call (`ToolScope`, `ToolRestrictions` and `ToolRuntime` of `src/tools.rs`).

A scope is an access for every name: a default and the names that differ from
it. A child scope is made from its parent and a set of restrictions and may
only narrow.

The registry lies behind one mutex, which is not reentrant: a call that asks
for it while it holds the guard waits for itself. `execute` is therefore a
computation over its progress, which records whether it holds the guard and
what it has done so far. It may be blocked, or unwind from a panic.

The registry may change between the two moments a call takes the lock: the
lookup of the tool and the settlement. Observers of registrations are told
outside the lock and are left out, as are the runtime's other readers.
-/
import Tessivum.Tools.Schema

namespace Tessivum.Tools

open Library Library.Keyed Protocol

/-! ## Access -/

/-- The action allowed for a named tool in a runtime scope. -/
inductive ToolAccess where
  | allow | deny | ask
  deriving DecidableEq, Repr

def ToolAccess.rank : ToolAccess → Nat
  | .deny => 0
  | .ask => 1
  | .allow => 2

theorem ToolAccess.rank_injective : Function.Injective ToolAccess.rank := by
  intro a b h
  cases a <;> cases b <;> first | rfl | cases h

/-- Accesses are ordered by rank. -/
instance : LinearOrder ToolAccess := LinearOrder.lift' ToolAccess.rank ToolAccess.rank_injective

/-- A narrowing policy for a derived scope. Each set is listed in its
order. -/
structure ToolRestrictions where
  allow : Option (List String)
  deny : List String
  ask : List String
  deriving DecidableEq, Repr

def ToolRestrictions.validate (r : ToolRestrictions) : Except TessivumError Unit := do
  forAllOk (fun name => failIf (isBlank name = true)
    (toolError "INVALID_TOOL_RESTRICTION" "tool restriction names must not be blank"
      (.object [("name", .string name)]))) (r.allow.getD [] ++ r.deny ++ r.ask)
  forAllOk (fun name => failIf (name ∈ r.ask)
    (toolError "INVALID_TOOL_RESTRICTION" "a tool cannot be both denied and approval-gated"
      (.object [("name", .string name)]))) r.deny

/-- `ToolScope`: a default, and the names that differ. -/
structure ToolScope where
  default : ToolAccess
  named : List (String × ToolAccess)
  deriving DecidableEq, Repr

def ToolScope.root : ToolScope := { default := .allow, named := [] }

def ToolScope.access (scope : ToolScope) (name : String) : ToolAccess :=
  (scope.named.lookup name).getD scope.default

def broadensScope (details : Value) : TessivumError :=
  toolError "TOOL_RESTRICTION_BROADENS_SCOPE"
    "tool restrictions may only narrow parent visibility" details

/-- `BTreeSet::insert`. -/
def insertName (name : String) : List String → List String
  | [] => [name]
  | other :: rest =>
    if name < other then name :: other :: rest
    else if name = other then other :: rest
    else other :: insertName name rest

/-- `BTreeSet::extend`. -/
def extendNames (names more : List String) : List String :=
  more.foldl (fun names name => insertName name names) names

/-- What the loop of `narrowed` requests for a name. -/
def requestedAccess (r : ToolRestrictions) (name : String) (parent : ToolAccess) : ToolAccess :=
  if name ∈ r.deny then .deny
  else if name ∈ r.ask then .ask
  else
    match r.allow with
    | some allow => if name ∈ allow then .allow else .deny
    | none => parent

/-- One round of the loop of `narrowed`. A name that agrees with the new
default is not kept. -/
def ToolScope.narrowName (scope : ToolScope) (r : ToolRestrictions) (default : ToolAccess)
    (named : List (String × ToolAccess)) (name : String) :
    Except TessivumError (List (String × ToolAccess)) := do
  let parent := scope.access name
  let requested := requestedAccess r name parent
  failIf (requested.rank > parent.rank) (broadensScope (.object [("name", .string name)]))
  .ok (if requested ≠ default then named ++ [(name, requested)] else named)

def ToolScope.narrowed (scope : ToolScope) (r : ToolRestrictions) :
    Except TessivumError ToolScope := do
  r.validate
  let default := if r.allow.isSome then .deny else scope.default
  failIf (default.rank > scope.default.rank) (broadensScope .null)
  let names := extendNames (extendNames (extendNames (extendNames [] (scope.named.map Prod.fst))
    (r.allow.getD [])) r.deny) r.ask
  let named ← names.foldlM (scope.narrowName r default) []
  .ok { default, named }

/-! ## The registry -/

/-- The completed, model-visible output of one tool call. -/
structure ToolOutput where
  content : List ContentBlock
  isError : Bool
  metaData : Value
  deriving DecidableEq

def ToolOutput.failure (code message : String) (details : Value) : ToolOutput :=
  { content := [.text message], isError := true
    metaData := .object [("code", .string code), ("details", details)] }

def ToolOutput.handlerFailure (error : TessivumError) : ToolOutput :=
  let text :=
    if "Error: ".toList.isPrefixOf error.message.toList then error.message
    else "Error: " ++ error.message
  { content := [.text text], isError := true
    metaData := .object [("code", .string error.code), ("details", error.details),
      ("phase", .string error.phase)] }

/-- The model-visible part of a tool definition. -/
structure ToolDefinition where
  name : String
  description : String
  parameters : Value

def validateDefinition (T : Texts) (definition : ToolDefinition) : Except TessivumError Unit := do
  failIf (isBlank definition.name = true)
    (toolError "INVALID_TOOL_NAME" "tool name must not be blank" .null)
  validateSchema T definition.parameters "$"

/-- A registered tool. Its identity stands for its handler, and its
definition has passed the check of `register`. -/
structure RegisteredTool (T : Texts) where
  id : Nat
  definition : ToolDefinition
  valid : validateDefinition T definition = .ok ()

/-- An observer of settled calls: it may panic. -/
structure ResultObserver where
  panics : ToolOutput → Bool

/-- `RuntimeState`: maps by name and by identity. -/
structure RuntimeState (T : Texts) where
  nextId : Nat
  tools : List (String × RegisteredTool T)
  approval : Bool
  resultObservers : List (Nat × ResultObserver)
  toolsDistinct : Distinct tools
  observersDistinct : Distinct resultObservers

namespace RuntimeState

def new (T : Texts) : RuntimeState T :=
  { nextId := 1, tools := [], approval := false, resultObservers := []
    toolsDistinct := List.nodup_nil, observersDistinct := List.nodup_nil }

end RuntimeState

/-! ## Computations under the lock -/

/-- How a call ends without a result: it waits for the guard it holds, or
it unwinds. -/
inductive Stop where
  | blocked
  | panicked (message : String)
  deriving DecidableEq, Repr

/-- What a call does. -/
inductive Effect where
  | checked (cancelled : Bool)
  | acquired
  | released
  | approved (answer : Except TessivumError (Option Bool))
  | ran (id : Nat) (arguments : Value)
  | observed (observer : Nat) (output : ToolOutput)

/-- Whether the call holds the guard, and what it has done. -/
structure Progress where
  held : Bool
  effects : List Effect

def Exec (α : Type) : Type := Progress → Except Stop α × Progress

namespace Exec

variable {α β : Type}

def bind (x : Exec α) (f : α → Exec β) : Exec β := fun p =>
  match x p with
  | (.ok a, p) => f a p
  | (.error stop, p) => (.error stop, p)

instance : Monad Exec where
  pure a := fun p => (.ok a, p)
  bind := bind

def stop (reason : Stop) : Exec α := fun p => (.error reason, p)

def emit (effect : Effect) : Exec Unit := fun p =>
  (.ok (), { p with effects := p.effects ++ [effect] })

/-- `lock`: the mutex is not reentrant. -/
def acquire : Exec Unit := fun p =>
  if p.held then (.error .blocked, p)
  else (.ok (), { held := true, effects := p.effects ++ [.acquired] })

def release : Exec Unit := fun p =>
  (.ok (), { held := false, effects := p.effects ++ [.released] })

def catchUnwind (x : Exec Unit) : Exec Unit := fun p =>
  match x p with
  | (.error (.panicked _), p) => (.ok (), p)
  | result => result

def forEach (f : α → Exec Unit) : List α → Exec Unit
  | [] => pure ()
  | x :: rest => do
    f x
    forEach f rest

end Exec

/-! ## Execution -/

/-- Where `execute` reads the cancellation token. -/
inductive CheckPoint where
  | entry | approved | handled
  deriving DecidableEq, Repr

/-- What the rest of the program answers to one call: the registry at its
two locks, the token at its three reads, the approval and the handler. -/
structure CallWorld (T : Texts) where
  lookup : RuntimeState T
  settlement : RuntimeState T
  token : CheckPoint → Bool
  approve : Except TessivumError (Option Bool)
  handle : Except TessivumError ToolOutput

section Execute

variable {T : Texts} (world : CallWorld T)

/-- `context.cancellation.is_cancelled()`. -/
def isCancelled (point : CheckPoint) : Exec Bool := do
  Exec.emit (.checked (world.token point))
  pure (world.token point)

/-- One observer of `notify_result`. -/
def observe (output : ToolOutput) (observer : Nat × ResultObserver) : Exec Unit :=
  Exec.catchUnwind do
    Exec.emit (.observed observer.1 output)
    if observer.2.panics output then Exec.stop (.panicked "observer")

/-- `ToolRuntime::notify_result`. The observers are copied under the lock
and called outside it. -/
def notifyResult (output : ToolOutput) : Exec Unit := do
  Exec.acquire
  let observers := world.settlement.resultObservers
  Exec.release
  Exec.forEach (observe output) observers

def settle (output : ToolOutput) : Exec ToolOutput := do
  notifyResult world output
  pure output

def cancelledOutput : ToolOutput := .failure "CANCELLED" "tool call was cancelled" .null

def namedFailure (code message name : String) : ToolOutput :=
  .failure code message (.object [("name", .string name)])

/-- The error of arguments that do not fit, with the schema in its text. -/
def invalidArguments (T : Texts) (name : String) (parameters : Value) (error : TessivumError) :
    TessivumError :=
  let path := ((error.details.get "path").bind Value.asStr).getD "$"
  { error with
    message := "Invalid arguments for " ++ T.debug name ++ " at " ++ path ++ ": " ++ error.message
      ++ ".\nExpected arguments (JSON Schema):\n" ++ T.display parameters }

def runHandler (tool : RegisteredTool T) (arguments : Value) : Exec ToolOutput := do
  Exec.emit (.ran tool.id arguments)
  let output :=
    match world.handle with
    | .ok output => output
    | .error error => .handlerFailure error
  if ← isCancelled world .handled then settle world cancelledOutput
  else settle world output

/-- The approval of a call in an `ask` scope. -/
def askApproval : Exec Bool :=
  if world.lookup.approval then do
    Exec.emit (.approved world.approve)
    pure (match world.approve with
      | .ok answer => answer.getD false
      | .error _ => false)
  else pure false

/-- `ToolRuntime::execute` behind the lookup. -/
def executeTool (scope : ToolScope) (name : String) (arguments : Value)
    (tool : RegisteredTool T) : Exec ToolOutput :=
  let access := scope.access name
  if access = .deny then
    settle world (namedFailure "TOOL_DENIED" "tool is not visible in this scope" name)
  else
    match validateInstance tool.definition.parameters arguments "$" with
    | .error (.panicked message) => Exec.stop (.panicked message)
    | .error (.error error) =>
      settle world (.handlerFailure (invalidArguments T name tool.definition.parameters error))
    | .ok () =>
      if access = .ask then do
        let approved ← askApproval world
        if ← isCancelled world .approved then settle world cancelledOutput
        else if !approved then
          settle world (namedFailure "TOOL_APPROVAL_DENIED" "tool call was not approved" name)
        else runHandler world tool arguments
      else runHandler world tool arguments

def execute (scope : ToolScope) (name : String) (arguments : Value) : Exec ToolOutput := do
  if ← isCancelled world .entry then settle world cancelledOutput
  else
    Exec.acquire
    match world.lookup.tools.lookup name with
    | none =>
      -- the guard lives to the end of the block this returns from, so the
      -- call settles under it
      let output ← settle world
        (namedFailure "TOOL_NOT_FOUND" "requested tool is not registered" name)
      Exec.release
      pure output
    | some tool =>
      Exec.release
      executeTool world scope name arguments tool

def executeFrom (scope : ToolScope) (name : String) (arguments : Value) :
    Except Stop ToolOutput × Progress :=
  execute world scope name arguments { held := false, effects := [] }

end Execute

end Tessivum.Tools
