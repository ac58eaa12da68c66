/-
Tessivum.Filesystem.Publish — a call of `write` or `edit` and the file it
changes (`WriteFile::run` and `EditFile::run` of
`src/builtin_tools/model_tools.rs`, `write_text_outcome`,
`edit_text_outcome_inner` and `atomic_publish` of `src/filesystem.rs`).

The file changes when the temporary is renamed, and nowhere else. The call goes
on after that: it observes what it wrote, and it looks at the cancellation and
the lease once more, as the runtime does at the cancellation behind the call.
-/
import Tessivum.Filesystem.Edit
import Tessivum.Sandbox.Calls

namespace Tessivum.Filesystem

open Library Protocol Sandbox

/-- A file, by whether its bytes are UTF-8. -/
inductive FileContent
  | text (content : String)
  | binary (bytes : List UInt8)
  deriving DecidableEq, Repr

inductive FileKind
  | write
  | edit
  deriving DecidableEq, Repr

def FileKind.name : FileKind → String
  | write => "write"
  | edit => "edit"

/-- Where a call or the runtime behind it reads the cancellation token. -/
inductive FilePoint
  | entry
  | approved
  | allowed
  | published
  | handled
  deriving DecidableEq, Repr

/-- What a call asks of the system, in its order; `lease` is the check of the lease behind the
publication. -/
inductive FileOp
  | workspace
  | target
  | writePath
  | metadata
  | read
  | createTemp
  | writeTemp
  | syncTemp
  | rename
  | observe
  | lease
  deriving DecidableEq, Repr

/-- What a call meets: the mode of its session, the approval service with its answer, the token at
each look, and the operations that fail. -/
structure FileWorld where
  current : SandboxMode
  answer : Option ApprovalAnswer
  token : FilePoint → Bool
  failure : FileOp → Option TessivumError
  /-- The path the target resolves to, as errors show it. -/
  path : String

variable (world : FileWorld) (kind : FileKind) (arguments : Value) (file : Option FileContent)

def perform (op : FileOp) : Except TessivumError Unit :=
  match world.failure op with
  | none => .ok ()
  | some e => .error e

/-- `allow_write`. -/
def allow : Except TessivumError Unit := do
  checkCancelled (world.token .entry)
  let admission ← allowWrite kind.name world.current arguments
  if admission.asks = true then do
    let denied := toolError "TOOL_APPROVAL_DENIED" "sandbox escalation was not approved"
      (.object [("name", .string kind.name)])
    match world.answer with
    | none => .error denied
    | some answer => do
      let approved ← answer
      checkCancelled (world.token .approved)
      failIf (approved.getD false = false) denied
  else .ok ()

def argument (name : String) : String := ((arguments.get name).bind Value.asStr).getD ""

def pathDetails : Value := .object [("path", .string world.path)]

def readText (content : FileContent) : Except TessivumError String := do
  perform world .read
  match content with
  | .text content => .ok content
  | .binary _ =>
    .error (fsError "FS_NOT_TEXT" "filesystem target does not contain UTF-8 text"
      (pathDetails world))

/-- The text that is published, under the gate of the target. Neither tool passes a guard. -/
def newText : Except TessivumError String :=
  match kind, file with
  | .write, none => .ok (normalizeLf (argument arguments "content"))
  | .write, some content => do
    let _before ← readText world content
    .ok (normalizeLf (argument arguments "content"))
  | .edit, none =>
    .error (fsError "FS_STALE_VERSION" "filesystem target is no longer observed"
      (pathDetails world))
  | .edit, some content => do
    let before ← readText world content
    let edit : FsLiteralEdit :=
      { expected := argument arguments "old_string"
        replacement := argument arguments "new_string"
        replaceIfVersion := none }
    let replaceAll := ((arguments.get "replace_all").bind Value.asBool).getD false
    let texts ← editTexts world.path edit replaceAll before
    .ok texts.after

/-- The arguments of the handler itself. -/
def checkArguments : Except TessivumError Unit :=
  match kind with
  | .write => checkWrite arguments
  | .edit => checkEdit arguments

/-- A call up to its `rename`, with the text that is published by it. -/
def publishFile : Except TessivumError String := do
  checkArguments kind arguments
  allow world kind arguments
  checkCancelled (world.token .allowed)
  perform world .workspace
  perform world .target
  perform world .writePath
  perform world .metadata
  let after ← newText world kind arguments file
  perform world .createTemp
  perform world .writeTemp
  perform world .syncTemp
  perform world .rename
  .ok after

/-- The rest of the handler, behind the publication. -/
def settleFile : Except TessivumError Unit := do
  perform world .observe
  checkCancelled (world.token .published)
  perform world .lease

/-- The look of `ToolRuntime::execute` at the token behind the handler: a
cancelled call answers so whatever its handler has answered. -/
def finishCall (result : Except TessivumError Unit) : Except TessivumError Unit :=
  if world.token .handled = true then .error cancelledError else result

/-- A whole call: how it ends, and the file. -/
def callFile : Except TessivumError Unit × Option FileContent :=
  match publishFile world kind arguments file with
  | .error e => (finishCall world (.error e), file)
  | .ok after => (finishCall world (settleFile world), some (.text after))

end Tessivum.Filesystem
