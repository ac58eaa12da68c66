/-
Tessivum.Plugins.PnpmArgs — the arguments of a pnpm call
(`validate_market_pnpm_args`, `route_pnpm_args` and `pnpm_request_mutation` of
`src/plugin_manager.rs`).

Command and target are looked for three times.
-/
import Tessivum.Library.Result
import Tessivum.Protocol.Value

namespace Tessivum.Plugins

open Library Protocol List

def marketPnpmFlags : List String :=
  ["-w", "--reporter=ndjson", "--no-frozen-lockfile", "--config.minimumReleaseAge=0",
    "--config.fetchTimeout=600000", "--config.auto-install-peers=false"]

variable (argument : String)

def isCommand : Bool := argument = "add" || argument = "remove" || argument = "install"

def isFlag : Bool := argument.toList.head? = some '-'

/-! ## Paths -/

/-- `std::path::Component`, on Unix. -/
inductive Component
  | rootDir
  | curDir
  | parentDir
  | normal (name : List Char)
  deriving DecidableEq, Repr

def isAbsolute (path : String) : Bool := path.toList.head? = some '/'

def segmentComponent (segment : List Char) : Option Component :=
  if segment = [] ∨ segment = ['.'] then none
  else if segment = ['.', '.'] then some .parentDir
  else some (.normal segment)

/-- `Path::components`: a leading `.` is kept, any other is left out. -/
def components (path : String) : List Component :=
  let segments := path.toList.splitOn '/'
  (if isAbsolute path then [.rootDir] else if segments.head? = some ['.'] then [.curDir] else [])
    ++ segments.filterMap segmentComponent

/-- `specifier.strip_prefix("file:")`. -/
def stripFile (specifier : String) : Option String :=
  if "file:".toList.isPrefixOf specifier.toList then some (String.ofList (specifier.toList.drop 5))
  else none

/-! ## The check -/

def isTargetChar (c : Char) : Bool := c.isAlphanum || "@:./_#+~^=-".toList.contains c

def targetRefused : Bool :=
  argument = "" || decide (512 < argument.utf8ByteSize) || !argument.toList.all isTargetChar
    || isAbsolute argument
    || (components argument).any fun part => part = .parentDir || part = .curDir || part = .rootDir

/-- The variables of the loop of `validate_market_pnpm_args`. -/
structure PnpmScan where
  command : Option String
  target : Option String
  flags : List String
  deriving DecidableEq, Repr

def PnpmScan.read (scan : PnpmScan) : Except String PnpmScan :=
  if isCommand argument ∧ scan.command.isNone then .ok { scan with command := some argument }
  else if argument ∈ marketPnpmFlags then
    if argument ∈ scan.flags then .error "pnpm flags must not be duplicated"
    else .ok { scan with flags := argument :: scan.flags }
  else if isFlag argument then .error "a pnpm flag is not permitted"
  else if targetRefused argument ∨ scan.target.isSome then
    .error "a pnpm package target is invalid"
  else .ok { scan with target := some argument }

def scanPnpmArgs (args : List String) : Except String PnpmScan :=
  args.foldlM (fun scan argument => PnpmScan.read argument scan)
    { command := none, target := none, flags := [] }

def validateMarketPnpmArgs (args : List String) : Except String Unit := do
  failIf (args = [] ∨ 64 < args.length) "args must contain one bounded command"
  let scan ← scanPnpmArgs args
  failIf (scan.command = none) "pnpm command is missing"
  let changes := decide (scan.command = some "add" ∨ scan.command = some "remove")
  failIf (("-w" ∈ scan.flags ∧ !changes) ∨ changes ≠ scan.target.isSome
      ∨ (scan.command = some "install" ∧ scan.target.isSome))
    "pnpm command arguments are not permitted"

/-! ## The call -/

def isTarget : Bool := !isCommand argument && !marketPnpmFlags.contains argument

inductive PluginMutation
  | add (specifier : String)
  | remove (name : String)
  deriving DecidableEq, Repr

def pnpmRequestMutation (args : List String) : Option PluginMutation := do
  let command ← args.find? fun argument => argument = "add" || argument = "remove"
  let target ← args.find? isTarget
  return if command = "add" then .add target else .remove target

/-- `profile_allows_builds`, on what reading the manifest gives. -/
def profileAllowsBuilds (manifest : Except String Value) : Except String Bool := do
  let manifest ← manifest
  let list := ((manifest.get "pnpm").bind (Value.get · "onlyBuiltDependencies")).bind Value.asArray
  return list.any fun list => list ≠ [] && list.all fun item => item.asStr.isSome

def ignoreScripts (command : String) : String :=
  if command = "remove" then "--config.ignore-scripts=true" else "--ignore-scripts"

/-- `route_pnpm_args`. The check has found the command, so its `expect` does not fail. -/
def routePnpmArgs (manifest : Except String Value) (args : List String) :
    Except String (List String) := do
  validateMarketPnpmArgs args
  let command := (args.find? isCommand).getD ""
  let allows ← profileAllowsBuilds manifest
  return command :: ((if "-w" ∈ args then ["-w"] else []) ++ (args.find? isTarget).toList
    ++ ((marketPnpmFlags.drop 2).take 3).filter (args.contains ·)
    ++ ["--reporter=ndjson", "--config.auto-install-peers=false"]
    ++ if allows then [] else [ignoreScripts command])

end Tessivum.Plugins
