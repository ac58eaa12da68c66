/-
Tessivum.Settings.Document — settings documents, their namespaces and the
changes callers make to them (the free functions of `src/settings.rs`).

A settings document is a JSON object. The effective value of a namespace is its
defaults, overridden by its base, overridden by the user document (`resolve`).

Every number of `Value` is finite, so `validate_json` finds nothing to refuse.
-/
import Tessivum.Protocol.Message

namespace Tessivum.Settings

open Library Protocol

inductive SettingsError where
  | invalidNamespace (ns : String)
  | duplicateNamespace (ns : String)
  | notRegistered (ns : String)
  | readOnly
  | closed
  | conflict (expected actual : Nat)
  | invalidDocument
  | invalidPath
  | revisionExhausted
  | persistence (reason : String)
  | validation (error : TessivumError)
  deriving DecidableEq, Repr

abbrev SettingPath : Type := List String

/-! ## Checks -/

/-- The bytes after the first of a namespace segment: lower case letters
and digits, with single dashes between them. -/
def validSegmentRest : Bool → List Char → Bool
  | separator, [] => !separator
  | separator, c :: rest =>
    if c.isLower || c.isDigit then validSegmentRest false rest
    else if c == '-' && !separator then validSegmentRest true rest
    else false

def validNamespaceSegment : List Char → Bool
  | [] => false
  | first :: rest => first.isLower && validSegmentRest false rest

/-- `split_once('/')`. -/
def splitOnce : List Char → Option (List Char × List Char)
  | [] => none
  | '/' :: rest => some ([], rest)
  | c :: rest => (splitOnce rest).map fun (scope, name) => (c :: scope, name)

def validNamespace : List Char → Bool
  | '@' :: rest =>
    match splitOnce rest with
    | none => false
    | some (scope, name) => validNamespaceSegment scope && validNamespaceSegment name
  | ns => validNamespaceSegment ns

def ensureNamespace (ns : String) : Except SettingsError Unit :=
  failIf (validNamespace ns.toList = false) (.invalidNamespace ns)

/-- A path is not empty, nor is one of its members, and no member holds a
null character. -/
def validPath (path : SettingPath) : Bool :=
  !path.isEmpty && path.all fun member => !member.isEmpty && !member.toList.contains '\x00'

def validatePath (path : SettingPath) : Except SettingsError Unit :=
  failIf (validPath path = false) .invalidPath

def validatePathOrRoot (path : SettingPath) : Except SettingsError Unit :=
  if path.isEmpty then .ok () else validatePath path

/-- `validate_secret_paths`: valid, and each of them once. -/
def validateSecretPaths (paths : List SettingPath) : Except SettingsError Unit :=
  failIf (¬ (paths.all validPath = true ∧ paths.Nodup)) .invalidPath

def isObject : Value → Bool
  | .object _ => true
  | _ => false

def isArray : Value → Bool
  | .array _ => true
  | _ => false

def validateDocument (value : Value) : Except SettingsError Unit :=
  failIf (isObject value = false) .invalidDocument

def emptyDocument : Value := .object []

/-! ## Merging -/

/-- `Map::insert`: the fields of a map stand in the order of their keys. -/
def insertField : List (String × Value) → String → Value → List (String × Value)
  | [], key, value => [(key, value)]
  | (k, v) :: rest, key, value =>
    if key = k then (key, value) :: rest
    else if key < k then (key, value) :: (k, v) :: rest
    else (k, v) :: insertField rest key value

mutual
/-- `merge`: objects are merged field by field, anything else is
replaced. -/
def merge (left : Value) : Value → Value
  | .object right =>
    match left with
    | .object fields => .object (mergeFields fields right)
    | _ => .object right
  | right => right

def mergeFields (left : List (String × Value)) : List (String × Value) → List (String × Value)
  | [] => left
  | (key, value) :: rest =>
    let merged := match left.lookup key with
      | some old => merge old value
      | none => value
    mergeFields (insertField left key merged) rest
end

def resolve (defaults base user : Value) : Value := merge (merge defaults base) user

/-! ## Paths -/

def arrayIndex (member : String) : Option Nat :=
  if member.toList.all Char.isDigit then
    member.toNat?.bind fun index => if index < u64Bound then some index else none
  else none

/-- `new_path_container`: what a missing step of a path becomes. -/
def newPathContainer (next : String) : Value :=
  if (arrayIndex next).isSome then .array [] else emptyDocument

/-- `Vec::resize` with nulls, up to and with `index`. -/
def resizeTo (items : List Value) (index : Nat) : List Value :=
  items ++ List.replicate (index + 1 - items.length) .null

/-- The step of a path, if it can be gone through, or a new container. -/
def containerOr (next : String) : Option Value → Value
  | some value => if isObject value || isArray value then value else newPathContainer next
  | none => newPathContainer next

/-- `set_at_path`. A path that leads through an array by a name that is
no index changes nothing. -/
def setAtPath (document : Value) (value : Value) : SettingPath → Value
  | [] => value
  | [member] =>
    match document with
    | .object fields => .object (insertField fields member value)
    | .array items =>
      match arrayIndex member with
      | none => document
      | some index => .array ((resizeTo items index).set index value)
    | _ => document
  | member :: next :: rest =>
    match document with
    | .object fields =>
      .object (insertField fields member
        (setAtPath (containerOr next (fields.lookup member)) value (next :: rest)))
    | .array items =>
      match arrayIndex member with
      | none => document
      | some index =>
        let items := resizeTo items index
        .array (items.set index
          (setAtPath (containerOr next items[index]?) value (next :: rest)))
    | _ => document

/-- `remove_at_path`. An array keeps its length: its element becomes
null. -/
def removeAtPath (document : Value) : SettingPath → Value
  | [] => document
  | [member] =>
    match document with
    | .object fields => .object (fields.filter fun field => field.1 != member)
    | .array items =>
      match arrayIndex member with
      | none => document
      | some index => .array (items.set index .null)
    | _ => document
  | member :: next :: rest =>
    match document with
    | .object fields =>
      match fields.lookup member with
      | none => document
      | some child => .object (insertField fields member (removeAtPath child (next :: rest)))
    | .array items =>
      match arrayIndex member with
      | none => document
      | some index =>
        match items[index]? with
        | none => document
        | some child => .array (items.set index (removeAtPath child (next :: rest)))
    | _ => document

/-! ## Changes -/

inductive SettingsPathOp where
  | set (path : SettingPath) (value : Value)
  | unset (path : SettingPath)
  deriving DecidableEq

def SettingsPathOp.path : SettingsPathOp → SettingPath
  | .set path _ => path
  | .unset path => path

/-- One operation of `mutate`. -/
def SettingsPathOp.apply (user : Value) : SettingsPathOp → Value
  | .set path value => if path.isEmpty then value else setAtPath user value path
  | .unset path => if path.isEmpty then emptyDocument else removeAtPath user path

/-- The check of `mutate`'s operations, with whether the root is a
document after those before. -/
def validateOps : Bool → List SettingsPathOp → Except SettingsError Unit
  | _, [] => .ok ()
  | rootIsDocument, op :: rest => do
    validatePathOrRoot op.path
    if op.path.isEmpty then
      validateOps (match op with
        | .set _ value => isObject value
        | .unset _ => true) rest
    else do
      failIf (rootIsDocument = false) .invalidDocument
      validateOps rootIsDocument rest

/-- The ways to edit a user document. -/
inductive Change where
  | update (patch : Value)
  | replace (user : Value)
  | setPath (path : SettingPath) (value : Value)
  | removePath (path : SettingPath)
  | mutate (ops : List SettingsPathOp)
  deriving DecidableEq

def Change.validate : Change → Except SettingsError Unit
  | .update patch => validateDocument patch
  | .replace user => validateDocument user
  | .setPath path _ => validatePath path
  | .removePath path => validatePath path
  | .mutate ops => validateOps true ops

/-- The closure handed to `commit`. -/
def Change.apply (user : Value) : Change → Value
  | .update patch => merge user patch
  | .replace document => document
  | .setPath path value => setAtPath user value path
  | .removePath path => removeAtPath user path
  | .mutate ops => ops.foldl SettingsPathOp.apply user

/-- A patch changes the fields it names and keeps the others. -/
example : Change.apply (.object [("a", .ofNat 1), ("b", .ofNat 2)])
    (.update (.object [("b", .ofNat 3), ("c", .null)]))
      = .object [("a", .ofNat 1), ("b", .ofNat 3), ("c", .null)] := by decide

/-! ## Panics of the vectors that paths extend

`set_at_path` extends an array to one element behind the index it writes. The
sum `index + 1` overflows at the last index of a machine word, and
`Vec::resize` panics where a vector of that length cannot be allocated: `room`
is the number of values a vector can hold. `none` is a panic. Elsewhere the
operations are those above. -/

open Protocol

/-- `if array.len() <= index { array.resize(index + 1, Value::Null) }`. -/
def resizeWithin (room : Nat) (items : List Value) (index : Nat) : Option (List Value) :=
  if items.length ≤ index then
    if index + 1 < u64Bound ∧ index + 1 ≤ room then some (resizeTo items index) else none
  else some items

/-- `set_at_path`. -/
def setAtPathWithin (room : Nat) (document : Value) (value : Value) :
    SettingPath → Option Value
  | [] => some value
  | [member] =>
    match document with
    | .object fields => some (.object (insertField fields member value))
    | .array items =>
      match arrayIndex member with
      | none => some document
      | some index => do
        let items ← resizeWithin room items index
        some (.array (items.set index value))
    | _ => some document
  | member :: next :: rest =>
    match document with
    | .object fields => do
      let inner ← setAtPathWithin room (containerOr next (fields.lookup member)) value
        (next :: rest)
      some (.object (insertField fields member inner))
    | .array items =>
      match arrayIndex member with
      | none => some document
      | some index => do
        let items ← resizeWithin room items index
        let inner ← setAtPathWithin room (containerOr next items[index]?) value
          (next :: rest)
        some (.array (items.set index inner))
    | _ => some document

/-- One operation of `mutate`. -/
def SettingsPathOp.applyWithin (room : Nat) (user : Value) : SettingsPathOp → Option Value
  | .set path value =>
    if path.isEmpty then some value else setAtPathWithin room user value path
  | .unset path => some (if path.isEmpty then emptyDocument else removeAtPath user path)

def applyAllWithin (room : Nat) (user : Value) (ops : List SettingsPathOp) : Option Value :=
  ops.foldlM (SettingsPathOp.applyWithin room) user

/-- The operations that `set_path`, `remove_path` and `mutate` hand to
`commit`. -/
def Change.pathOps : Change → Option (List SettingsPathOp)
  | .setPath path value => some [.set path value]
  | .removePath path => some [.unset path]
  | .mutate ops => some ops
  | .update _ => none
  | .replace _ => none

end Tessivum.Settings
