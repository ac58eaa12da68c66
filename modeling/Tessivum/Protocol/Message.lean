/-
Tessivum.Protocol.Message — model-visible messages and their validation
(`src/protocol.rs`, `src/error.rs`).

`Message.validate` checks the source and then every block, in the source's
order and with the source's codes, texts and details.

Deserialising a message out of a payload is `serde` code generated for the
derive attributes, so it is not written here: `Serde` in
`Tessivum.Protocol.Event` carries it as a parameter.
-/
import Tessivum.Library.Result
import Tessivum.Protocol.Value

namespace Tessivum.Protocol

open Library

/-! ## Text -/

/-- `char::is_whitespace`: the Unicode `White_Space` property. -/
def isWhitespace (c : Char) : Bool :=
  let n := c.toNat
  (9 ≤ n && n ≤ 13) || n == 0x20 || n == 0x85 || n == 0xA0 || n == 0x1680
    || (0x2000 ≤ n && n ≤ 0x200A) || n == 0x2028 || n == 0x2029 || n == 0x202F
    || n == 0x205F || n == 0x3000

/-- `str::trim` on the characters of a string. -/
def trimChars (cs : List Char) : List Char :=
  ((cs.dropWhile isWhitespace).reverse.dropWhile isWhitespace).reverse

def trim (s : String) : String := String.ofList (trimChars s.toList)

/-- `s.trim().is_empty()`: nothing but white space. -/
def isBlank (s : String) : Bool := s.toList.all isWhitespace

/-- `str::contains` with a string pattern. -/
def containsText (needle : List Char) : List Char → Bool
  | [] => needle.isEmpty
  | c :: rest => needle.isPrefixOf (c :: rest) || containsText needle rest

/-! ## Errors -/

/-- A wire-stable failure (`TessivumError`). -/
structure TessivumError where
  code : String
  message : String
  phase : String
  details : Value
  deriving DecidableEq, Repr

/-- `TessivumError::to_string`. -/
def TessivumError.display (e : TessivumError) : String := e.code ++ ": " ++ e.message

def invalid (code message : String) (details : Value) : TessivumError :=
  { code, message, phase := "protocol", details }

/-- Largest integer a JavaScript consumer represents exactly. -/
def maxSafeInteger : Nat := 9007199254740991

/-- Exclusive bound of a `u64`. -/
def u64Bound : Nat := 2 ^ 64

def checkSafeInteger (name : String) (value : Nat) : Except TessivumError Unit :=
  failIf (value > maxSafeInteger) (invalid "NUMERIC_BOUND_EXCEEDED"
    "numeric protocol fields must fit a JavaScript safe integer"
    (.object [("field", .string name), ("value", .ofNat value),
      ("maximum", .ofNat maxSafeInteger)]))

def validateNonempty (code field value : String) : Except TessivumError Unit :=
  failIf (isBlank value) (invalid code "required protocol fields must be non-empty"
    (.object [("field", .string field)]))

def validateRoute (provider model : String) : Except TessivumError Unit :=
  failIf (isBlank provider || isBlank model)
    (invalid "INVALID_LLM_ROUTE" "provider and model must be non-empty" .null)

def validateOptional {α : Type} (check : α → Except TessivumError Unit) :
    Option α → Except TessivumError Unit
  | some value => check value
  | none => .ok ()

/-! ## Identities -/

/-- Opaque session identity preserved verbatim on the wire. -/
structure SessionId where
  asStr : String
  deriving DecidableEq, Repr

/-- Opaque message identity preserved verbatim on the wire. -/
structure MessageId where
  asStr : String
  deriving DecidableEq, Repr

/-- Opaque model tool-call correlation identity. -/
structure ToolCallId where
  asStr : String
  deriving DecidableEq, Repr

/-! ## Content blocks -/

/-- A model-visible block. Tool arguments remain the provider's raw JSON
string. -/
inductive ContentBlock where
  | text (text : String)
  | reasoning (text : String)
  | image (attachment : Value)
  | toolCall (id : ToolCallId) (name arguments : String)
  | toolResult (toolCallId : ToolCallId) (content : List ContentBlock) (isError : Option Bool)
  deriving Repr

namespace ContentBlock

mutual
def beq : ContentBlock → ContentBlock → Bool
  | .text a, .text b => a == b
  | .reasoning a, .reasoning b => a == b
  | .image a, .image b => a == b
  | .toolCall i n a, .toolCall j m b => i == j && n == m && a == b
  | .toolResult i a e, .toolResult j b f => i == j && beqBlocks a b && e == f
  | _, _ => false

def beqBlocks : List ContentBlock → List ContentBlock → Bool
  | [], [] => true
  | a :: as, b :: bs => beq a b && beqBlocks as bs
  | _, _ => false
end

mutual
theorem beq_iff : ∀ a b : ContentBlock, beq a b = true ↔ a = b
  | .text a, b | .reasoning a, b | .image a, b => by cases b <;> simp [beq]
  | .toolCall i n a, b => by cases b <;> simp [beq, and_assoc]
  | .toolResult i a e, b => by
    cases b with
    | toolResult j b => simp [beq, beqBlocks_iff a b, and_assoc]
    | _ => simp [beq]

theorem beqBlocks_iff : ∀ as bs : List ContentBlock, beqBlocks as bs = true ↔ as = bs
  | [], bs => by cases bs <;> simp [beqBlocks]
  | a :: as, bs => by
    cases bs with
    | nil => simp [beqBlocks]
    | cons b bs =>
      rw [beqBlocks, and_eq_true, beq_iff a b, beqBlocks_iff as bs, cons.injEq]
end

instance : DecidableEq ContentBlock := fun a b => decidable_of_iff _ (beq_iff a b)

mutual
/-- `ContentBlock::validate`: only tool results carry a checked field. -/
def validate : ContentBlock → Except TessivumError Unit
  | .toolResult toolCallId content _ => do
    validateNonempty "INVALID_TOOL_CALL_ID" "tool-result toolCallId" toolCallId.asStr
    validateBlocks content
  | .text _ => .ok ()
  | .reasoning _ => .ok ()
  | .image _ => .ok ()
  | .toolCall _ _ _ => .ok ()

def validateBlocks : List ContentBlock → Except TessivumError Unit
  | [] => .ok ()
  | block :: rest => do
    validate block
    validateBlocks rest
end

end ContentBlock

/-! ## Sources -/

/-- Semantic form declared by a plugin source. -/
inductive ContextForm where
  | instructions | catalog | snapshot | notice | relay | recall
  deriving DecidableEq, Repr

/-- One named contribution to a snapshot-form plugin message. -/
structure ContextSnapshotSection where
  name : String
  text : String
  deriving DecidableEq, Repr

/-- The producer of one model-visible message. -/
inductive MessageSource where
  | goal (goalId : String) (revision round : Nat)
  | user (clientTimeZone : Option String)
  | plugin (plugin : String) (compactionId : Option String) (form : Option ContextForm)
      (sections : Option (List ContextSnapshotSection)) (summary : Option String)
  | skillInvocation (name : String) (form : ContextForm)
  | model (provider model : String) (replayState : Option Value)
  | tool (callId : ToolCallId)
  deriving DecidableEq, Repr

def timeZoneByte (c : Char) : Bool :=
  c.isAlphanum || c == '_' || c == '+' || c == '.' || c == '-' || c == '/'

def validateClientTimeZone (value : String) : Except TessivumError Unit :=
  if value = "UTC" then .ok ()
  else
    failIf (!(!value.isEmpty && value.utf8ByteSize ≤ 64 && trim value == value
        && value.toList.contains '/' && !containsText ['.', '.'] value.toList
        && value.toList.all timeZoneByte))
      (invalid "INVALID_CLIENT_TIME_ZONE"
        "clientTimeZone must be UTC or a valid IANA Area/Location name" .null)

def MessageSource.validate : MessageSource → Except TessivumError Unit
  | .plugin name compactionId form sections summary => do
    validateNonempty "INVALID_MESSAGE_SOURCE" "plugin" name
    validateOptional (validateNonempty "INVALID_MESSAGE_SOURCE" "compactionId") compactionId
    failIf (form = some .snapshot ∧ sections = none)
      (invalid "INVALID_MESSAGE_SOURCE" "snapshot plugin sources require sections" .null)
    failIf (form = some .notice ∧ summary = none)
      (invalid "INVALID_MESSAGE_SOURCE" "notice plugin sources require a summary" .null)
  | .skillInvocation name form => do
    validateNonempty "INVALID_MESSAGE_SOURCE" "name" name
    failIf (form ≠ .instructions) (invalid "INVALID_MESSAGE_SOURCE"
      "skill invocation sources require instructions form" .null)
  | .model provider name _ => validateRoute provider name
  | .tool callId => validateNonempty "INVALID_TOOL_CALL_ID" "callId" callId.asStr
  | .user clientTimeZone => validateOptional validateClientTimeZone clientTimeZone
  | .goal goalId revision round => do
    validateNonempty "INVALID_GOAL_SOURCE" "goalId" goalId
    failIf (revision = 0 ∨ round = 0) (invalid "INVALID_GOAL_SOURCE"
      "goal message source revision and round must be positive" .null)

/-! ## Messages -/

/-- Provider-neutral conversation role. -/
inductive MessageRole where
  | system | user | assistant
  deriving DecidableEq, Repr

/-- One immutable message shared by delivery, durable history and model
requests. -/
structure Message where
  id : MessageId
  role : MessageRole
  content : List ContentBlock
  source : MessageSource
  deriving DecidableEq, Repr

def Message.validate (m : Message) : Except TessivumError Unit := do
  m.source.validate
  ContentBlock.validateBlocks m.content

/-- A message that deserialises to itself: an optional `replayState`
holding JSON `null` is the one field that serialises like an absent
one. -/
def Message.Faithful (m : Message) : Prop :=
  ∀ provider model, m.source ≠ .model provider model (some .null)

end Tessivum.Protocol
