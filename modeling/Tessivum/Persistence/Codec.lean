/-
Tessivum.Persistence.Codec — what the durable backends share: the text and
compression codecs they call, the errors they report and the legacy migration
they apply when reading.

`serde_json`, `zstd` and `crc32fast` are outside the repository. `Codec`
carries the functions the backends call as parameters.
-/
import Tessivum.Library.Bytes
import Tessivum.Session.Persistence

namespace Tessivum.Persistence

open Library Protocol Session

/-! ## Codecs -/

/-- The fields `serde` reads for a session header, before migration. -/
structure SessionHeaderWire where
  header : SessionHeader
  agentPreset : Option String
  deriving DecidableEq, Repr

/-- The library functions the backends call. -/
structure Codec where
  /-- `serde_json::to_string` of a header and of an event. -/
  headerToString : SessionHeader → Bytes
  eventToString : SessionEvent → Bytes
  /-- `serde_json::from_slice::<Value>`. -/
  valueFromSlice : Bytes → Option Value
  /-- `serde_json::from_slice::<SessionEvent>`. -/
  eventFromSlice : Bytes → Except String SessionEvent
  /-- `serde_json::from_value::<SessionHeaderWire>`. -/
  headerWireFromValue : Value → Except String SessionHeaderWire
  /-- `serde_json` on the text columns of the relational backend. -/
  valueToText : Value → String
  valueFromText : String → Except String Value
  seqsToText : List Nat → String
  seqsFromText : String → Except String (List Nat)
  surfaceOpToText : SurfaceOp → String
  surfaceOpFromText : String → Except String SurfaceOp
  originToText : SessionOrigin → String
  originFromText : String → Except String SessionOrigin
  /-- `zstd::stream::encode_all` and `decode_all`. -/
  encodeAll : Bytes → Bytes
  decodeAll : Bytes → Except String Bytes
  /-- `crc32fast::hash`. -/
  crc32 : Bytes → UInt32
  /-- `legacy_mode_path`, which reads the environment. -/
  legacyModePath : String → String
  /-- The debug form `{:?}` of a string. -/
  debugForm : String → String

/-! ## Errors -/

def persistenceError (operation message : String) : SessionError :=
  .protocol { code := "SESSION_PERSISTENCE_IO", message := operation ++ ": " ++ message
              phase := "persistence", details := .null }

def corrupt (message : String) (details : Value) : SessionError :=
  .protocol { code := "SESSION_LOG_CORRUPT", message, phase := "persistence", details }

/-! ## Legacy migration -/

def migrateLegacyAgentPreset (C : Codec) (legacyPreset : String) :
    Except TessivumError AgentModeId :=
  if legacyPreset = "standard" then .ok .standard
  else if legacyPreset = "code" then .ok .ptc
  else if legacyPreset = "minimal" then .ok .minimal
  else if legacyPreset = "cordis" then .ok .composition
  else .error
    { code := "MODE_MIGRATION_REQUIRED"
      message := "legacy agent preset " ++ C.debugForm legacyPreset ++ " must migrate to "
        ++ C.legacyModePath legacyPreset
      phase := "persistence"
      details := .object [("expectedModePath", .string (C.legacyModePath legacyPreset)),
        ("legacyPreset", .string legacyPreset)] }

def legacySelectionEvent : String := "agent-preset/selected"

/-- `migrate_legacy_agent_preset_selection`. -/
def migrateLegacySelection (C : Codec) (e : SessionEvent) : Except TessivumError SessionEvent :=
  if e.eventType ≠ legacySelectionEvent then .ok e
  else
    match (e.data.get "agentPreset").bind Value.asStr with
    | none => .error (invalid "INVALID_LEGACY_AGENT_PRESET_EVENT"
        "legacy agent preset selection must contain agentPreset" .null)
    | some preset => do
      let mode ← migrateLegacyAgentPreset C preset
      .ok { e with eventType := "agent-mode/selected"
                   data := .object [("agentMode", .string mode.asStr)] }

/-- `SessionHeader::from_wire`. -/
def headerFromWire (C : Codec) (wire : SessionHeaderWire) : Except TessivumError SessionHeader :=
  match wire.header.agentMode, wire.agentPreset with
  | some _, some _ => .error (invalid "SESSION_HEADER_MODE_CONFLICT"
      "session header cannot contain both agentMode and agentPreset"
      (.object [("fields", .array [.string "agentMode", .string "agentPreset"])]))
  | none, some preset => do
    let mode ← migrateLegacyAgentPreset C preset
    .ok { wire.header with agentMode := some mode }
  | _, none => .ok wire.header

/-- `SessionHeader::from_json_value`. -/
def headerFromJsonValue (C : Codec) (v : Value) : Except TessivumError SessionHeader :=
  match C.headerWireFromValue v with
  | .error reason => .error (invalid "INVALID_SESSION_HEADER" "session header is invalid"
      (.object [("reason", .string reason)]))
  | .ok wire => headerFromWire C wire

variable {e : SessionEvent}

theorem migrateLegacySelection_of_ne (C : Codec) (h : e.eventType ≠ legacySelectionEvent) :
    migrateLegacySelection C e = .ok e :=
  if_pos h

theorem migrateLegacySelection_not_legacy {C : Codec} {stored : SessionEvent}
    (h : migrateLegacySelection C stored = .ok e) : e.eventType ≠ legacySelectionEvent := by
  by_cases hlegacy : stored.eventType = legacySelectionEvent
  · unfold migrateLegacySelection at h
    rw [if_neg (not_not.mpr hlegacy)] at h
    cases hp : (stored.data.get "agentPreset").bind Value.asStr with
    | none => rw [hp] at h; cases h
    | some preset =>
      rw [hp] at h
      obtain ⟨mode, _, h⟩ := bind_eq_ok.mp h
      rw [← ok.inj h]
      exact (by decide : "agent-mode/selected" ≠ legacySelectionEvent)
  · rw [migrateLegacySelection_of_ne C hlegacy] at h
    rw [← ok.inj h]
    exact hlegacy

end Tessivum.Persistence
